import SymbolAtlas.Fault
import SymbolAtlas.Vocabulary.MemberKind

/-!
# Notices

What an operation reports while it goes on: structural anomalies such as cycles are never a reason
to give up. `Noted` is a result together with the notices given on the way to it.
-/

set_option autoImplicit false

namespace SymbolAtlas

/-- How grave a notice is. -/
inductive Severity where
  | warning
  | error
deriving DecidableEq, Repr

/-- Something that an operation reports. Entities and members are named, not numbered. -/
inductive Notice where
  /-- A class was to derive from itself. -/
  | selfBase (name : String)
  /-- A search for a class came back to a class it is still inside of. -/
  | searchCycle (through target : String)
  /-- A search for a class went deeper than the bound allows. -/
  | searchTooDeep (inside target : String)
  /-- A distance could not be followed beyond the bound. -/
  | distanceTooDeep (start target : String)
  /-- A class is among its own bases. -/
  | mergeCycle (base through : String)
  /-- The bases of a class go deeper than the bound allows. -/
  | mergeTooDeep (start : String)
  /-- A class with a base edge to itself was merged. -/
  | listsItself (name : String)
  /-- A member cannot be filed in a class because of its kind. -/
  | unfiledInClass (member owner : String) (kind : MemberKind)
  /-- A member of a kind that only classes have was put into a namespace. -/
  | unfiledInNamespace (member owner : String) (kind : MemberKind)
  /-- The bases of a template instance were given up. -/
  | instantiationTooDeep (name : String)
  /-- An entity record was passed over. -/
  | skippedEntity (name : String) (fault : Fault)
  /-- A record with an unknown protection was passed over. -/
  | skipped (name : String) (fault : Fault)
  /-- A member record was passed over. -/
  | skippedMember (name owner : String) (fault : Fault)
  /-- A base of a record was passed over. -/
  | skippedBase (name owner : String) (fault : Fault)
  | unknownTrait (trait owner : String)
  | formalsIgnored (name : String) (fault : Fault)
  /-- A record names itself as a base. -/
  | namesItself (name : String)
  | baseNotFound (base owner : String)
  | categoryUnnamed (name : String)
  | extendedNotFound (name category : String)
  | usedNotFound (name owner : String)
  | declarationNotFound (name owner : String)
deriving DecidableEq, Repr

/-- Why a kind of member has no place in a class. -/
def MemberKind.refusal (kind : MemberKind) : String :=
  "a " ++ kind.title ++ " cannot be a member of a class"

namespace Notice

/-- The gravity of a notice. -/
def severity : Notice → Severity
  | searchTooDeep .. | mergeTooDeep .. | unfiledInNamespace .. | instantiationTooDeep .. => .error
  | _ => .warning

/-- A name in quotes. -/
def quoted (name : String) : String :=
  "'" ++ name ++ "'"

/-- The text of a notice. -/
def message : Notice → String
  | selfBase name => quoted name ++ " cannot derive from itself; base ignored"
  | searchCycle through target =>
    "Inheritance cycle through " ++ quoted through ++ " while looking for " ++ quoted target
  | searchTooDeep inside target =>
    "Possible recursive class relation while inside " ++ quoted inside ++ " and looking for "
      ++ quoted target
  | distanceTooDeep start target =>
    "Maximum inheritance depth reached while computing distance from " ++ quoted start ++ " to "
      ++ quoted target
  | mergeCycle base through =>
    "Inheritance cycle: " ++ quoted base ++ " is its own base through " ++ quoted through
  | mergeTooDeep start =>
    "Maximum inheritance depth reached while merging members of " ++ quoted start
  | listsItself name => quoted name ++ " lists itself as a base class"
  | unfiledInClass member owner kind =>
    "Skipping " ++ quoted member ++ " in " ++ quoted owner ++ ": " ++ kind.refusal
  | unfiledInNamespace member owner kind =>
    "Member " ++ quoted member ++ " of kind " ++ kind.title ++ " inserted in namespace scope "
      ++ quoted owner
  | instantiationTooDeep name =>
    "Nested template instantiation too deep at " ++ quoted name ++ "; bases not instantiated"
  | skippedEntity name fault => "Skipping entity " ++ quoted name ++ ": " ++ fault.message
  | skipped name fault => "Skipping " ++ quoted name ++ ": " ++ fault.message
  | skippedMember name owner fault =>
    "Skipping member " ++ quoted name ++ " of " ++ quoted owner ++ ": " ++ fault.message
  | skippedBase name owner fault =>
    "Skipping base " ++ quoted name ++ " of " ++ quoted owner ++ ": " ++ fault.message
  | unknownTrait trait owner => "Unknown trait " ++ quoted trait ++ " on " ++ quoted owner
  | formalsIgnored name fault =>
    "Template parameters of " ++ quoted name ++ " ignored: " ++ fault.message
  | namesItself name => quoted name ++ " names itself as a base"
  | baseNotFound base owner =>
    "Base class " ++ quoted base ++ " of " ++ quoted owner ++ " not found; using a placeholder"
  | categoryUnnamed name => "Category " ++ quoted name ++ " does not name its class"
  | extendedNotFound name category =>
    "Class " ++ quoted name ++ " extended by " ++ quoted category ++ " not found"
  | usedNotFound name owner =>
    "Namespace " ++ quoted name ++ " used by " ++ quoted owner ++ " not found"
  | declarationNotFound name owner =>
    quoted name ++ " named by a using-declaration in " ++ quoted owner ++ " not found"

/-- A notice with its severity, as it is logged. -/
def line (n : Notice) : String :=
  (match n.severity with
    | .warning => "WARN: "
    | .error => "ERROR: ") ++ n.message

end Notice

/-- A result with the notices given on the way to it, the earliest first. -/
structure Noted (α : Type) where
  value : α
  notices : List Notice := []
deriving Repr

namespace Noted

instance : Monad Noted where
  pure a := ⟨a, []⟩
  bind x f :=
    let y := f x.value
    ⟨y.value, x.notices ++ y.notices⟩

/-- Gives a notice. -/
def give (n : Notice) : Noted Unit :=
  ⟨(), [n]⟩

/-- Gives notices, the earliest first. -/
def giveAll (ns : List Notice) : Noted Unit :=
  ⟨(), ns⟩

@[simp] theorem value_pure {α : Type} (a : α) : (pure a : Noted α).value = a := rfl

@[simp] theorem notices_pure {α : Type} (a : α) : (pure a : Noted α).notices = [] := rfl

@[simp] theorem value_bind {α β : Type} (x : Noted α) (f : α → Noted β) :
    (x >>= f).value = (f x.value).value := rfl

@[simp] theorem notices_bind {α β : Type} (x : Noted α) (f : α → Noted β) :
    (x >>= f).notices = x.notices ++ (f x.value).notices := rfl

instance : LawfulMonad Noted :=
  LawfulMonad.mk' Noted
    (fun x => by cases x; simp [Functor.map])
    (fun a f => by simp [bind, pure])
    (fun x f g => by simp [bind, List.append_assoc])

end Noted

end SymbolAtlas
