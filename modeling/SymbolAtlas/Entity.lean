import SymbolAtlas.Member
import SymbolAtlas.QualifiedName
import SymbolAtlas.Vocabulary.EntityKind
import SymbolAtlas.Vocabulary.Section

/-!
# Entities

The documented units of a project. Every entity is a class or a namespace in a wide sense, which
decides what belongs to it besides its members. The members are filed under sections, which stand in
the order of their first use.
-/

set_option autoImplicit false

namespace SymbolAtlas

/-! ## Section tables -/

/-- The sections of an entity with the members filed under them. -/
structure SectionTable where
  sections : List (Section × List MemberId) := []
deriving DecidableEq, Repr, Inhabited

namespace SectionTable

/-- The members filed under a section; none if the section was never used. -/
def get (t : SectionTable) (s : Section) : List MemberId :=
  (t.sections.lookup s).getD []

/-- Whether a member is filed under a section. -/
def contains (t : SectionTable) (s : Section) (m : MemberId) : Bool :=
  (t.get s).contains m

/-- Files a member under a section among the given ones. -/
def fileIn (s : Section) (m : MemberId) :
    List (Section × List MemberId) → List (Section × List MemberId)
  | [] => [(s, [m])]
  | (s', members) :: rest =>
    if s' = s then (s', if members.contains m then members else members ++ [m]) :: rest
    else (s', members) :: fileIn s m rest

/-- Files a member under a section, unless it is there already. -/
def file (t : SectionTable) (s : Section) (m : MemberId) : SectionTable :=
  ⟨fileIn s m t.sections⟩

/-- Whether no member is filed anywhere. -/
def isEmpty (t : SectionTable) : Bool :=
  t.sections.all fun (_, members) => members.isEmpty

end SectionTable

/-! ## Classes and namespaces -/

/-- Boolean properties of an entity. -/
structure EntityFlags where
  isHidden : Bool := false
  /-- Made up, not declared. -/
  isArtificial : Bool := false
  isDocumented : Bool := false
  isStatic : Bool := false
  /-- Declared in an implementation file. -/
  isLocal : Bool := false
  /-- Made up because something refers to it. -/
  isUsedOnly : Bool := false
  isAnonymous : Bool := false
deriving DecidableEq, Repr, Inhabited

/-- A trait that a declaration can give to a class. -/
inductive ClassTrait where
  | final
  | sealed
  | abstract
  | published
  /-- An extension, which is a category without a name. -/
  | extension
  | forward
  | javaEnum
  | implementation
deriving DecidableEq, Repr, Inhabited

namespace ClassTrait

/-- The trait that a word stands for. -/
def ofName? (text : String) : Option ClassTrait :=
  match Text.keyword text with
  | "final" => some final
  | "sealed" => some sealed
  | "abstract" => some abstract
  | "published" => some published
  | "extension" => some extension
  | "forward-declared" | "forward" => some forward
  | "java-enum" | "enum" => some javaEnum
  | "local" => some implementation
  | _ => none

end ClassTrait

/-- The traits of a class. -/
structure Traits where
  isFinal : Bool := false
  isSealed : Bool := false
  isAbstract : Bool := false
  isPublished : Bool := false
  isExtension : Bool := false
  isForward : Bool := false
  isJavaEnum : Bool := false
  isLocal : Bool := false
deriving DecidableEq, Repr, Inhabited

namespace Traits

/-- The traits with one more. -/
def add (t : Traits) : ClassTrait → Traits
  | .final => { t with isFinal := true }
  | .sealed => { t with isSealed := true }
  | .abstract => { t with isAbstract := true }
  | .published => { t with isPublished := true }
  | .extension => { t with isExtension := true }
  | .forward => { t with isForward := true }
  | .javaEnum => { t with isJavaEnum := true }
  | .implementation => { t with isLocal := true }

/-- The traits with more of them. -/
def addAll (t : Traits) (more : List ClassTrait) : Traits :=
  more.foldl add t

end Traits

/-- One end of an inheritance relation. In a list of bases `target` is the base, in a list of
derived classes it is the derived class. -/
structure BaseEdge where
  target : EntityId
  /-- The name as written, where it is not that of the class. -/
  usedName : Option String := none
  protection : Protection := .pub
  virtualness : Virtualness := .normal
  /-- The template arguments as written. -/
  templateSpec : String := ""
deriving DecidableEq, Repr, Inhabited

/-- What a using-declaration refers to. -/
inductive UsingTarget where
  | entity (id : EntityId)
  | member (id : MemberId)
deriving DecidableEq, Repr

/-- What belongs to a class. -/
structure ClassBody where
  traits : Traits := {}
  /-- Base edges in the order of declaration. -/
  bases : List BaseEdge := []
  /-- Derived edges in the order of the names of the derived classes. -/
  derived : List BaseEdge := []
  formals : List Argument := []
  /-- The template that the class is an instance of. -/
  templateMaster : Option EntityId := none
  /-- The instances of the class by their template arguments. -/
  instances : Dict EntityId := .empty
  /-- The instances made for variables, by their template arguments. -/
  variableInstances : Dict EntityId := .empty
  roster : Roster := .empty
  /-- Whether the members of the bases have been taken over. -/
  isMerged : Bool := false
  /-- Plain data without inheritance. -/
  isSimple : Bool := false
  hasSubGrouping : Bool := false
  arrowOperator : Option MemberId := none
  /-- The class that a category extends. -/
  categoryOf : Option EntityId := none
deriving DecidableEq, Inhabited

/-- Whether the class has template parameters. -/
def ClassBody.isTemplate (c : ClassBody) : Bool :=
  !c.formals.isEmpty

/-- What belongs to a namespace. -/
structure NamespaceBody where
  isInline : Bool := false
  /-- Used namespaces by their qualified names. -/
  usingDirectives : Dict EntityId := .empty
  /-- Used declarations by their qualified names. -/
  usingDeclarations : Dict UsingTarget := .empty
  /-- Members by their names. -/
  members : Dict (List MemberId) := .empty
  /-- Whether the namespaces used by used ones have been taken over. -/
  isClosed : Bool := false
deriving DecidableEq, Inhabited

/-- What belongs to an entity besides what all entities have. -/
inductive Body where
  | ofClass (c : ClassBody)
  | ofNamespace (n : NamespaceBody)
deriving DecidableEq, Inhabited

/-- A documented unit. -/
structure Entity where
  id : EntityId
  /-- The qualified name. -/
  name : String
  kind : EntityKind
  location : Location
  language : Language
  protection : Protection := .pub
  flags : EntityFlags := {}
  outer : Option EntityId := none
  innerClasses : List EntityId := []
  innerNamespaces : List EntityId := []
  /-- The tag file of another project that the entity was taken from. -/
  reference : Option String := none
  sections : SectionTable := {}
  body : Body
deriving DecidableEq, Inhabited

namespace Entity

/-- A newly declared entity. -/
def declare (id : EntityId) (name : String) (kind : EntityKind) (location : Location)
    (isSimple hasSubGrouping : Bool) : Entity :=
  { id, name, kind, location
    language := Language.ofFile location.file
    flags := {
      isAnonymous := QualifiedName.isAnonymous name
      isLocal := Language.isImplementationFile location.file && !kind.isNamespaceLike }
    body :=
      if kind.isNamespaceLike then .ofNamespace {} else .ofClass { isSimple, hasSubGrouping } }

/-- What belongs to the entity as a class. -/
def class? (e : Entity) : Option ClassBody :=
  match e.body with
  | .ofClass c => some c
  | .ofNamespace _ => none

/-- What belongs to the entity as a namespace. -/
def namespace? (e : Entity) : Option NamespaceBody :=
  match e.body with
  | .ofClass _ => none
  | .ofNamespace n => some n

/-- Whether the entity is a class. -/
def isClass (e : Entity) : Bool :=
  e.class?.isSome

/-- Whether the entity is a namespace. -/
def isNamespace (e : Entity) : Bool :=
  e.namespace?.isSome

/-- Changes what belongs to a class; a namespace stays as it is. -/
def modifyClass (e : Entity) (f : ClassBody → ClassBody) : Entity :=
  match e.body with
  | .ofClass c => { e with body := .ofClass (f c) }
  | .ofNamespace _ => e

/-- Changes what belongs to a namespace; a class stays as it is. -/
def modifyNamespace (e : Entity) (f : NamespaceBody → NamespaceBody) : Entity :=
  match e.body with
  | .ofClass _ => e
  | .ofNamespace n => { e with body := .ofNamespace (f n) }

/-- The last part of the name. -/
def localName (e : Entity) : String :=
  QualifiedName.localName e.name

/-- Declared in an implementation file, or marked as local. -/
def isLocal (e : Entity) : Bool :=
  e.flags.isLocal || e.class?.any fun c => c.traits.isLocal

/-- Whether the entity was taken from the tag file of another project. -/
def isReference (e : Entity) : Bool :=
  e.reference.isSome

/-- The template that the entity is an instance of. -/
def templateMaster (e : Entity) : Option EntityId :=
  e.class?.bind (·.templateMaster)

/-- Whether the entity is an instance of a template. -/
def isTemplateInstance (e : Entity) : Bool :=
  e.templateMaster.isSome

/-- What separates the scopes in the names of the entity. -/
def separator (e : Entity) : String :=
  e.language.separator e.isClass

end Entity

end SymbolAtlas
