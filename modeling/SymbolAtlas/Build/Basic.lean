import SymbolAtlas.Atlas.Inheritance
import SymbolAtlas.Declaration.Basic
import SymbolAtlas.Fault

/-!
# Building an atlas

What is known while an atlas is built from declarations, and the words of declarations with the
notices that unknown ones give rise to.
-/

set_option autoImplicit false

namespace SymbolAtlas.Build

/-- What building an atlas amounted to. -/
structure Summary where
  entities : Nat := 0
  artificialScopes : Nat := 0
  members : Nat := 0
  skippedMembers : Nat := 0
  skippedEntities : Nat := 0
  baseEdges : Nat := 0
  unresolvedBases : Nat := 0
  templateInstances : Nat := 0
  categoriesMerged : Nat := 0
  unresolvedUsings : Nat := 0
  merge : Atlas.MergeCount := {}
deriving DecidableEq, Repr, Inhabited

/-- An atlas that is being built. -/
structure Progress where
  atlas : Atlas
  summary : Summary := {}
deriving DecidableEq, Inhabited

/-- A declaration with the entity that was registered for it. -/
abbrev Declared := EntityId × EntityDecl

/-- The meaning of a word that may be missing. A word that is not understood gives a notice. -/
def decodeOr {α : Type} (decode : String → Except Fault α) (missing : α) (onFault : Fault → Notice)
    (word : Option String) : Noted (Option α) :=
  match word.map decode with
  | none => pure (some missing)
  | some (.ok value) => pure (some value)
  | some (.error fault) => do
    .give (onFault fault)
    return none

/-- The protection of what is called `name`. -/
def protectionOf (name : String) (word : Option String) : Noted (Option Protection) :=
  decodeOr Protection.decode .pub (.skipped name) word

end SymbolAtlas.Build
