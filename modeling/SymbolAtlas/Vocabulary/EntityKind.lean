import SymbolAtlas.Text.Blank

/-!
# Kinds of entities

The documented units that hold members: class-like and namespace-like ones.
-/

set_option autoImplicit false

namespace SymbolAtlas

/-- Kind of an entity. -/
inductive EntityKind where
  | classKind
  | structKind
  | union
  | interface
  | protocol
  | category
  | exception
  | service
  | singleton
  | namespaceKind
  | moduleKind
  | library
  | constantGroup
deriving DecidableEq, Repr, Inhabited

namespace EntityKind

/-- The word used for the kind. -/
def name : EntityKind → String
  | classKind => "class"
  | structKind => "struct"
  | union => "union"
  | interface => "interface"
  | protocol => "protocol"
  | category => "category"
  | exception => "exception"
  | service => "service"
  | singleton => "singleton"
  | namespaceKind => "namespace"
  | moduleKind => "module"
  | library => "library"
  | constantGroup => "constant-group"

/-- The kind a word stands for. -/
def ofName? (text : String) : Option EntityKind :=
  match Text.keyword text with
  | "class" => some classKind
  | "struct" => some structKind
  | "union" => some union
  | "interface" => some interface
  | "protocol" => some protocol
  | "category" => some category
  | "exception" => some exception
  | "service" => some service
  | "singleton" => some singleton
  | "namespace" => some namespaceKind
  | "module" => some moduleKind
  | "library" => some library
  | "constant-group" | "constants" | "constant_group" => some constantGroup
  | _ => none

/-- Kinds whose entities are namespaces; all others are classes. -/
def isNamespaceLike : EntityKind → Bool
  | namespaceKind | moduleKind | library | constantGroup => true
  | _ => false

end EntityKind

end SymbolAtlas
