import SymbolAtlas.Text.Blank

/-!
# Kinds of members
-/

set_option autoImplicit false

namespace SymbolAtlas

/-- Kind of a member declaration. -/
inductive MemberKind where
  | define
  | function
  | variableKind
  | typedef
  | enumeration
  | enumValue
  | interface
  | service
  | signal
  | slot
  | dcop
  | property
  | event
deriving DecidableEq, Repr, Inhabited

namespace MemberKind

/-- The word used for the kind. -/
def name : MemberKind → String
  | define => "define"
  | function => "function"
  | variableKind => "variable"
  | typedef => "typedef"
  | enumeration => "enumeration"
  | enumValue => "enumvalue"
  | interface => "interface"
  | service => "service"
  | signal => "signal"
  | slot => "slot"
  | dcop => "dcop"
  | property => "property"
  | event => "event"

/-- The word used for the kind in messages. -/
def title : MemberKind → String
  | define => "Define"
  | function => "Function"
  | variableKind => "Variable"
  | typedef => "Typedef"
  | enumeration => "Enumeration"
  | enumValue => "EnumValue"
  | interface => "Interface"
  | service => "Service"
  | signal => "Signal"
  | slot => "Slot"
  | dcop => "Dcop"
  | property => "Property"
  | event => "Event"

/-- The kind a word stands for. -/
def ofName? (text : String) : Option MemberKind :=
  match Text.keyword text with
  | "define" | "macro" => some define
  | "function" | "method" => some function
  | "variable" | "field" | "attribute" => some variableKind
  | "typedef" | "alias" => some typedef
  | "enumeration" | "enum" => some enumeration
  | "enumvalue" | "enum-value" | "enum_value" => some enumValue
  | "interface" => some interface
  | "service" => some service
  | "signal" => some signal
  | "slot" => some slot
  | "dcop" => some dcop
  | "property" => some property
  | "event" => some event
  | _ => none

/-- Kinds that are called. -/
def isFunctionLike : MemberKind → Bool
  | function | signal | slot | dcop => true
  | _ => false

end MemberKind

end SymbolAtlas
