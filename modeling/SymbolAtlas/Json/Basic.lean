/-!
# JSON values

Values as they are written: fields keep their order and may repeat, and numbers keep their decimal
form. A text literal whose escapes name unpaired surrogates denotes no text; it is kept as a value
of its own, so that a reader can pass over it.
-/

set_option autoImplicit false

namespace SymbolAtlas

/-- A decimal number as written. -/
structure Numeral where
  isNegative : Bool := false
  /-- The digits before the point. They have no leading zero, so their value tells them. -/
  whole : Nat
  /-- The digits after the point, if there is one. -/
  fraction : Option (List Char) := none
  exponent : Option Int := none
deriving DecidableEq, Repr, Inhabited

/-- A JSON value. -/
inductive Json where
  | null
  | bool (b : Bool)
  | number (n : Numeral)
  | text (literal : Option String)
  | array (items : List Json)
  | object (fields : List (Option String × Json))
deriving Repr, Inhabited

namespace Json

/-- A text value. -/
def str (s : String) : Json :=
  text (some s)

/-- A natural number. -/
def nat (n : Nat) : Json :=
  number { whole := n }

/-- An object with the given fields. -/
def record (fields : List (String × Json)) : Json :=
  object (fields.map fun (key, value) => (some key, value))

/-- A value that may be absent. -/
def option {α : Type} (encode : α → Json) : Option α → Json
  | none => null
  | some a => encode a

/-- An array of encoded elements. -/
def list {α : Type} (encode : α → Json) (items : List α) : Json :=
  array (items.map encode)

/-- The values of all fields with a name, in order. -/
def fieldsNamed (name : String) (fields : List (Option String × Json)) : List Json :=
  (fields.filter fun (key, _) => key == some name).map (·.2)

/-- The value of the last field with a name, if the value is an object that has one. -/
def field? (name : String) : Json → Option Json
  | object fields => (fieldsNamed name fields).getLast?
  | _ => none

mutual

/-- How many levels of arrays and objects a value has. -/
def depth : Json → Nat
  | array items => depthOfItems items + 1
  | object fields => depthOfFields fields + 1
  | _ => 0

/-- The greatest depth among the elements of an array. -/
def depthOfItems : List Json → Nat
  | [] => 0
  | v :: rest => max v.depth (depthOfItems rest)

/-- The greatest depth among the fields of an object. -/
def depthOfFields : List (Option String × Json) → Nat
  | [] => 0
  | (_, v) :: rest => max v.depth (depthOfFields rest)

end

mutual

/-- Whether every text in a value, keys included, and every number in it satisfies a condition. -/
def allLiterals (okText : Option String → Bool) (okNumber : Numeral → Bool) : Json → Bool
  | text literal => okText literal
  | number n => okNumber n
  | array items => allLiteralsOfItems okText okNumber items
  | object fields => allLiteralsOfFields okText okNumber fields
  | _ => true

/-- The same condition for the elements of an array. -/
def allLiteralsOfItems (okText : Option String → Bool) (okNumber : Numeral → Bool) :
    List Json → Bool
  | [] => true
  | v :: rest => v.allLiterals okText okNumber && allLiteralsOfItems okText okNumber rest

/-- The same condition for the fields of an object. -/
def allLiteralsOfFields (okText : Option String → Bool) (okNumber : Numeral → Bool) :
    List (Option String × Json) → Bool
  | [] => true
  | (key, v) :: rest =>
    okText key && v.allLiterals okText okNumber && allLiteralsOfFields okText okNumber rest

end

end Json

end SymbolAtlas
