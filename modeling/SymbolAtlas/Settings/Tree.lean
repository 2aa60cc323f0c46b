import SymbolAtlas.Toml.Basic

/-!
# Trees of settings

What a source of settings says, before it is read as settings. Sources are laid over each other:
sections are merged field by field, and anything else replaces what was there.
-/

set_option autoImplicit false

namespace SymbolAtlas.Settings

/-- What a source says. -/
inductive Tree where
  | flag (b : Bool)
  | integer (i : Int)
  | text (s : String)
  /-- A number that no setting takes. -/
  | decimal
  | list (items : List Tree)
  | group (fields : List (String × Tree))
deriving Repr, Inhabited

namespace Tree

mutual

/-- What a value in a file says. A point in time has no fields that are settings. -/
def ofToml : Toml.Value → Tree
  | .text s => .text s
  | .integer i => .integer i
  | .decimal _ => .decimal
  | .flag b => .flag b
  | .moment _ => .group []
  | .array items => .list (ofItems items)
  | .table _ fields => .group (ofFields fields)
  | .series tables => .list (ofTables tables)

/-- What the elements of an array say. -/
def ofItems : List Toml.Value → List Tree
  | [] => []
  | v :: rest => ofToml v :: ofItems rest

/-- What the fields of a table say. -/
def ofFields : List (String × Toml.Value) → List (String × Tree)
  | [] => []
  | (key, v) :: rest => (key, ofToml v) :: ofFields rest

/-- What the tables of a series say. -/
def ofTables : List (List (String × Toml.Value)) → List Tree
  | [] => []
  | fields :: rest => .group (ofFields fields) :: ofTables rest

end

/-- The fields with a value for a key. -/
def put (key : String) (value : Tree) : List (String × Tree) → List (String × Tree)
  | [] => [(key, value)]
  | (k, v) :: rest => if k = key then (k, value) :: rest else (k, v) :: put key value rest

mutual

/-- One tree laid over another one. -/
def atop (below : Tree) : Tree → Tree
  | .group fields =>
    match below with
    | .group old => .group (fieldsAtop old fields)
    | _ => .group fields
  | t => t

/-- The fields of one section laid over those of another one. -/
def fieldsAtop (below : List (String × Tree)) : List (String × Tree) → List (String × Tree)
  | [] => below
  | (key, v) :: rest =>
    let value :=
      match below.lookup key with
      | some old => atop old v
      | none => v
    fieldsAtop (put key value below) rest

end

/-- A value at the end of a path of sections. -/
def nested (value : Tree) : List String → Tree
  | [] => value
  | key :: path => .group [(key, nested value path)]

end Tree

end SymbolAtlas.Settings
