/-!
# TOML values

A document is a tree of tables. How a table came about decides what may still be added to it: a
table written in braces is complete, a table named by a header may be named only once, and a table
that dotted keys made can only be extended by dotted keys.
-/

set_option autoImplicit false

namespace SymbolAtlas.Toml

/-- How a table came about. -/
inductive Form where
  /-- Written in braces. -/
  | closed
  /-- Named by a header of its own. -/
  | headed
  /-- Passed on the way to a table that a header names. -/
  | implied
  /-- Made by a dotted key. -/
  | dotted
deriving DecidableEq, Repr, Inhabited

/-- A value. Numbers with a fraction and points in time are kept as they are written. -/
inductive Value where
  | text (s : String)
  | integer (i : Int)
  | decimal (literal : String)
  | flag (b : Bool)
  | moment (literal : String)
  | array (items : List Value)
  | table (form : Form) (fields : List (String × Value))
  /-- The tables that were named by headers in double brackets. -/
  | series (tables : List (List (String × Value)))
deriving Repr, Inhabited

/-- The fields of a table in the order in which they were given. -/
abbrev Fields := List (String × Value)

namespace Fields

/-- The fields with a new value for a key that is present. -/
def set (fields : Fields) (key : String) (value : Value) : Fields :=
  fields.map fun (k, v) => if k = key then (k, value) else (k, v)

/-- Follows a path and changes the fields of the table at its end. Missing tables are made, with the
given form, and of a series the last table is taken. Dotted keys do not lead into a table that a
header names, and nothing leads into a value. -/
def update (form : Form) (change : Form → Fields → Option Fields) :
    List String → Form → Fields → Option Fields
  | [], end_, fields => change end_ fields
  | key :: path, _, fields =>
    match fields.lookup key with
    | none =>
      (update form change path form []).map fun inner => fields ++ [(key, .table form inner)]
    | some (.table .closed _) => none
    | some (.table here inner) =>
      if form = .dotted ∧ here = .headed then none
      else (update form change path here inner).map fun inner => set fields key (.table here inner)
    | some (.series tables) =>
      match tables.getLast? with
      | none => none
      | some last =>
        (update form change path .headed last).map fun last =>
          set fields key (.series (tables.dropLast ++ [last]))
    | some _ => none

/-- Adds the value of a dotted key, whose last part is `key`. The key must be new, and the table
that the other parts lead to must be one that dotted keys made. -/
def insert? (fields : Fields) (path : List String) (key : String) (value : Value) :
    Option Fields :=
  let add (form : Form) (inner : Fields) : Option Fields :=
    if (form = .dotted ↔ path = []) ∨ (inner.lookup key).isSome then none
    else some (inner ++ [(key, value)])
  update .dotted add path .headed fields

/-- Opens the table that a header names. It must be new, or only passed by other headers so far. -/
def openTable? (fields : Fields) (path : List String) (key : String) : Option Fields :=
  let add (_ : Form) (inner : Fields) : Option Fields :=
    match inner.lookup key with
    | none => some (inner ++ [(key, .table .headed [])])
    | some (.table .implied own) => some (set inner key (.table .headed own))
    | some _ => none
  update .implied add path .headed fields

/-- Opens one more table of the series that a header in double brackets names. -/
def openSeries? (fields : Fields) (path : List String) (key : String) : Option Fields :=
  let add (_ : Form) (inner : Fields) : Option Fields :=
    match inner.lookup key with
    | none => some (inner ++ [(key, .series [[]])])
    | some (.series tables) => some (set inner key (.series (tables ++ [[]])))
    | some _ => none
  update .implied add path .headed fields

end Fields

end SymbolAtlas.Toml
