import SymbolAtlas.Toml.Quoted
import SymbolAtlas.Toml.Scalar

/-!
# Keys and values

Arrays may span lines and hold comments; tables in braces stand on one line. Values may be nested,
and keys may have parts, up to a bound.
-/

set_option autoImplicit false

namespace SymbolAtlas.Toml

/-- How deep values may be nested, and how many parts a key may have. -/
def maxDepth : Nat := 79

/-- The text behind blanks on the same line. -/
def skipSpace (cs : List Char) : List Char :=
  cs.dropWhile isSpace

/-- The text behind blanks, line ends and comments. -/
def skipGaps (inComment : Bool) : List Char → Option (List Char)
  | [] => some []
  | c :: rest =>
    if atLineEnd (c :: rest) then skipGaps false rest
    else if inComment then
      if isTextChar c then skipGaps true rest else none
    else if isSpace c || c == '\n' then skipGaps false rest
    else if c == '#' then skipGaps true rest
    else some (c :: rest)

/-- Characters of which keys without quotes consist. -/
def isKeyChar (c : Char) : Bool :=
  c.isAlphanum || c == '_' || c == '-'

/-- Reads one part of a key. -/
def keyPart? (cs : List Char) : Option (String × List Char) :=
  match shortText? cs with
  | some (text, rest) => some (String.ofList text, rest)
  | none =>
    let run := cs.takeWhile isKeyChar
    if run.isEmpty then none else some (String.ofList run, cs.dropWhile isKeyChar)

/-- Reads a key of at most `room` parts with points between them. Its last part is given apart from
the others, and blanks around the parts are passed over. -/
def key? : Nat → List Char → Option (List String × String × List Char)
  | 0, _ => none
  | room + 1, cs => do
    let (part, cs) ← keyPart? (skipSpace cs)
    match skipSpace cs with
    | '.' :: cs =>
      let (path, last, cs) ← key? room cs
      return (part :: path, last, cs)
    | cs => return ([], part, cs)

/-- Reads a key, an equals sign and a value. -/
def binding? (value : List Char → Option (Value × List Char)) (cs : List Char) :
    Option (List String × String × Value × List Char) := do
  let (path, key, cs) ← key? maxDepth cs
  match cs with
  | '=' :: cs =>
    let (v, cs) ← value (skipSpace cs)
    return (path, key, v, skipSpace cs)
  | _ => none

/-- Reads the rest of an array. Every element takes at least one character, so the length of the
text bounds their number. -/
def items? (value : List Char → Option (Value × List Char)) :
    Nat → List Value → List Char → Option (Value × List Char)
  | 0, _, _ => none
  | bound + 1, items, cs => do
    match ← skipGaps false cs with
    | ']' :: rest => return (.array items.reverse, rest)
    | cs =>
      let (v, cs) ← value cs
      match ← skipGaps false cs with
      | ',' :: rest => items? value bound (v :: items) rest
      | ']' :: rest => return (.array (v :: items).reverse, rest)
      | _ => none

/-- Reads the rest of a table in braces that is not empty. -/
def bindings? (value : List Char → Option (Value × List Char)) :
    Nat → Fields → List Char → Option (Value × List Char)
  | 0, _, _ => none
  | bound + 1, fields, cs => do
    let (path, key, v, cs) ← binding? value cs
    let fields ← fields.insert? path key v
    match cs with
    | ',' :: rest => bindings? value bound fields rest
    | '\x7d' :: rest => return (.table .closed fields, rest)
    | _ => none

/-- Reads a text, a word or a number. -/
def simpleValue? (cs : List Char) : Option (Value × List Char) :=
  match cs with
  | '"' :: _ => (text? cs).map fun (text, rest) => (.text (String.ofList text), rest)
  | '\x27' :: _ => (text? cs).map fun (text, rest) => (.text (String.ofList text), rest)
  | _ => scalar? cs

/-- Reads a value in which arrays and tables are nested at most `room` levels deep. -/
def value? : Nat → List Char → Option (Value × List Char)
  | 0, cs => simpleValue? cs
  | room + 1, cs =>
    match cs with
    | '[' :: rest => items? (value? room) cs.length [] rest
    | '\x7b' :: rest =>
      match skipSpace rest with
      | '\x7d' :: rest => some (.table .closed [], rest)
      | _ => bindings? (value? room) cs.length [] rest
    | _ => simpleValue? cs

end SymbolAtlas.Toml
