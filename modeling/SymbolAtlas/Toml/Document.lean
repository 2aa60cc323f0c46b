import SymbolAtlas.Toml.Grammar

/-!
# Documents

A document is a sequence of lines: headers, each of which names the table that the following lines
belong to, and keys with their values. It denotes the fields of the outermost table.
-/

set_option autoImplicit false

namespace SymbolAtlas.Toml

/-- What a line says. -/
inductive Line where
  /-- A header that names a table. -/
  | header (path : List String) (key : String)
  /-- A header that names one more table of a series. -/
  | seriesHeader (path : List String) (key : String)
  /-- A key with its value. -/
  | binding (path : List String) (key : String) (value : Value)
deriving Repr

/-- What follows a line of which nothing but blanks and a comment is left. -/
def nextLine? (cs : List Char) : Option (List Char) :=
  let rest :=
    match skipSpace cs with
    | '#' :: comment => comment.dropWhile isTextChar
    | rest => rest
  if rest.isEmpty || atLineEnd rest then some (skipLineEnd rest) else none

/-- Reads what a line says, and what is left of the line. -/
def line? (cs : List Char) : Option (Line × List Char) :=
  match cs with
  | '[' :: '[' :: cs => do
    let (path, key, cs) ← key? maxDepth cs
    match cs with
    | ']' :: ']' :: rest => return (.seriesHeader path key, rest)
    | _ => none
  | '[' :: cs => do
    let (path, key, cs) ← key? maxDepth cs
    match cs with
    | ']' :: rest => return (.header path key, rest)
    | _ => none
  | cs => do
    let (path, key, value, rest) ← binding? (value? maxDepth) cs
    return (.binding path key value, rest)

/-- Reads all lines that say something. Every line takes at least one character, so the length of
the text bounds their number. -/
def lines? : Nat → List Char → Option (List Line)
  | 0, _ => none
  | bound + 1, cs =>
    match skipSpace cs with
    | [] => some []
    | c :: rest =>
      if c == '#' || atLineEnd (c :: rest) then (nextLine? (c :: rest)).bind (lines? bound)
      else do
        let (line, rest) ← line? (c :: rest)
        let rest ← nextLine? rest
        return line :: (← lines? bound rest)

/-- A document that is being read: its fields so far, and the path of the table that keys belong
to. -/
structure Reading where
  fields : Fields := []
  current : List String := []

/-- Takes one more line into account. -/
def Reading.add? (r : Reading) : Line → Option Reading
  | .header path key => do
    return ⟨← r.fields.openTable? path key, path ++ [key]⟩
  | .seriesHeader path key => do
    return ⟨← r.fields.openSeries? path key, path ++ [key]⟩
  | .binding path key value => do
    let add (_ : Form) (inner : Fields) : Option Fields := inner.insert? path key value
    return { r with fields := ← r.fields.update .implied add r.current .headed }

/-- Reads a document. A mark of the byte order may stand at its beginning. -/
def read? (text : String) : Option Fields := do
  let cs :=
    match text.toList with
    | '\ufeff' :: cs => cs
    | cs => cs
  let lines ← lines? (cs.length + 1) cs
  let reading ← lines.foldlM Reading.add? {}
  return reading.fields

end SymbolAtlas.Toml
