import SymbolAtlas.Settings.Decode
import SymbolAtlas.Text.Blank
import SymbolAtlas.Text.Lowercase
import SymbolAtlas.Toml.Document

/-!
# Settings from files and variables

Variables whose names begin with `DG_` lie over the settings of a file. In a name two underscores
lead into a section. The value of a variable is read as a truth value, a number, a text in quotes, a
list or a section, and as plain text if it is none of these.
-/

set_option autoImplicit false

namespace SymbolAtlas.Settings

/-- The blanks that are passed over in values. -/
def isValueSpace (c : Char) : Bool :=
  c == ' ' || c == '\t' || c == '\n' || c == '\r' || c == '\x0c'

/-- Characters that end a plain value. -/
def isSeparator (c : Char) : Bool :=
  c == ',' || c == '\x7b' || c == '\x7d' || c == '[' || c == ']'

/-- Characters of which the keys of a section consist. -/
def isFieldChar (c : Char) : Bool :=
  c.isAlphanum || c == '_' || c == '-'

/-- Whether a text is a number with a point. -/
def isPointed (cs : List Char) : Bool :=
  let (_, cs) := Toml.cutSign cs
  let isExponentMark (c : Char) : Bool := c == 'e' || c == 'E'
  let (mantissa, exponent) := Toml.cutAt isExponentMark cs
  let (whole, fraction) := Toml.cutAt (· == '.') mantissa
  let exponentDigits := exponent.map fun e => (Toml.cutSign e).2
  match fraction with
  | none => false
  | some fraction =>
    let digits := whole ++ fraction
    !digits.isEmpty && digits.all Char.isDigit
      && exponentDigits.all fun digits => !digits.isEmpty && digits.all Char.isDigit

/-- A plain value: a number if it is one that fits into 64 bits, else a text. -/
def plainValue (cs : List Char) : Tree :=
  let text := String.ofList cs
  if isPointed cs then .decimal
  else
    match OptionSource.readCount? text with
    | some n => .integer n
    | none =>
      match cs with
      | '-' :: digits =>
        let n := Text.digitsValue digits
        let fits := n ≤ 0x8000000000000000
        if !digits.isEmpty && digits.all Char.isDigit && fits then .integer (-(n : Int))
        else .text text
      | _ => .text text

/-- Reads the elements of a list or a section up to the closing mark. Every element takes at least
one character or is followed by a separator, so the length of the text bounds their number. -/
def elements? {α : Type} (element : List Char → Option (α × List Char)) (close : Char) :
    Nat → List Char → Option (List α × List Char)
  | 0, _ => none
  | bound + 1, cs =>
    if cs.head? == some close then some ([], cs.tail)
    else do
      let (item, cs) ← element cs
      match cs with
      | [] => none
      | c :: rest =>
        if c == ',' then
          let (items, rest) ← elements? element close bound rest
          return (item :: items, rest)
        else if c == close then return ([item], rest)
        else none

/-- Reads the key and the value of a field. -/
def field? (value : List Char → Option (Tree × List Char)) (cs : List Char) :
    Option ((String × Tree) × List Char) := do
  let cs := cs.dropWhile isValueSpace
  let (key, cs) ←
    match cs with
    | '"' :: rest => Toml.scanBasic false .plain rest
    | cs =>
      let run := cs.takeWhile isFieldChar
      if run.isEmpty then none else some (run, cs.dropWhile isFieldChar)
  match cs.dropWhile isValueSpace with
  | '=' :: cs =>
    let (v, cs) ← value (cs.dropWhile isValueSpace)
    return ((String.ofList key, v), cs.dropWhile isValueSpace)
  | _ => none

/-- Reads a value in which lists and sections are nested at most `room` levels deep. -/
def value? : Nat → List Char → Option (Tree × List Char)
  | 0, _ => none
  | room + 1, cs => do
    let cs := cs.dropWhile isValueSpace
    let (v, rest) ←
      match cs with
      | 't' :: 'r' :: 'u' :: 'e' :: rest => some (.flag true, rest)
      | 'f' :: 'a' :: 'l' :: 's' :: 'e' :: rest => some (.flag false, rest)
      | '\x7b' :: rest => do
        let (fields, rest) ← elements? (field? (value? room)) '\x7d' cs.length rest
        return (.group (fields.foldl (fun g (key, v) => Tree.put key v g) []), rest)
      | '[' :: rest => do
        let (items, rest) ← elements? (value? room) ']' cs.length rest
        return (.list items, rest)
      | '"' :: rest => do
        let (text, rest) ← Toml.scanBasic false .plain rest
        return (.text (String.ofList text), rest)
      | '\x27' :: rest =>
        match rest with
        | c :: '\x27' :: rest => some (.text (String.ofList [c]), rest)
        | _ => none
      | cs =>
        let run := cs.takeWhile fun c => !isSeparator c
        some (plainValue (Text.trim run), cs.dropWhile fun c => !isSeparator c)
    return (v, rest.dropWhile isValueSpace)

/-- What the value of a variable says. -/
def ofVariable (text : String) : Tree :=
  match value? (text.toList.length + 1) text.toList with
  | some (t, []) => t
  | _ => .text text

/-- The path of sections that the name of a variable leads through, if it is one of ours. -/
def pathOfVariable? (name : String) : Option (List String) := do
  let start := (Text.trim name.toList).take 3
  if Text.asciiLower (String.ofList start) != "dg_" then none
  let rest := String.ofList ((Text.trim name.toList).drop 3)
  let dotted := Text.replaceAll ['_', '_'] ['.'] (Text.lowercase rest).toList
  let path := (Text.splitAtChar '.' (Text.trim dotted)).map String.ofList
  if path.contains "" then none else some path

/-- What variables say. Later ones lie over earlier ones. -/
def ofVariables (environment : List (String × String)) : Tree :=
  environment.foldl
    (fun t (name, text) =>
      match pathOfVariable? name with
      | none => t
      | some path => t.atop (Tree.nested (ofVariable text) path))
    (.group [])

/-- The variables in a block of text, in which each stands as a name, an equals sign and a value,
and is followed by a null character. -/
def variablesOfBlock (block : String) : List (String × String) :=
  (Text.splitAtChar '\x00' block.toList).filterMap fun entry =>
    match entry.dropWhile fun c => c != '=' with
    | [] => none
    | _ :: value => some (String.ofList (entry.takeWhile fun c => c != '='), String.ofList value)

/-- The settings that a file, if there is one, and variables give. -/
def load? (file : Option String) (environment : List (String × String)) :
    Option Settings := do
  let fields ←
    match file with
    | none => some []
    | some text => Toml.read? text
  match (Tree.group (Tree.ofFields fields)).atop (ofVariables environment) with
  | .group g => ofGroup? g
  | _ => none

end SymbolAtlas.Settings
