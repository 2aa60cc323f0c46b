import SymbolAtlas.Text.Blank

/-!
# File names

A spelling of entity names that every file system accepts. The underscore introduces a code for each
character that is not safe, and is itself doubled.
-/

set_option autoImplicit false

namespace SymbolAtlas.Text

/-- The codes of the ASCII characters that are not written as they are. -/
def fileNameCode? (c : Char) : Option String :=
  match c with
  | '_' => some "__"
  | ':' => some "_1"
  | '/' => some "_2"
  | '<' => some "_3"
  | '>' => some "_4"
  | '*' => some "_5"
  | '&' => some "_6"
  | '|' => some "_7"
  | '.' => some "_8"
  | '!' => some "_9"
  | ',' => some "_00"
  | ' ' => some "_01"
  | '\x7b' => some "_02"
  | '\x7d' => some "_03"
  | '?' => some "_04"
  | '^' => some "_05"
  | '%' => some "_06"
  | '(' => some "_07"
  | ')' => some "_08"
  | '+' => some "_09"
  | '=' => some "_0a"
  | '$' => some "_0b"
  | '\\' => some "_0c"
  | '@' => some "_0d"
  | ']' => some "_0e"
  | '[' => some "_0f"
  | '#' => some "_0g"
  | _ => none

/-- The rest of a name as part of a file name. `marked` says whether a capital has been written
before: only the first one gets a mark. -/
def fileNameFrom (caseSensitive : Bool) (marked : Bool) : List Char → List Char
  | [] => []
  | c :: rest =>
    match fileNameCode? c with
    | some code => code.toList ++ fileNameFrom caseSensitive marked rest
    | none =>
      if 128 ≤ c.toNat then
        '_' :: 'x' :: Nat.toDigits 16 c.toNat ++ fileNameFrom caseSensitive marked rest
      else if c.isUpper && !caseSensitive then
        (if marked then [] else ['_']) ++ c.toLower :: fileNameFrom caseSensitive true rest
      else c :: fileNameFrom caseSensitive marked rest

/-- The file-system safe spelling of a name. Where file names are not case sensitive, capitals are
lowered and the first of them is marked. -/
def fileName (name : String) (caseSensitive : Bool) : String :=
  String.ofList (fileNameFrom caseSensitive false name.toList)

end SymbolAtlas.Text
