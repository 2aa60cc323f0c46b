/-!
# Blanks

The white-space characters of the Unicode standard, and the operations on text that only look at
them: trimming and cutting into words.
-/

set_option autoImplicit false

namespace SymbolAtlas.Text

/-- The characters with the property `White_Space`. -/
def isBlank (c : Char) : Bool :=
  let n := c.toNat
  (9 ≤ n && n ≤ 13) || n == 0x20 || n == 0x85 || n == 0xA0 || n == 0x1680
    || (0x2000 ≤ n && n ≤ 0x200A) || n == 0x2028 || n == 0x2029 || n == 0x202F || n == 0x205F
    || n == 0x3000

/-- The text without its leading blanks. -/
def trimStart (cs : List Char) : List Char :=
  cs.dropWhile isBlank

/-- The text without its trailing blanks. -/
def trimEnd (cs : List Char) : List Char :=
  (cs.reverse.dropWhile isBlank).reverse

/-- The text without blanks at either end. -/
def trim (cs : List Char) : List Char :=
  trimEnd (trimStart cs)

/-- `trim` on strings. -/
def trimmed (s : String) : String :=
  String.ofList (trim s.toList)

/-- The maximal runs of characters that satisfy `p`, in order. -/
def runs (p : Char → Bool) : List Char → List (List Char)
  | [] => []
  | c :: rest =>
    if p c then
      match rest, runs p rest with
      | d :: _, first :: others => if p d then (c :: first) :: others else [c] :: first :: others
      | _, others => [c] :: others
    else runs p rest

/-- The words of a text: its maximal runs of characters that are not blank. -/
def words (cs : List Char) : List (List Char) :=
  runs (fun c => !isBlank c) cs

/-- The text with ASCII capitals lowered and every other character kept. -/
def asciiLower (s : String) : String :=
  String.ofList (s.toList.map Char.toLower)

/-- The spelling under which keywords are looked up: trimmed and in lower case. -/
def keyword (s : String) : String :=
  asciiLower (trimmed s)

end SymbolAtlas.Text
