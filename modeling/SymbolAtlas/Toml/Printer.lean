import SymbolAtlas.Text.Search

/-!
# Writing texts

A text is written in the plainest quotes that hold it: double quotes if nothing needs an escape,
else single quotes, else three quotes of either kind, and escapes only where no quotes will do.
-/

set_option autoImplicit false

namespace SymbolAtlas.Toml

/-- The length of the longest run of a character. -/
def longestRun (mark : Char) (cs : List Char) : Nat :=
  (cs.foldl
    (fun (longest, current) c =>
      if c == mark then (max longest (current + 1), current + 1) else (longest, 0))
    (0, 0)).1

/-- Control characters that can only be written as escapes. -/
def needsCode (c : Char) : Bool :=
  (c.toNat < 0x20 && c != '\t' && c != '\n') || c.toNat == 0x7f

/-- A code point in four hexadecimal digits. -/
def codeEscape (c : Char) : List Char :=
  let digits := (Nat.toDigits 16 c.toNat).map Char.toUpper
  '\\' :: 'u' :: List.replicate (4 - digits.length) '0' ++ digits

/-- A character inside double quotes. -/
def basicChar (c : Char) : List Char :=
  match c with
  | '\x08' => ['\\', 'b']
  | '\t' => ['\\', 't']
  | '\n' => ['\\', 'n']
  | '\x0c' => ['\\', 'f']
  | '\r' => ['\\', 'r']
  | '"' => ['\\', '"']
  | '\\' => ['\\', '\\']
  | c => if needsCode c then codeEscape c else [c]

/-- The characters of a text inside three double quotes, of which at most two may follow each other
without an escape; `run` counts those that did. -/
def longChars : Nat → List Char → List Char
  | _, [] => []
  | run, c :: rest =>
    if c == '"' then
      if run < 2 then '"' :: longChars (run + 1) rest else '\\' :: '"' :: longChars 0 rest
    else (if c == '\n' then [c] else basicChar c) ++ longChars 0 rest

/-- A text in quotes. In three quotes, a text of several lines begins on a new line. -/
def quote (s : String) : String :=
  let cs := s.toList
  let hasCode := cs.any needsCode
  let hasBackslash := cs.contains '\\'
  let hasLines := cs.contains '\n'
  let doubles := longestRun '"' cs
  let singles := longestRun '\x27' cs
  let start := if hasLines then "\n" else ""
  let short := "\"" ++ String.ofList (cs.flatMap basicChar) ++ "\""
  let long := "\"\"\"" ++ start ++ String.ofList (longChars 0 cs) ++ "\"\"\""
  if !hasCode && !hasBackslash && doubles == 0 && !hasLines then short
  else if !hasCode && singles == 0 && !hasLines then "\x27" ++ s ++ "\x27"
  else if !hasCode && !hasBackslash && doubles ≤ 2 then long
  else if !hasCode && singles ≤ 2 then "\x27\x27\x27" ++ start ++ s ++ "\x27\x27\x27"
  else if hasLines then long
  else short

end SymbolAtlas.Toml
