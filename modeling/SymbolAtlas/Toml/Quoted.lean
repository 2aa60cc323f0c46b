import SymbolAtlas.Text.Digits

/-!
# Quoted texts

Basic texts stand in double quotes and know escapes; literal texts stand in single quotes and know
none. In three quotes of either kind a text may have several lines.
-/

set_option autoImplicit false

namespace SymbolAtlas.Toml

/-- The blanks inside a line. -/
def isSpace (c : Char) : Bool :=
  c == ' ' || c == '\t'

/-- Characters that may stand in texts and comments: all but control characters other than the
tab. -/
def isTextChar (c : Char) : Bool :=
  c == '\t' || (0x20 ≤ c.toNat && c.toNat != 0x7f)

/-- Whether a line ends here. -/
def atLineEnd : List Char → Bool
  | '\n' :: _ => true
  | '\r' :: '\n' :: _ => true
  | _ => false

/-- What follows the end of a line, if a line ends here. -/
def skipLineEnd : List Char → List Char
  | '\n' :: rest => rest
  | '\r' :: '\n' :: rest => rest
  | cs => cs

/-- The character that a backslash and a letter stand for. -/
def escaped? (c : Char) : Option Char :=
  match c with
  | '"' | '\\' => some c
  | 'b' => some '\x08'
  | 'f' => some '\x0c'
  | 'n' => some '\n'
  | 'r' => some '\r'
  | 't' => some '\t'
  | _ => none

/-- What is being read inside double quotes. -/
inductive QuoteState where
  | plain
  /-- Behind a backslash. -/
  | escape
  /-- Inside a code point of which `left` digits are missing. -/
  | code (left value : Nat)
  /-- Behind a backslash at the end of a line, where blanks and further line ends are dropped. -/
  | join
deriving DecidableEq, Repr

/-- A text with one more character in front. -/
def consText (c : Char) (read : Option (List Char × List Char)) : Option (List Char × List Char) :=
  read.map fun (text, rest) => (c :: text, rest)

/-- Reads the rest of a text in double quotes, and what follows it. The text may have several lines
if `isLong`; then three quotes end it, and one or two quotes before these belong to it. -/
def scanBasic (isLong : Bool) : QuoteState → List Char → Option (List Char × List Char)
  | _, [] => none
  | .code left value, c :: rest =>
    match Text.hexDigit? c with
    | none => none
    | some d =>
      if left ≤ 1 then
        match Text.charOfCode? (value * 16 + d) with
        | none => none
        | some c => consText c (scanBasic isLong .plain rest)
      else scanBasic isLong (.code (left - 1) (value * 16 + d)) rest
  | .escape, c :: rest =>
    if c == 'u' then scanBasic isLong (.code 4 0) rest
    else if c == 'U' then scanBasic isLong (.code 8 0) rest
    else
      match escaped? c with
      | some c => consText c (scanBasic isLong .plain rest)
      | none =>
        if isLong && atLineEnd ((c :: rest).dropWhile isSpace) then scanBasic isLong .join rest
        else none
  | state, c :: rest =>
    if state == .join && (isSpace c || atLineEnd (c :: rest)) then scanBasic isLong .join rest
    else if c == '\\' then scanBasic isLong .escape rest
    else if c == '"' then
      if isLong then
        match rest with
        | '"' :: '"' :: '"' :: '"' :: after => some (['"', '"'], after)
        | '"' :: '"' :: '"' :: after => some (['"'], after)
        | '"' :: '"' :: after => some ([], after)
        | _ => consText '"' (scanBasic isLong .plain rest)
      else some ([], rest)
    else if isLong && c == '\n' then consText '\n' (scanBasic isLong .plain rest)
    else if isLong && atLineEnd (c :: rest) then scanBasic isLong .plain rest
    else if isTextChar c then consText c (scanBasic isLong .plain rest)
    else none

/-- Reads the rest of a text in single quotes, and what follows it. -/
def scanLiteral (isLong : Bool) : List Char → Option (List Char × List Char)
  | [] => none
  | c :: rest =>
    if c == '\x27' then
      if isLong then
        match rest with
        | '\x27' :: '\x27' :: '\x27' :: '\x27' :: after => some (['\x27', '\x27'], after)
        | '\x27' :: '\x27' :: '\x27' :: after => some (['\x27'], after)
        | '\x27' :: '\x27' :: after => some ([], after)
        | _ => consText '\x27' (scanLiteral isLong rest)
      else some ([], rest)
    else if isLong && c == '\n' then consText '\n' (scanLiteral isLong rest)
    else if isLong && atLineEnd (c :: rest) then scanLiteral isLong rest
    else if isTextChar c then consText c (scanLiteral isLong rest)
    else none

/-- Reads a text on one line: the part of a key, or a value. -/
def shortText? : List Char → Option (List Char × List Char)
  | '"' :: rest => scanBasic false .plain rest
  | '\x27' :: rest => scanLiteral false rest
  | _ => none

/-- Reads a text. A line end right behind three quotes does not belong to it. -/
def text? : List Char → Option (List Char × List Char)
  | '"' :: '"' :: '"' :: rest => scanBasic true .plain (skipLineEnd rest)
  | '\x27' :: '\x27' :: '\x27' :: rest => scanLiteral true (skipLineEnd rest)
  | cs => shortText? cs

end SymbolAtlas.Toml
