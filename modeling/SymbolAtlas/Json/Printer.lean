import SymbolAtlas.Json.Token

/-!
# Writing JSON

The compact form has no blanks. The open form puts each element and each field on a line of its own,
indented by two blanks for every level.
-/

set_option autoImplicit false

namespace SymbolAtlas.Json

/-- A hexadecimal digit in lower case. -/
def hexChar (n : Nat) : Char :=
  Nat.digitChar (n % 16)

/-- A character inside quotes. Only the quote, the backslash and control characters are escaped. -/
def quoteChar (c : Char) : List Char :=
  match c with
  | '"' => ['\\', '"']
  | '\\' => ['\\', '\\']
  | '\x08' => ['\\', 'b']
  | '\x0c' => ['\\', 'f']
  | '\n' => ['\\', 'n']
  | '\r' => ['\\', 'r']
  | '\t' => ['\\', 't']
  | c =>
    if c.toNat < 0x20 then ['\\', 'u', '0', '0', hexChar (c.toNat / 16), hexChar c.toNat] else [c]

/-- A text in quotes. -/
def quote (s : String) : List Char :=
  '"' :: s.toList.flatMap quoteChar ++ ['"']

/-- A literal in quotes; one that denotes no text is written as a lone surrogate. -/
def quoteLiteral : Option String → List Char
  | some s => quote s
  | none => "\"\\ud800\"".toList

/-- The decimal digits of a number. -/
def decimal (n : Nat) : List Char :=
  Nat.toDigits 10 n

/-- The exponent of a number as written. -/
def exponentText : Option Int → List Char
  | some (.ofNat e) => 'e' :: decimal e
  | some (.negSucc e) => 'e' :: '-' :: decimal (e + 1)
  | none => []

/-- The fraction of a number as written. -/
def fractionText : Option (List Char) → List Char
  | some digits => '.' :: digits
  | none => []

/-- A number as written. -/
def renderNumeral (n : Numeral) : List Char :=
  (if n.isNegative then ['-'] else [])
    ++ (decimal n.whole ++ (fractionText n.fraction ++ exponentText n.exponent))

/-- A token as written. -/
def Token.render : Token → List Char
  | .openArray => ['[']
  | .closeArray => [']']
  | .openObject => ['\x7b']
  | .closeObject => ['\x7d']
  | .comma => [',']
  | .colon => [':']
  | .null => "null".toList
  | .bool true => "true".toList
  | .bool false => "false".toList
  | .number n => renderNumeral n
  | .text literal => quoteLiteral literal

mutual

/-- The tokens of a value. -/
def toTokens : Json → List Token
  | .null => [.null]
  | .bool b => [.bool b]
  | .number n => [.number n]
  | .text literal => [.text literal]
  | .array items => .openArray :: itemTokens items ++ [.closeArray]
  | .object fields => .openObject :: fieldTokens fields ++ [.closeObject]

/-- The tokens of the elements of an array. -/
def itemTokens : List Json → List Token
  | [] => []
  | [v] => toTokens v
  | v :: rest => toTokens v ++ .comma :: itemTokens rest

/-- The tokens of the fields of an object. -/
def fieldTokens : List (Option String × Json) → List Token
  | [] => []
  | [(key, v)] => .text key :: .colon :: toTokens v
  | (key, v) :: rest => .text key :: .colon :: toTokens v ++ .comma :: fieldTokens rest

end

/-- The compact form of a value. -/
def render (v : Json) : String :=
  String.ofList ((toTokens v).flatMap Token.render)

/-- The beginning of a line at a level. -/
def newLine (level : Nat) : List Char :=
  '\n' :: List.replicate (2 * level) ' '

mutual

/-- The open form of a value at a level. -/
def openForm (level : Nat) : Json → List Char
  | .array [] => ['[', ']']
  | .array (v :: rest) =>
    '[' :: newLine (level + 1) ++ openForm (level + 1) v ++ openItems (level + 1) rest
      ++ newLine level ++ [']']
  | .object [] => ['\x7b', '\x7d']
  | .object ((key, v) :: rest) =>
    '\x7b' :: newLine (level + 1) ++ quoteLiteral key ++ [':', ' '] ++ openForm (level + 1) v
      ++ openFields (level + 1) rest ++ newLine level ++ ['\x7d']
  | .null => Token.render .null
  | .bool b => Token.render (.bool b)
  | .number n => renderNumeral n
  | .text literal => quoteLiteral literal

/-- The elements of an array after the first one. -/
def openItems (level : Nat) : List Json → List Char
  | [] => []
  | v :: rest => ',' :: newLine level ++ openForm level v ++ openItems level rest

/-- The fields of an object after the first one. -/
def openFields (level : Nat) : List (Option String × Json) → List Char
  | [] => []
  | (key, v) :: rest =>
    ',' :: newLine level ++ quoteLiteral key ++ [':', ' '] ++ openForm level v
      ++ openFields level rest

end

/-- The open form of a value. -/
def renderOpen (v : Json) : String :=
  String.ofList (openForm 0 v)

end SymbolAtlas.Json
