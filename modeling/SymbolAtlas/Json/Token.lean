import SymbolAtlas.Json.Basic
import SymbolAtlas.Text.Digits

/-!
# JSON tokens

The lexical level of JSON: brackets, punctuation, words, numbers and quoted texts, with blanks
between them.
-/

set_option autoImplicit false

namespace SymbolAtlas.Json

open Text (hexDigit? digitsValue)

/-- A token. -/
inductive Token where
  | openArray
  | closeArray
  | openObject
  | closeObject
  | comma
  | colon
  | null
  | bool (b : Bool)
  | number (n : Numeral)
  | text (literal : Option String)
deriving DecidableEq, Repr

/-- The blanks that may stand between tokens. -/
def isSpace (c : Char) : Bool :=
  c == ' ' || c == '\n' || c == '\r' || c == '\t'

/-- The number written by four hexadecimal digits. -/
def hexCode? (a b c d : Char) : Option Nat :=
  match hexDigit? a, hexDigit? b, hexDigit? c, hexDigit? d with
  | some a, some b, some c, some d => some (((a * 16 + b) * 16 + c) * 16 + d)
  | _, _, _, _ => none

/-- The character that a backslash and a letter stand for. -/
def escaped? (c : Char) : Option Char :=
  match c with
  | '"' | '\\' | '/' => some c
  | 'b' => some '\x08'
  | 'f' => some '\x0c'
  | 'n' => some '\n'
  | 'r' => some '\r'
  | 't' => some '\t'
  | _ => none

/-- Reads the rest of a quoted text: the code points and surrogates in it, and what follows the
closing quote. -/
def scanText : List Char → Option (List Nat × List Char)
  | [] => none
  | '"' :: rest => some ([], rest)
  | '\\' :: 'u' :: a :: b :: c :: d :: rest =>
    match hexCode? a b c d, scanText rest with
    | some code, some (codes, after) => some (code :: codes, after)
    | _, _ => none
  | '\\' :: c :: rest =>
    match escaped? c, scanText rest with
    | some c, some (codes, after) => some (c.toNat :: codes, after)
    | _, _ => none
  | c :: rest =>
    if c.toNat < 0x20 then none
    else (scanText rest).map fun (codes, after) => (c.toNat :: codes, after)

/-- The first half of a surrogate pair. -/
def isHighSurrogate (n : Nat) : Bool :=
  0xD800 ≤ n && n < 0xDC00

/-- The second half of a surrogate pair. -/
def isLowSurrogate (n : Nat) : Bool :=
  0xDC00 ≤ n && n < 0xE000

/-- The text of a sequence of code points in which surrogates must come in pairs. -/
def assemble : List Nat → Option (List Char)
  | [] => some []
  | high :: low :: rest =>
    if isHighSurrogate high && isLowSurrogate low then
      (assemble rest).map (Char.ofNat (0x10000 + (high - 0xD800) * 0x400 + (low - 0xDC00)) :: ·)
    else if isHighSurrogate high || isLowSurrogate high then none
    else (assemble (low :: rest)).map (Char.ofNat high :: ·)
  | [n] => if isHighSurrogate n || isLowSurrogate n then none else some [Char.ofNat n]

/-- Reads the exponent of a number: a sign, if any, and digits. -/
def exponent? : List Char → Option Int
  | '-' :: digits =>
    if !digits.isEmpty && digits.all Char.isDigit then some (-(digitsValue digits : Int)) else none
  | '+' :: digits =>
    if !digits.isEmpty && digits.all Char.isDigit then some (digitsValue digits) else none
  | digits =>
    if !digits.isEmpty && digits.all Char.isDigit then some (digitsValue digits) else none

/-- Reads what follows the digits before the point. -/
def numeralTail? (isNegative : Bool) (whole : Nat) (cs : List Char) : Option Numeral :=
  let (fraction, rest) : Option (List Char) × List Char :=
    match cs with
    | '.' :: cs => (some (cs.takeWhile Char.isDigit), cs.dropWhile Char.isDigit)
    | cs => (none, cs)
  if fraction == some [] then none
  else
    match rest with
    | [] => some { isNegative, whole, fraction }
    | mark :: cs =>
      if mark == 'e' || mark == 'E' then
        (exponent? cs).map fun exponent =>
          { isNegative, whole, fraction, exponent := some exponent }
      else none

/-- Reads a number from the whole of a text. -/
def numeral? (cs : List Char) : Option Numeral :=
  let (isNegative, cs) : Bool × List Char :=
    match cs with
    | '-' :: cs => (true, cs)
    | cs => (false, cs)
  let whole := cs.takeWhile Char.isDigit
  if whole.isEmpty || (whole.length != 1 && whole.head? == some '0') then none
  else numeralTail? isNegative (digitsValue whole) (cs.dropWhile Char.isDigit)

/-- Characters of which numbers consist. -/
def isNumberChar (c : Char) : Bool :=
  c.isDigit || c == '-' || c == '+' || c == '.' || c == 'e' || c == 'E'

/-- The token that a word stands for. -/
def word? (cs : List Char) : Option Token :=
  if cs == "null".toList then some .null
  else if cs == "true".toList then some (.bool true)
  else if cs == "false".toList then some (.bool false)
  else none

/-- The token that begins with the character `c`, and what follows it. -/
def nextToken (c : Char) (rest : List Char) : Option (Token × List Char) :=
  match c with
  | '[' => some (.openArray, rest)
  | ']' => some (.closeArray, rest)
  | '\x7b' => some (.openObject, rest)
  | '\x7d' => some (.closeObject, rest)
  | ',' => some (.comma, rest)
  | ':' => some (.colon, rest)
  | '"' =>
    (scanText rest).map fun (codes, after) => (.text ((assemble codes).map String.ofList), after)
  | c =>
    if c.isDigit || c == '-' then
      (numeral? (c :: rest.takeWhile isNumberChar)).map fun n =>
        (.number n, rest.dropWhile isNumberChar)
    else
      (word? (c :: rest.takeWhile Char.isAlpha)).map fun token =>
        (token, rest.dropWhile Char.isAlpha)

theorem length_of_scanText {cs after : List Char} {codes : List Nat}
    (h : scanText cs = some (codes, after)) : after.length ≤ cs.length := by
  fun_induction scanText cs generalizing codes after with
  | case1 => simp at h
  | case2 => simp_all
  | case3 a b c d rest code codes' after' hcode hrest ih =>
    simp_all
    omega
  | case4 => simp at h
  | case5 c rest _ c' codes' after' hc hrest ih =>
    simp_all
    omega
  | case6 => simp at h
  | case7 => simp at h
  | case8 c rest _ _ _ _ ih =>
    simp only [Option.map_eq_some_iff, Prod.mk.injEq, Prod.exists] at h
    obtain ⟨codes', after', hrest, rfl, rfl⟩ := h
    have := ih hrest
    simp only [List.length_cons]
    omega

theorem length_dropWhile_le (p : Char → Bool) (cs : List Char) :
    (cs.dropWhile p).length ≤ cs.length :=
  (List.dropWhile_sublist p).length_le

theorem length_of_nextToken {c : Char} {rest after : List Char} {token : Token}
    (h : nextToken c rest = some (token, after)) : after.length ≤ rest.length := by
  unfold nextToken at h
  split at h
  all_goals try
    (simp only [Option.some.injEq, Prod.mk.injEq] at h; obtain ⟨_, rfl⟩ := h; exact Nat.le_refl _)
  · simp only [Option.map_eq_some_iff, Prod.mk.injEq, Prod.exists] at h
    obtain ⟨codes, after', hscan, _, rfl⟩ := h
    exact length_of_scanText hscan
  · split at h
    · simp only [Option.map_eq_some_iff, Prod.mk.injEq] at h
      obtain ⟨_, _, _, rfl⟩ := h
      exact length_dropWhile_le _ _
    · simp only [Option.map_eq_some_iff, Prod.mk.injEq] at h
      obtain ⟨_, _, _, rfl⟩ := h
      exact length_dropWhile_le _ _

/-- The tokens of a text, if all of it can be read. -/
def tokens? (cs : List Char) : Option (List Token) :=
  match cs with
  | [] => some []
  | c :: rest =>
    if isSpace c then tokens? rest
    else
      match h : nextToken c rest with
      | none => none
      | some (token, after) =>
        have := length_of_nextToken h
        (tokens? after).map (token :: ·)
termination_by cs.length

end SymbolAtlas.Json
