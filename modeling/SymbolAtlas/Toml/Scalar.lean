import SymbolAtlas.Text.Digits
import SymbolAtlas.Toml.Basic

/-!
# Words and numbers

Truth values, integers, numbers with a fraction or an exponent, and points in time. Each is a run of
letters, digits and a few marks; a point in time may hold one blank.
-/

set_option autoImplicit false

namespace SymbolAtlas.Toml

/-- Characters of which words and numbers consist. -/
def isScalarChar (c : Char) : Bool :=
  c.isAlphanum || c == '_' || c == '+' || c == '-' || c == '.' || c == ':'

/-- The digits of a sequence in which an underscore may stand between two digits. -/
def ungrouped? (base : Nat) : List Char → Option (List Char)
  | [] => none
  | [d] => if (Text.digit? base d).isSome then some [d] else none
  | d :: '_' :: rest =>
    if (Text.digit? base d).isSome then (ungrouped? base rest).map (d :: ·) else none
  | d :: rest =>
    if (Text.digit? base d).isSome then (ungrouped? base rest).map (d :: ·) else none

/-- A number without its sign: whether it is negative, and the rest. -/
def cutSign : List Char → Bool × List Char
  | '-' :: rest => (true, rest)
  | '+' :: rest => (false, rest)
  | cs => (false, cs)

/-- The digits of a whole number without leading zeros. -/
def wholeDigits? (cs : List Char) : Option (List Char) :=
  (ungrouped? 10 cs).filter fun digits => digits.length == 1 || digits.head? != some '0'

/-- The integers that fit into 64 bits. -/
def isWide (i : Int) : Bool :=
  -0x8000000000000000 ≤ i && i < 0x8000000000000000

/-- An integer to a base that is told in front of it, or a decimal one with or without a sign. -/
def integer? (cs : List Char) : Option Int :=
  let inBase (base : Nat) (digits : List Char) : Option Int :=
    (ungrouped? base digits).map fun digits => (Text.valueInBase base digits : Int)
  let value :=
    match cs with
    | '0' :: 'x' :: digits => inBase 16 digits
    | '0' :: 'o' :: digits => inBase 8 digits
    | '0' :: 'b' :: digits => inBase 2 digits
    | cs =>
      let (isNegative, digits) := cutSign cs
      (wholeDigits? digits).map fun digits =>
        let n : Int := Text.digitsValue digits
        if isNegative then -n else n
  value.filter isWide

/-- What stands before and after the first character that satisfies `p`. -/
def cutAt (p : Char → Bool) (cs : List Char) : List Char × Option (List Char) :=
  (cs.takeWhile fun c => !p c, (cs.dropWhile fun c => !p c).tail?)

/-- Whether the text is a number with a fraction, an exponent or both, that is not too great; or the
word for infinity or for what is not a number, with or without a sign. -/
def isDecimal (cs : List Char) : Bool :=
  let (isNegative, cs) := cutSign cs
  let isExponentMark (c : Char) : Bool := c == 'e' || c == 'E'
  let (mantissa, exponent) := cutAt isExponentMark cs
  let (whole, fraction) := cutAt (· == '.') mantissa
  if cs == "inf".toList || cs == "nan".toList then true
  else if exponent.isNone && fraction.isNone then false
  else
    let read : Option (List Char × List Char × Int) := do
      let whole ← wholeDigits? whole
      let fraction ←
        match fraction with
        | none => some []
        | some digits => ungrouped? 10 digits
      let exponent ←
        match exponent with
        | none => some 0
        | some exponent =>
          let (isNegative, digits) := cutSign exponent
          (ungrouped? 10 digits).map fun digits =>
            let n : Int := Text.digitsValue digits
            if isNegative then -n else n
      return (whole, fraction, exponent)
    match read with
    | none => false
    | some (whole, fraction, exponent) =>
      isNegative
        || Text.isDouble (Text.digitsValue (whole ++ fraction)) (exponent - fraction.length)

/-- The number of two digits, between two bounds. -/
def pair? (low high : Nat) (a b : Char) : Option Nat :=
  if a.isDigit && b.isDigit then
    some (Text.digitsValue [a, b]) |>.filter fun n => low ≤ n && n ≤ high
  else none

/-- The number of days of a month. -/
def daysOfMonth (year month : Nat) : Nat :=
  if month = 2 then
    if year % 4 = 0 ∧ (year % 100 ≠ 0 ∨ year % 400 = 0) then 29 else 28
  else if month = 4 ∨ month = 6 ∨ month = 9 ∨ month = 11 then 30
  else 31

/-- Reads a date; gives what follows it. -/
def afterDate? : List Char → Option (List Char)
  | y :: y' :: y'' :: y''' :: '-' :: m :: m' :: '-' :: d :: d' :: rest => do
    let digits := [y, y', y'', y''']
    if !digits.all Char.isDigit then none
    let month ← pair? 1 12 m m'
    let _ ← pair? 1 (daysOfMonth (Text.digitsValue digits) month) d d'
    return rest
  | _ => none

/-- Reads a time of day; gives what follows it. -/
def afterTime? : List Char → Option (List Char)
  | h :: h' :: ':' :: m :: m' :: ':' :: s :: s' :: rest => do
    let _ ← pair? 0 23 h h'
    let _ ← pair? 0 59 m m'
    let _ ← pair? 0 60 s s'
    match rest with
    | '.' :: digits =>
      if (digits.head?.map Char.isDigit).getD false then digits.dropWhile Char.isDigit else none
    | rest => rest
  | _ => none

/-- Whether the text is the difference between local time and universal time, or nothing. -/
def isOffset : List Char → Bool
  | [] => true
  | [c] => c == 'Z' || c == 'z'
  | [sign, h, h', ':', m, m'] =>
    (sign == '+' || sign == '-') && (pair? 0 23 h h').isSome && (pair? 0 59 m m').isSome
  | _ => false

/-- Whether the text is a time of day with or without an offset. -/
def isOffsetTime (cs : List Char) : Bool :=
  match afterTime? cs with
  | none => false
  | some rest => isOffset rest

/-- Whether the text is a date, a time of day, or both with the letter T between them. -/
def isMoment (cs : List Char) : Bool :=
  match afterDate? cs with
  | some [] => true
  | some ('T' :: time) => isOffsetTime time
  | some ('t' :: time) => isOffsetTime time
  | some _ => false
  | none => afterTime? cs == some []

/-- The value of a run of characters. -/
def ofRun? (run : List Char) : Option Value :=
  if run == "true".toList then some (.flag true)
  else if run == "false".toList then some (.flag false)
  else if isMoment run then some (.moment (String.ofList run))
  else if isDecimal run then some (.decimal (String.ofList run))
  else (integer? run).map .integer

/-- Reads a word or a number. A blank and a digit behind a date begin a time of day. -/
def scalar? (cs : List Char) : Option (Value × List Char) :=
  let run := cs.takeWhile isScalarChar
  let rest := cs.dropWhile isScalarChar
  match afterDate? run, rest with
  | some [], ' ' :: after =>
    if (after.head?.map Char.isDigit).getD false then
      let time := after.takeWhile isScalarChar
      if isOffsetTime time then
        some (.moment (String.ofList (run ++ ' ' :: time)), after.dropWhile isScalarChar)
      else none
    else (ofRun? run).map fun value => (value, rest)
  | _, _ => (ofRun? run).map fun value => (value, rest)

end SymbolAtlas.Toml
