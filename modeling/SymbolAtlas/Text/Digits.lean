/-!
# Digits

The values of digits and of sequences of them, and the range of doubles.
-/

set_option autoImplicit false

namespace SymbolAtlas.Text

/-- The value of a hexadecimal digit. -/
def hexDigit? (c : Char) : Option Nat :=
  if '0' ≤ c && c ≤ '9' then some (c.toNat - 0x30)
  else if 'a' ≤ c && c ≤ 'f' then some (c.toNat - 0x57)
  else if 'A' ≤ c && c ≤ 'F' then some (c.toNat - 0x37)
  else none

/-- The value of a digit to a base of at most 16. -/
def digit? (base : Nat) (c : Char) : Option Nat :=
  (hexDigit? c).filter (· < base)

/-- The number that a sequence of decimal digits stands for. -/
def digitsValue (digits : List Char) : Nat :=
  digits.foldl (fun n d => n * 10 + (d.toNat - 0x30)) 0

/-- The number that a sequence of digits to a base stands for. -/
def valueInBase (base : Nat) (digits : List Char) : Nat :=
  digits.foldl (fun n d => n * base + ((digit? base d).getD 0)) 0

/-- The character with a code point, unless the number is none. -/
def charOfCode? (n : Nat) : Option Char :=
  if n.isValidChar then some (Char.ofNat n) else none

/-- The least number that is too great for a double: halfway between the greatest one and the power
of two above it, numbers are rounded up. -/
def doubleBound : Nat :=
  Nat.pow 2 1024 - Nat.pow 2 970

/-- Whether `digits` times ten to the power of `exponent` can be represented as a double without
overflow. The magnitude is told from the number of digits first, so that a great exponent costs
nothing. -/
def isDouble (digits : Nat) (exponent : Int) : Bool :=
  if digits = 0 then true
  else
    let magnitude : Int := (Nat.toDigits 10 digits).length + exponent
    if magnitude < 309 then true
    else if 309 < magnitude then false
    else if 0 ≤ exponent then digits * Nat.pow 10 exponent.toNat < doubleBound
    else digits < doubleBound * Nat.pow 10 (-exponent).toNat

end SymbolAtlas.Text
