/-!
# Numerals

A numeral is a decimal number as it is written: a sign, digits before and
after the point, and an exponent of ten.  Its value as an integer or as a
floating-point number is taken from these parts.
-/

namespace BattleRoster

structure Numeral.Exponent where
  negative : Bool := false
  digits : List Char := []
deriving DecidableEq, Repr

/-- A decimal number as written; no digits after the point means no point. -/
structure Numeral where
  negative : Bool := false
  whole : List Char := []
  fraction : List Char := []
  exponent : Option Numeral.Exponent := none
deriving DecidableEq, Repr

namespace Numeral

def ofNat (n : Nat) : Numeral where
  whole := Nat.toDigits 10 n

def Exponent.text (e : Exponent) : List Char :=
  'e' :: ((if e.negative then ['-'] else []) ++ e.digits)

def text (n : Numeral) : List Char :=
  (if n.negative then ['-'] else []) ++ n.whole ++
    (if n.fraction.isEmpty then [] else '.' :: n.fraction) ++
    (match n.exponent with
      | none => []
      | some e => e.text)

/-- Whether a numeral is written as an integer: no point and no exponent. -/
def isIntegral (n : Numeral) : Bool :=
  n.fraction.isEmpty && n.exponent.isNone

def wholeValue (n : Numeral) : Nat :=
  Nat.ofDigitChars 10 n.whole 0

/--
The integer that a numeral names.  A negative zero is not one: it names the
floating-point number of that sign.
-/
def integer? (n : Numeral) : Option Int :=
  if n.isIntegral then
    if n.negative then
      if n.wholeValue = 0 then none else some (-(n.wholeValue : Int))
    else
      some (n.wholeValue : Int)
  else
    none

@[simp] theorem integer?_ofNat (n : Nat) : (ofNat n).integer? = some (n : Int) := by
  simp [integer?, isIntegral, wholeValue, ofNat, Nat.ofDigitChars_ten_toDigits]

end Numeral

end BattleRoster
