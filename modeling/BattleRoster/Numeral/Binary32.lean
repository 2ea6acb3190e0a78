import BattleRoster.Numeral.Basic
import BattleRoster.Numeral.BinaryFormat

/-!
# Floating-point numbers of 32 bits

Positions and angles are numbers of 32 bits, kept as their bits.  An integral
numeral of 64 bits is rounded once.  Every other numeral is first scaled in 64
bits: its leading digits that fit a 64-bit integer, times or divided by a power
of ten; a value beyond the largest finite number of 64 bits is refused.
-/

namespace BattleRoster

structure Binary32 where
  bits : UInt32 := 0
deriving DecidableEq, Repr, Inhabited

namespace Binary32

def magnitude (x : Binary32) : Nat :=
  x.bits.toNat % 0x80000000

def isNaN (x : Binary32) : Bool :=
  BinaryFormat.single.infinity < x.magnitude

/-- Equality of values: both zeros are equal, and no NaN equals anything. -/
def sameValue (x y : Binary32) : Bool :=
  !x.isNaN && !y.isNaN && (x == y || (x.magnitude == 0 && y.magnitude == 0))

def ofMagnitude (negative : Bool) (code : Nat) : Binary32 where
  bits := UInt32.ofNat ((if negative then 0x80000000 else 0) + code)

end Binary32

namespace Numeral

def digitValue (c : Char) : Nat :=
  c.toNat - '0'.toNat

/--
Append digits to a number for as long as it fits 64 bits; the digits from the
first one that does not fit are left over.
-/
def absorb (significand : Nat) : List Char → Nat × List Char
  | [] => (significand, [])
  | c :: cs =>
      let next := significand * 10 + digitValue c
      if next < UInt64.size then absorb next cs else (significand, c :: cs)

/-- The leading digits of a numeral and the power of ten that they count. -/
def scaled (n : Numeral) : Nat × Int :=
  let (whole, dropped) := absorb 0 n.whole
  let (significand, ignored) := absorb whole n.fraction
  let written : Int :=
    match n.exponent with
    | none => 0
    | some e =>
        let value := Nat.ofDigitChars 10 e.digits 0
        if e.negative then -(value : Int) else value
  let places : Int := (n.fraction.length : Int) - ignored.length
  (significand, dropped.length - places + written)

def powerOfTen (exponent : Nat) : Nat :=
  BinaryFormat.double.round (Nat.pow 10 exponent) 1

def times (a b : Nat) : Nat :=
  let (an, ad) := BinaryFormat.double.quotient a
  let (bn, bd) := BinaryFormat.double.quotient b
  BinaryFormat.double.round (an * bn) (ad * bd)

def divide (a b : Nat) : Nat :=
  let (an, ad) := BinaryFormat.double.quotient a
  let (bn, bd) := BinaryFormat.double.quotient b
  BinaryFormat.double.round (an * bd) (ad * bn)

/--
Scale a code of 64 bits by a power of ten.  Powers below `10 ^ -308` divide by
`10 ^ 308` first, and a product that is not finite is refused.
-/
def scaleBy (code : Nat) (exponent : Int) : Option Nat :=
  if exponent < -308 then
    if code = 0 then some 0
    else scaleBy (divide code (powerOfTen 308)) (exponent + 308)
  else if exponent < 0 then
    some (divide code (powerOfTen (-exponent).toNat))
  else if code = 0 then
    some 0
  else if exponent ≤ 308 then
    let product := times code (powerOfTen exponent.toNat)
    if product < BinaryFormat.double.infinity then some product else none
  else
    none
termination_by (-exponent).toNat
decreasing_by omega

def doubleCode? (n : Numeral) : Option Nat :=
  let (significand, exponent) := n.scaled
  scaleBy (BinaryFormat.double.round significand 1) exponent

/-- Whether a numeral is an integer of 64 bits, signed or unsigned. -/
def fitsWord (n : Numeral) : Bool :=
  match n.integer? with
  | none => false
  | some i => Int64.minValue.toInt ≤ i && i < UInt64.size

def toBinary32? (n : Numeral) : Option Binary32 :=
  if n.fitsWord then
    some (.ofMagnitude n.negative (BinaryFormat.single.round n.wholeValue 1))
  else do
    let code ← n.doubleCode?
    let (num, den) := BinaryFormat.double.quotient code
    return .ofMagnitude n.negative (BinaryFormat.single.round num den)

/-- A magnitude beyond 32 bits becomes infinite and beyond 64 bits is refused. -/
example :
    toBinary32? { whole := ['1'], exponent := some ⟨false, ['3', '9']⟩ } =
      some ⟨0x7f800000⟩ ∧
    toBinary32? { whole := ['1'], exponent := some ⟨false, ['4', '0', '0']⟩ } = none ∧
    toBinary32? { negative := true, whole := ['0'] } = some ⟨0x80000000⟩ := by
  decide +kernel

end Numeral

end BattleRoster
