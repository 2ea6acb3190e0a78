/-!
# Binary floating-point formats

A format encodes magnitudes by natural numbers in ascending order: a field of
fraction bits below a field of exponent bits, with gradual underflow and one
code for infinity.  `round` gives the code of the magnitude nearest to a
quotient, and of two equally near ones the even code.
-/

namespace BattleRoster

/-- The widths of the two fields of a floating-point magnitude. -/
structure BinaryFormat where
  fractionBits : Nat
  exponentBits : Nat
deriving DecidableEq, Repr

def BinaryFormat.single : BinaryFormat := ⟨23, 8⟩

def BinaryFormat.double : BinaryFormat := ⟨52, 11⟩

/-- The natural number nearest to a quotient; a tie goes to the even one. -/
def roundQuotient (num den : Nat) : Nat :=
  let low := num / den
  let twice := 2 * (num % den)
  if twice < den then low
  else if den < twice then low + 1
  else if low % 2 = 0 then low
  else low + 1

namespace BinaryFormat

/-- The code of infinity, which follows that of the largest finite magnitude. -/
def infinity (f : BinaryFormat) : Nat :=
  ((1 <<< f.exponentBits) - 1) <<< f.fractionBits

/-- The binary exponent of the last place of the smallest magnitudes. -/
def leastPlace (f : BinaryFormat) : Int :=
  2 - (1 <<< (f.exponentBits - 1) : Nat) - f.fractionBits

def floorLog2 (num den : Nat) : Int :=
  let guess : Int := (Nat.log2 num : Int) - Nat.log2 den
  if num <<< (-guess).toNat < den <<< guess.toNat then guess - 1 else guess

def lastPlace (f : BinaryFormat) (num den : Nat) : Int :=
  max (floorLog2 num den - f.fractionBits) f.leastPlace

/-- The code of the magnitude nearest to a quotient of natural numbers. -/
def round (f : BinaryFormat) (num den : Nat) : Nat :=
  if num = 0 then 0 else
    let place := f.lastPlace num den
    let units := roundQuotient (num <<< (-place).toNat) (den <<< place.toNat)
    min (units + (place - f.leastPlace).toNat <<< f.fractionBits) f.infinity

/-- The quotient of natural numbers that a finite code stands for. -/
def quotient (f : BinaryFormat) (code : Nat) : Nat × Nat :=
  let field := code >>> f.fractionBits
  let low := code % (1 <<< f.fractionBits)
  let units := if field = 0 then low else (1 <<< f.fractionBits) + low
  let place := f.leastPlace + ((field - 1 : Nat) : Int)
  (units <<< place.toNat, 1 <<< (-place).toNat)

/-- One, a tenth, the largest and the smallest magnitudes of 32 bits. -/
example : single.round 1 1 = 0x3f800000 ∧ single.round 1 10 = 0x3dcccccd ∧
    single.round ((1 <<< 128) - 1) 1 = 0x7f800000 ∧
    single.round 1 (1 <<< 149) = 1 ∧ single.round 1 (1 <<< 150) = 0 := by
  decide +kernel

example : ([1, 0x7fffff, 0x800000, 0x3dcccccd, 0x7f7fffff].map fun code =>
    let q := single.quotient code
    single.round q.1 q.2) = [1, 0x7fffff, 0x800000, 0x3dcccccd, 0x7f7fffff] := by
  decide +kernel

end BinaryFormat

end BattleRoster
