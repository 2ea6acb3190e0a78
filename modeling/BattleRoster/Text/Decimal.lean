/-!
# Decimal numerals

Numbers are written in ASCII digits without leading zeros.  A number is read
from at least one digit after an optional sign; leading zeros are allowed, and
a value outside the width that is asked for is refused.
-/

namespace BattleRoster.Text

/-- The value of a non-empty run of digits. -/
def digitsValue? (cs : List Char) : Option Nat :=
  if !cs.isEmpty && cs.all Char.isDigit then
    some (Nat.ofDigitChars 10 cs 0)
  else
    none

/-- An unsigned numeral: digits after an optional plus sign. -/
def natural? : List Char → Option Nat
  | '+' :: cs => digitsValue? cs
  | cs => digitsValue? cs

/-- A signed numeral: digits after an optional plus or minus sign. -/
def integer? : List Char → Option Int
  | '-' :: cs => (digitsValue? cs).map fun n => -(n : Int)
  | cs => (natural? cs).map fun n => (n : Int)

def readUInt64? (s : String) : Option UInt64 :=
  match natural? s.toList with
  | some n => if n < UInt64.size then some (UInt64.ofNat n) else none
  | none => none

def readInt64? (s : String) : Option Int64 :=
  match integer? s.toList with
  | some n =>
      if Int64.minValue.toInt ≤ n ∧ n ≤ Int64.maxValue.toInt then
        some (Int64.ofInt n)
      else none
  | none => none

def writeNat (n : Nat) : String :=
  n.repr

def writeInt (n : Int) : String :=
  if n < 0 then "-" ++ writeNat n.natAbs else writeNat n.natAbs

@[simp] theorem toList_writeNat (n : Nat) :
    (writeNat n).toList = Nat.toDigits 10 n :=
  Nat.toList_repr

theorem isDigit_of_mem_writeNat {n : Nat} {c : Char} (mem : c ∈ (writeNat n).toList) :
    c.isDigit = true := by
  rw [toList_writeNat] at mem
  exact Nat.isDigit_of_mem_toDigits (by decide) (by decide) mem

theorem digitsValue?_writeNat (n : Nat) : digitsValue? (writeNat n).toList = some n := by
  have digits : (writeNat n).toList.all Char.isDigit = true := by
    rw [List.all_eq_true]
    exact fun c mem => isDigit_of_mem_writeNat mem
  have nonempty : (writeNat n).toList.isEmpty = false := by
    rw [List.isEmpty_eq_false_iff, toList_writeNat]
    exact Nat.toDigits_ne_nil
  rw [digitsValue?, digits, nonempty, toList_writeNat, Nat.ofDigitChars_ten_toDigits]
  rfl

theorem writeNat_injective {m n : Nat} (same : writeNat m = writeNat n) : m = n := by
  have values := congrArg (fun s : String => digitsValue? s.toList) same
  simpa only [digitsValue?_writeNat, Option.some.injEq] using values

theorem natural?_writeNat (n : Nat) : natural? (writeNat n).toList = some n := by
  unfold natural?
  split
  · next shape =>
      have digit := isDigit_of_mem_writeNat (shape ▸ List.mem_cons_self)
      exact absurd digit (by decide)
  · exact digitsValue?_writeNat n

theorem integer?_writeInt (n : Int) : integer? (writeInt n).toList = some n := by
  by_cases negative : n < 0
  · have sign : ("-" : String).toList = ['-'] := rfl
    rw [writeInt, if_pos negative, String.toList_append, sign, List.singleton_append, integer?,
      digitsValue?_writeNat]
    change some (-(n.natAbs : Int)) = some n
    rw [Int.ofNat_natAbs_of_nonpos (Int.le_of_lt negative), Int.neg_neg]
  · rw [writeInt, if_neg negative]
    unfold integer?
    split
    · next shape =>
        have digit := isDigit_of_mem_writeNat (shape ▸ List.mem_cons_self)
        exact absurd digit (by decide)
    · rw [natural?_writeNat]
      change some (n.natAbs : Int) = some n
      rw [Int.natAbs_of_nonneg (Int.not_lt.mp negative)]

theorem readUInt64?_writeNat (n : UInt64) : readUInt64? (writeNat n.toNat) = some n := by
  rw [readUInt64?, natural?_writeNat]
  simp [n.toNat_lt_size]

theorem readInt64?_writeInt (n : Int64) : readInt64? (writeInt n.toInt) = some n := by
  have bounds : Int64.minValue.toInt ≤ n.toInt ∧ n.toInt ≤ Int64.maxValue.toInt :=
    ⟨n.minValue_le_toInt, n.toInt_le⟩
  rw [readInt64?, integer?_writeInt]
  simp only [if_pos bounds, Int64.ofInt_toInt]

end BattleRoster.Text
