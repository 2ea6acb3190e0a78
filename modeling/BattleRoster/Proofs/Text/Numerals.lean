import BattleRoster.Text.Decimal
import Mathlib.Data.List.Induction

/-!
# What numerals stand for

A numeral is a sign, if there is one, and at least one ASCII digit.  Reading gives
the number that a numeral stands for, and it refuses a text for one of two reasons:
it is no numeral, or the number is outside the width that is asked for.
-/

namespace BattleRoster.Text

/-- A run of digits and its number: a digit more makes ten times as much and the digit. -/
inductive Digits : List Char → Nat → Prop where
  | one {c : Char} (digit : c.isDigit = true) : Digits [c] (c.toNat - '0'.toNat)
  | more {cs : List Char} {n : Nat} {c : Char} (earlier : Digits cs n) (digit : c.isDigit = true) :
      Digits (cs ++ [c]) (10 * n + (c.toNat - '0'.toNat))

/-- A numeral that may have a plus sign. -/
inductive Unsigned (cs : List Char) (n : Nat) : Prop where
  | bare (digits : Digits cs n)
  | plus {rest : List Char} (sign : cs = '+' :: rest) (digits : Digits rest n)

/-- A numeral that may have a plus or a minus sign. -/
inductive Signed (cs : List Char) : Int → Prop where
  | unsigned {n : Nat} (numeral : Unsigned cs n) : Signed cs n
  | minus {rest : List Char} {n : Nat} (sign : cs = '-' :: rest) (digits : Digits rest n) :
      Signed cs (-n)

/-! ## Digits -/

theorem Digits.isDigit_of_mem {cs : List Char} {n : Nat} (digits : Digits cs n) :
    ∀ c ∈ cs, c.isDigit = true := by
  induction digits with
  | one digit => exact List.forall_mem_singleton.mpr digit
  | more earlier digit ih =>
      exact List.forall_mem_append.mpr ⟨ih, List.forall_mem_singleton.mpr digit⟩

/-- Digits do not begin with a sign. -/
theorem Digits.ne_cons {cs : List Char} {n : Nat} {sign : Char} (digits : Digits cs n)
    (notDigit : sign.isDigit = false) (rest : List Char) : cs ≠ sign :: rest := by
  rintro rfl
  exact Bool.false_ne_true (notDigit.symm.trans (digits.isDigit_of_mem sign List.mem_cons_self))

theorem digitsValue?_eq_some_iff {cs : List Char} {n : Nat} :
    digitsValue? cs = some n ↔
      cs ≠ [] ∧ (∀ c ∈ cs, c.isDigit = true) ∧ Nat.ofDigitChars 10 cs 0 = n := by
  unfold digitsValue?
  rw [Option.ite_none_right_eq_some]
  simp [and_assoc]

theorem digitsValue?_eq_some {cs : List Char} {n : Nat} :
    digitsValue? cs = some n ↔ Digits cs n := by
  rw [digitsValue?_eq_some_iff]
  constructor
  · rintro ⟨nonempty, digits, rfl⟩
    induction cs using List.reverseRecOn with
    | nil => exact absurd rfl nonempty
    | append_singleton cs c ih =>
        rw [List.forall_mem_append, List.forall_mem_singleton] at digits
        rw [Nat.ofDigitChars_append]
        by_cases first : cs = []
        · subst first
          have value :
              Nat.ofDigitChars 10 [c] (Nat.ofDigitChars 10 [] 0) = c.toNat - '0'.toNat := by
            simp [Nat.ofDigitChars_cons]
          exact value ▸ .one digits.2
        · exact .more (ih first digits.1) digits.2
  · intro digits
    refine ⟨?_, digits.isDigit_of_mem, ?_⟩
    · cases digits <;> simp
    · induction digits with
      | one digit => simp [Nat.ofDigitChars_cons]
      | more earlier digit ih =>
          rw [Nat.ofDigitChars_append, ih]
          rfl

/-! ## Signs -/

theorem natural?_eq_some {cs : List Char} {n : Nat} : natural? cs = some n ↔ Unsigned cs n := by
  unfold natural?
  split
  · next rest =>
      rw [digitsValue?_eq_some]
      refine ⟨.plus rfl, ?_⟩
      rintro (digits | ⟨⟨⟩, digits⟩)
      · exact absurd rfl (digits.ne_cons (by decide) rest)
      · exact digits
  · next unsigned =>
      rw [digitsValue?_eq_some]
      refine ⟨.bare, ?_⟩
      rintro (digits | ⟨sign, -⟩)
      · exact digits
      · exact absurd sign (unsigned _)

/-- A natural number is taken for an integer before its sign is put to it. -/
theorem map_cast_eq_some {found : Option Nat} {sign : Int → Int} {value : Int} :
    ((do return ((← found) : Int)) : Option Int).map sign = some value ↔
      ∃ n : Nat, found = some n ∧ sign n = value := by
  cases found <;> simp

theorem integer?_eq_some {cs : List Char} {n : Int} : integer? cs = some n ↔ Signed cs n := by
  unfold integer?
  split
  · next rest =>
      rw [map_cast_eq_some]
      simp only [digitsValue?_eq_some]
      constructor
      · rintro ⟨n, digits, rfl⟩
        exact .minus rfl digits
      · rintro (⟨digits | ⟨⟨⟩, -⟩⟩ | ⟨⟨⟩, digits⟩)
        · exact absurd rfl (digits.ne_cons (by decide) rest)
        · exact ⟨_, digits, rfl⟩
  · next unsigned =>
      rw [map_cast_eq_some]
      simp only [natural?_eq_some]
      constructor
      · rintro ⟨n, numeral, rfl⟩
        exact .unsigned numeral
      · rintro (numeral | ⟨sign, -⟩)
        · exact ⟨_, numeral, rfl⟩
        · exact absurd sign (unsigned _)

/-! ## Numbers of 64 bits -/

/-- An unsigned number is read from its numerals. -/
theorem readUInt64?_eq_some {s : String} {n : UInt64} :
    readUInt64? s = some n ↔ Unsigned s.toList n.toNat := by
  rw [← natural?_eq_some, readUInt64?]
  constructor
  · intro accepted
    split at accepted
    · next m numeral =>
        obtain ⟨small, value⟩ := Option.ite_none_right_eq_some.mp accepted
        cases value
        rw [numeral, UInt64.toNat_ofNat_of_lt' small]
    · cases accepted
  · intro numeral
    rw [numeral]
    simp [n.toNat_lt_size]

/-- A text is refused if it is no numeral of an unsigned number of 64 bits. -/
theorem readUInt64?_eq_none {s : String} :
    readUInt64? s = none ↔ ¬ ∃ n, n < UInt64.size ∧ Unsigned s.toList n := by
  rw [Option.eq_none_iff_forall_ne_some]
  constructor
  · rintro refused ⟨n, small, numeral⟩
    refine refused (UInt64.ofNat n) (readUInt64?_eq_some.mpr ?_)
    rwa [UInt64.toNat_ofNat_of_lt' small]
  · exact fun none n accepted =>
      none ⟨n.toNat, n.toNat_lt_size, readUInt64?_eq_some.mp accepted⟩

/-- A signed number is read from its numerals. -/
theorem readInt64?_eq_some {s : String} {n : Int64} :
    readInt64? s = some n ↔ Signed s.toList n.toInt := by
  rw [← integer?_eq_some, readInt64?]
  constructor
  · intro accepted
    split at accepted
    · next m numeral =>
        obtain ⟨⟨above, below⟩, value⟩ := Option.ite_none_right_eq_some.mp accepted
        cases value
        rw [numeral, Int64.toInt_ofInt_of_le above (Int.lt_add_one_of_le below)]
    · cases accepted
  · intro numeral
    have bounds : Int64.minValue.toInt ≤ n.toInt ∧ n.toInt ≤ Int64.maxValue.toInt :=
      ⟨n.minValue_le_toInt, n.toInt_le⟩
    rw [numeral]
    simp only [if_pos bounds, Int64.ofInt_toInt]

/-- A text is refused if it is no numeral of a signed number of 64 bits. -/
theorem readInt64?_eq_none {s : String} :
    readInt64? s = none ↔ ¬ ∃ n : Int64, Signed s.toList n.toInt := by
  simp only [Option.eq_none_iff_forall_ne_some, Ne, readInt64?_eq_some, not_exists]

end BattleRoster.Text
