import BattleRoster.Proofs.Text.Pieces

/-!
# Texts of one line

Texts are joined and cut without adding a line feed, so the whole is one line
exactly if its parts are.
-/

namespace BattleRoster.Text

/-- A text without a line feed. -/
def IsLine (s : String) : Prop :=
  '\n' ∉ s.toList

instance (s : String) : Decidable (IsLine s) :=
  inferInstanceAs (Decidable (_ ∉ _))

@[simp] theorem isLine_append {front back : String} :
    IsLine (front ++ back) ↔ IsLine front ∧ IsLine back := by
  rw [IsLine, String.toList_append, List.mem_append, not_or]
  rfl

theorem isLine_intercalate {joint : String} (inside : IsLine joint) (parts : List String) :
    IsLine (joint.intercalate parts) ↔ ∀ part ∈ parts, IsLine part := by
  induction parts with
  | nil => simp [IsLine]
  | cons part parts ih =>
      by_cases more : parts = []
      · rw [more, String.intercalate_singleton, List.forall_mem_singleton]
      · rw [String.intercalate_cons_of_ne_nil more, isLine_append, isLine_append, ih,
          List.forall_mem_cons, and_iff_left inside]

@[simp] theorem isLine_unwords {ws : List String} :
    IsLine (unwords ws) ↔ ∀ w ∈ ws, IsLine w :=
  isLine_intercalate (by decide) ws

/-- Characters of one line make one line. -/
theorem IsLine.of_chars {s part : String} (line : IsLine s)
    (inside : ∀ c ∈ part.toList, c ∈ s.toList) : IsLine part :=
  fun mem => line (inside _ mem)

theorem isLine_of_solid {s : String} (solid : ∀ c ∈ s.toList, isBlank c = false) :
    IsLine s := by
  intro mem
  exact absurd (solid _ mem) (by decide)

@[simp] theorem isLine_writeNat (n : Nat) : IsLine (writeNat n) :=
  isLine_of_solid fun _ mem => isBlank_of_isDigit (isDigit_of_mem_writeNat mem)

@[simp] theorem isLine_writeInt (n : Int) : IsLine (writeInt n) := by
  unfold writeInt
  split
  · exact isLine_append.mpr ⟨by decide, isLine_writeNat _⟩
  · exact isLine_writeNat _

end BattleRoster.Text
