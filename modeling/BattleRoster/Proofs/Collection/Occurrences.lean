import Mathlib.Data.List.Induction

/-!
# First and last occurrences

A member of a list is the first of its kind if all before it satisfy a condition,
and the last one if all after it do.
-/

namespace BattleRoster

section Occurrences

variable {α : Type} {P R : α → Prop} {x : α} {xs : List α}

/-- The list has a member with `P` before which everything satisfies `R`. -/
def FirstSuch (P R : α → Prop) (xs : List α) : Prop :=
  ∃ before x after, xs = before ++ x :: after ∧ P x ∧ ∀ earlier ∈ before, R earlier

/-- The list has a member with `P` after which everything satisfies `R`. -/
def LastSuch (P R : α → Prop) (xs : List α) : Prop :=
  ∃ before x after, xs = before ++ x :: after ∧ P x ∧ ∀ later ∈ after, R later

theorem not_firstSuch_nil : ¬ FirstSuch P R [] := by
  rintro ⟨before, x, after, split, -⟩
  exact List.append_ne_nil_of_right_ne_nil before (List.cons_ne_nil x after) split.symm

theorem not_lastSuch_nil : ¬ LastSuch P R [] := by
  rintro ⟨before, x, after, split, -⟩
  exact List.append_ne_nil_of_right_ne_nil before (List.cons_ne_nil x after) split.symm

theorem firstSuch_cons : FirstSuch P R (x :: xs) ↔ P x ∨ (R x ∧ FirstSuch P R xs) := by
  constructor
  · rintro ⟨_ | ⟨y, before⟩, first, after, split, such, ahead⟩
    · cases split
      exact .inl such
    · cases split
      rw [List.forall_mem_cons] at ahead
      exact .inr ⟨ahead.1, before, first, after, rfl, such, ahead.2⟩
  · rintro (such | ⟨here, before, first, after, rfl, such, ahead⟩)
    · exact ⟨[], x, xs, rfl, such, List.forall_mem_nil _⟩
    · exact ⟨x :: before, first, after, rfl, such, List.forall_mem_cons.mpr ⟨here, ahead⟩⟩

theorem lastSuch_concat : LastSuch P R (xs ++ [x]) ↔ P x ∨ (LastSuch P R xs ∧ R x) := by
  constructor
  · rintro ⟨before, last, after, split, such, behind⟩
    rcases List.eq_nil_or_concat after with rfl | ⟨after, final, rfl⟩
    · obtain ⟨-, same⟩ := List.append_inj' split rfl
      cases same
      exact .inl such
    · rw [List.concat_eq_append, ← List.cons_append, ← List.append_assoc] at split
      obtain ⟨rfl, same⟩ := List.append_inj' split rfl
      cases same
      rw [List.concat_eq_append, List.forall_mem_append] at behind
      exact .inr ⟨⟨before, last, after, rfl, such, behind.1⟩, behind.2 x List.mem_cons_self⟩
  · rintro (such | ⟨⟨before, last, after, rfl, such, behind⟩, here⟩)
    · exact ⟨xs, x, [], rfl, such, List.forall_mem_nil _⟩
    · refine ⟨before, last, after ++ [x], by simp, such, ?_⟩
      exact List.forall_mem_append.mpr ⟨behind, List.forall_mem_singleton.mpr here⟩

/-- Only members of a kind count if no other one has `P` and all others satisfy `R`. -/
theorem lastSuch_filter {kind : α → Bool} (inside : ∀ y, P y → kind y = true)
    (outside : ∀ y, kind y = false → R y) :
    LastSuch P R (xs.filter kind) ↔ LastSuch P R xs := by
  induction xs using List.reverseRecOn with
  | nil => rfl
  | append_singleton xs y ih =>
      rw [List.filter_append, lastSuch_concat, ← ih]
      cases member : kind y with
      | true => rw [List.filter_cons_of_pos member, List.filter_nil, lastSuch_concat]
      | false =>
          have other : ¬ P y := fun such => Bool.false_ne_true (member.symm.trans (inside y such))
          rw [List.filter_cons_of_neg (Bool.not_eq_true _ ▸ member), List.filter_nil,
            List.append_nil, or_iff_right other, and_iff_left (outside y member)]

end Occurrences

end BattleRoster
