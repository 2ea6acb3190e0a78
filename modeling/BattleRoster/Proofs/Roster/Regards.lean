import BattleRoster.Roster.Basic
import Mathlib.Data.List.Nodup

/-!
# Masks of stances

A mask has one bit for each slot that a filter selects: the source itself, if the
filter has it, and the other active players by the stance of the source towards
them.  So a mask says the same as asking about the slots one by one, masks of
filters join as the filters do, and the single filters share out the active slots.
-/

namespace BattleRoster

/-! ## Sets of slots -/

namespace SlotSet

/-- A set that has the bits of some slots, and no other bit. -/
def Marks (s : SlotSet) (P : Slot → Prop) : Prop :=
  ∀ bit, s.bits.getLsbD bit = true ↔ ∃ slot : Slot, slot.val = bit ∧ P slot

variable {s t : SlotSet} {P Q : Slot → Prop}

theorem marks_empty : (∅ : SlotSet).Marks fun _ => False := by
  intro bit
  change (0 : BitVec 32).getLsbD bit = true ↔ _
  simp

theorem Marks.congr (marks : s.Marks P) (same : ∀ slot, P slot ↔ Q slot) : s.Marks Q := by
  rwa [← funext fun slot => propext (same slot)]

theorem Marks.insert (marks : s.Marks P) (slot : Slot) :
    (s.insert slot).Marks fun other => other = slot ∨ P other := by
  intro bit
  change (s.bits ||| BitVec.twoPow 32 slot.val).getLsbD bit = true ↔ _
  rw [BitVec.getLsbD_or, Bool.or_eq_true, marks bit, BitVec.getLsbD_twoPow]
  have wide : slot.val < 32 := Nat.lt_trans slot.isLt (by decide)
  simp only [wide, decide_true, Bool.true_and, decide_eq_true_eq]
  constructor
  · rintro (⟨other, here, holds⟩ | here)
    · exact ⟨other, here, .inr holds⟩
    · exact ⟨slot, here, .inl rfl⟩
  · rintro ⟨other, here, rfl | holds⟩
    · exact .inr here
    · exact .inl ⟨other, here, holds⟩

/-- Inserting the slots of a list that pass a test adds these slots. -/
theorem Marks.foldl_insert (marks : s.Marks P) (test : Slot → Prop) [DecidablePred test]
    (slots : List Slot) :
    (slots.foldl (fun set other => if test other then set.insert other else set) s).Marks
      fun other => P other ∨ other ∈ slots ∧ test other := by
  induction slots generalizing s P with
  | nil => exact marks.congr fun other => by simp
  | cons first slots ih =>
      rw [List.foldl_cons]
      by_cases passes : test first
      · rw [if_pos passes]
        refine (ih (marks.insert first)).congr fun other => ?_
        constructor
        · rintro ((rfl | holds) | ⟨mem, tested⟩)
          · exact .inr ⟨List.mem_cons_self, passes⟩
          · exact .inl holds
          · exact .inr ⟨List.mem_cons_of_mem _ mem, tested⟩
        · rintro (holds | ⟨mem, tested⟩)
          · exact .inl (.inr holds)
          · rcases List.mem_cons.mp mem with rfl | mem
            · exact .inl (.inl rfl)
            · exact .inr ⟨mem, tested⟩
      · rw [if_neg passes]
        refine (ih marks).congr fun other => or_congr_right ?_
        refine and_congr_left fun tested => ⟨List.mem_cons_of_mem _, fun mem => ?_⟩
        rcases List.mem_cons.mp mem with rfl | mem
        · exact absurd tested passes
        · exact mem

/-- Sets of slots that exclude each other share no bit. -/
theorem Marks.meets_eq_false (first : s.Marks P) (second : t.Marks Q)
    (apart : ∀ slot, P slot → ¬ Q slot) : s.meets t = false := by
  have none : s.bits &&& t.bits = 0 := by
    refine BitVec.eq_of_getLsbD_eq fun bit _ => ?_
    change (s.bits &&& t.bits).getLsbD bit = (0#32).getLsbD bit
    rw [BitVec.getLsbD_and, BitVec.getLsbD_zero, Bool.and_eq_false_imp]
    intro inFirst
    obtain ⟨slot, here, holds⟩ := (first bit).mp inFirst
    rw [← Bool.not_eq_true, second bit]
    rintro ⟨other, there, holdsToo⟩
    obtain rfl : other = slot := Fin.ext (there.trans here.symm)
    exact apart other holds holdsToo
  simp [meets, none]

/-- The set of the slots with one property or the other is the union of bits. -/
theorem Marks.bits_or {u : SlotSet} (first : s.Marks P) (second : t.Marks Q)
    (both : u.Marks fun slot => P slot ∨ Q slot) : u.bits = s.bits ||| t.bits := by
  refine BitVec.eq_of_getLsbD_eq fun bit _ => Bool.eq_iff_iff.mpr ?_
  rw [BitVec.getLsbD_or, Bool.or_eq_true, first bit, second bit, both bit, ← exists_or]
  simp only [and_or_left]

end SlotSet

/-! ## Filters -/

namespace StanceFilter

/-- The filters with a single part. -/
def singles : List StanceFilter :=
  { self := true } :: [.enemies, .allies, .neutral].map admitting

theorem mem_singles {f : StanceFilter} :
    f ∈ singles ↔ f = { self := true } ∨ ∃ stance, f = admitting stance := by
  simp only [singles, List.map_cons, List.map_nil, List.mem_cons, List.not_mem_nil, or_false]
  refine or_congr_right ⟨?_, ?_⟩
  · rintro (rfl | rfl | rfl)
    · exact ⟨.enemies, rfl⟩
    · exact ⟨.allies, rfl⟩
    · exact ⟨.neutral, rfl⟩
  · rintro ⟨stance, rfl⟩
    cases stance <;> simp

theorem nodup_singles : singles.Nodup := by
  decide

theorem admits_empty (stance : Stance) : admits {} stance = false := by
  cases stance <;> rfl

theorem admits_self (stance : Stance) : admits { self := true } stance = false := by
  cases stance <;> rfl

theorem admits_union (f g : StanceFilter) (stance : Stance) :
    (f ∪ g).admits stance = (f.admits stance || g.admits stance) := by
  cases stance <;> rfl

theorem self_admitting (stance : Stance) : (admitting stance).self = false := by
  cases stance <;> rfl

theorem admits_admitting (stance other : Stance) :
    (admitting stance).admits other = true ↔ other = stance := by
  cases stance <;> cases other <;> decide

end StanceFilter

/-! ## Masks -/

namespace Roster

/-- A filter selects a slot as seen from another: itself, or an active player by its stance. -/
def Selects (r : Roster) (f : StanceFilter) (slot other : Slot) : Prop :=
  other = slot ∧ f.self = true ∨
    other ≠ slot ∧ other.val < r.count ∧ f.admits (r.stance slot other) = true

variable {r : Roster} {f g : StanceFilter} {slot other : Slot}

theorem not_selects_empty : ¬ r.Selects {} slot other := by
  simp [Selects, StanceFilter.admits_empty]

theorem selects_union :
    r.Selects (f ∪ g) slot other ↔ r.Selects f slot other ∨ r.Selects g slot other := by
  have self : (f ∪ g).self = (f.self || g.self) := rfl
  unfold Selects
  rw [StanceFilter.admits_union, self, Bool.or_eq_true, Bool.or_eq_true]
  by_cases here : other = slot
  · simp [here]
  · simp [here, and_or_left]

theorem selects_self : r.Selects { self := true } slot other ↔ other = slot := by
  simp [Selects, StanceFilter.admits_self]

theorem selects_admitting {stance : Stance} :
    r.Selects (.admitting stance) slot other ↔
      other ≠ slot ∧ other.val < r.count ∧ r.stance slot other = stance := by
  simp [Selects, StanceFilter.self_admitting, StanceFilter.admits_admitting]

/-- A slot is selected by a single filter only. -/
theorem eq_of_selects (single : f ∈ StanceFilter.singles)
    (other_single : g ∈ StanceFilter.singles)
    (first : r.Selects f slot other) (second : r.Selects g slot other) : f = g := by
  rcases StanceFilter.mem_singles.mp single with rfl | ⟨stance, rfl⟩ <;>
    rcases StanceFilter.mem_singles.mp other_single with rfl | ⟨stance', rfl⟩
  · rfl
  · exact absurd (selects_self.mp first) (selects_admitting.mp second).1
  · exact absurd (selects_self.mp second) (selects_admitting.mp first).1
  · rw [← (selects_admitting.mp first).2.2, (selects_admitting.mp second).2.2]

/-- The single filters select the source and the active players. -/
theorem exists_single_selects :
    (∃ f ∈ StanceFilter.singles, r.Selects f slot other) ↔
      other = slot ∨ other.val < r.count := by
  constructor
  · rintro ⟨f, -, ⟨here, -⟩ | ⟨-, active, -⟩⟩
    · exact .inl here
    · exact .inr active
  · intro shown
    by_cases here : other = slot
    · exact ⟨_, StanceFilter.mem_singles.mpr (.inl rfl), selects_self.mpr here⟩
    · exact ⟨_, StanceFilter.mem_singles.mpr (.inr ⟨r.stance slot other, rfl⟩),
        selects_admitting.mpr ⟨here, shown.resolve_left here, rfl⟩⟩

/-- A slot of the roster is answered with the set of the slots that the filter selects. -/
theorem regarded_marks (r : Roster) (f : StanceFilter) (slot : Slot) :
    ∃ mask, r.regarded slot.val f = .ok mask ∧ mask.Marks (r.Selects f slot) := by
  unfold regarded
  cases empty : f.isEmpty with
  | true =>
      have none : f = {} := by simpa [StanceFilter.isEmpty] using empty
      refine ⟨∅, rfl, SlotSet.marks_empty.congr fun other => ?_⟩
      rw [none]
      exact iff_of_false id not_selects_empty
  | false =>
      have found : Slot.ofNat? slot.val = some slot := dif_pos slot.isLt
      have start : (if f.self then SlotSet.insert ∅ slot else ∅).Marks
          fun other => other = slot ∧ f.self = true := by
        split
        · next self => exact (SlotSet.marks_empty.insert slot).congr fun other => by simp [self]
        · next self => exact SlotSet.marks_empty.congr fun other => by simp [self]
      rw [if_neg Bool.false_ne_true, found]
      refine ⟨_, rfl, (start.foldl_insert _ r.active).congr fun other => or_congr_right ?_⟩
      rw [mem_active]
      exact and_left_comm

/-- Without a slot of that number nothing is answered, unless nothing is asked. -/
theorem regarded_beyond (r : Roster) (f : StanceFilter) (n : Nat) :
    r.regarded (slotCount + n) f =
      if f = {} then .ok ∅ else .error (.noSlot (slotCount + n)) := by
  have missing : Slot.ofNat? (slotCount + n) = none :=
    dif_neg (Nat.not_lt.mpr (Nat.le_add_right _ _))
  have same : (f.isEmpty = true) = (f = {}) := by simp [StanceFilter.isEmpty]
  unfold regarded
  simp only [same, missing]

/--
Masks say what is said slot by slot, for any slot as the source: a mask has the bits
of the slots that its filter selects, masks of filters join as the filters do, and
the masks of the single filters share out the source and the active players.
-/
theorem regarded_shares (r : Roster) :
    (∀ (slot : Slot) (f g : StanceFilter), ∃ mask other both : SlotSet,
      r.regarded slot.val f = .ok mask ∧ r.regarded slot.val g = .ok other ∧
      r.regarded slot.val (f ∪ g) = .ok both ∧ mask.Marks (r.Selects f slot) ∧
      both.bits = mask.bits ||| other.bits) ∧
    (∀ slot : Slot,
      StanceFilter.singles.Pairwise (fun f g => ∃ mask other : SlotSet,
        r.regarded slot.val f = .ok mask ∧ r.regarded slot.val g = .ok other ∧
        mask.meets other = false) ∧
      ∀ bit, (∃ f ∈ StanceFilter.singles, ∃ mask, r.regarded slot.val f = .ok mask ∧
          mask.bits.getLsbD bit = true) ↔
        ∃ other : Slot, other.val = bit ∧ (other = slot ∨ other.val < r.count)) ∧
    ∀ (n : Nat) (f : StanceFilter), r.regarded (slotCount + n) f =
      if f = {} then .ok ∅ else .error (.noSlot (slotCount + n)) := by
  refine ⟨fun slot f g => ?_, fun slot => ⟨?_, fun bit => ?_⟩,
    fun n f => r.regarded_beyond f n⟩
  · obtain ⟨mask, ok, marks⟩ := r.regarded_marks f slot
    obtain ⟨other, otherOk, otherMarks⟩ := r.regarded_marks g slot
    obtain ⟨both, bothOk, bothMarks⟩ := r.regarded_marks (f ∪ g) slot
    exact ⟨mask, other, both, ok, otherOk, bothOk, marks,
      marks.bits_or otherMarks (bothMarks.congr fun _ => selects_union)⟩
  · refine StanceFilter.nodup_singles.pairwise_of_forall_ne fun f single g single' differ => ?_
    obtain ⟨mask, ok, marks⟩ := r.regarded_marks f slot
    obtain ⟨other, otherOk, otherMarks⟩ := r.regarded_marks g slot
    exact ⟨mask, other, ok, otherOk, marks.meets_eq_false otherMarks fun _ first second =>
      differ (eq_of_selects single single' first second)⟩
  · constructor
    · rintro ⟨f, single, mask, ok, marked⟩
      obtain ⟨same, sameOk, marks⟩ := r.regarded_marks f slot
      obtain rfl : mask = same := Except.ok.inj (ok.symm.trans sameOk)
      obtain ⟨other, here, selected⟩ := (marks bit).mp marked
      exact ⟨other, here, exists_single_selects.mp ⟨f, single, selected⟩⟩
    · rintro ⟨other, here, shown⟩
      obtain ⟨f, single, selected⟩ := exists_single_selects.mpr shown
      obtain ⟨mask, ok, marks⟩ := r.regarded_marks f slot
      exact ⟨f, single, mask, ok, (marks bit).mpr ⟨other, here, selected⟩⟩

end Roster

end BattleRoster
