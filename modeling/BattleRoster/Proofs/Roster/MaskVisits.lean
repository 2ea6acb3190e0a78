import BattleRoster.Roster.Basic
import Mathlib.Data.List.FinRange

/-!
# Visiting the players of a mask

Each call takes the lowest slot out of a mask, and a mask without a slot is emptied.  So
the calls yield the slots of the mask one after the other, and nothing from then on, also
when the mask has bits that belong to no slot.  A mask leads to a player by itself only if
it has the bit of that player's slot and no other bit.
-/

namespace BattleRoster

/-! ## The slots of a set -/

namespace SlotSet

/-- The slots of a set in ascending order. -/
def slots (s : SlotSet) : List Slot :=
  Slot.all.filter s.contains

variable {s : SlotSet} {slot other : Slot} {rest : List Slot}

theorem mem_slots : slot ∈ s.slots ↔ s.contains slot = true := by
  simp [slots, Slot.all]

theorem pairwise_slots (s : SlotSet) : s.slots.Pairwise (· < ·) :=
  Slot.pairwise_filter s.contains

theorem contains_single : (single slot).contains other = decide (slot = other) := by
  have wide : slot.val < 32 := Nat.lt_trans slot.isLt (by decide)
  simp [contains, single, BitVec.getLsbD_twoPow, wide, Fin.ext_iff]

theorem single_injective (same : single slot = single other) : slot = other := by
  have shared : (single slot).contains other = true := by
    rw [same, contains_single, decide_eq_true rfl]
  rwa [contains_single, decide_eq_true_eq] at shared

theorem contains_erase :
    (s.erase slot).contains other = (s.contains other && decide (other ≠ slot)) := by
  have wide : other.val < 32 := Nat.lt_trans other.isLt (by decide)
  have apart : (single slot).bits.getLsbD other.val = decide (slot = other) := contains_single
  rw [contains, erase, BitVec.getLsbD_and, BitVec.getLsbD_not, apart]
  simp [contains, wide, eq_comm]

theorem slots_single (slot : Slot) : (single slot).slots = [slot] := by
  refine List.Perm.eq_singleton ?_
  refine (List.perm_ext_iff_of_nodup (pairwise_slots _).nodup (List.nodup_singleton slot)).mpr ?_
  intro other
  rw [mem_slots, contains_single, decide_eq_true_eq, List.mem_singleton, eq_comm]

/-- Without its lowest slot a set has the other ones. -/
theorem slots_erase_of_cons (split : s.slots = slot :: rest) : (s.erase slot).slots = rest := by
  have above : ∀ other ∈ rest, slot < other :=
    (List.pairwise_cons.mp (split ▸ s.pairwise_slots)).1
  calc (s.erase slot).slots
      = s.slots.filter (decide <| · ≠ slot) := by
        rw [slots, slots, List.filter_filter]
        exact List.filter_congr fun other _ => by rw [contains_erase, Bool.and_comm]
    _ = rest.filter (decide <| · ≠ slot) := by
        rw [split, List.filter_cons_of_neg (by simp)]
    _ = rest := by
        apply List.filter_eq_self.mpr
        intro other mem
        exact decide_eq_true (above other mem).ne'

end SlotSet

namespace Roster

variable {mask : SlotSet} {slot : Slot} {rest : List Slot}

/-! ## Calls -/

/-- A call looks for the first slot of the mask. -/
theorem find?_contains (mask : SlotSet) : Slot.all.find? mask.contains = mask.slots.head? :=
  List.head?_filter.symm

theorem next_of_nil (vacant : mask.slots = []) : next mask = (none, ∅) := by
  rw [next, find?_contains, vacant]
  rfl

theorem next_of_cons (split : mask.slots = slot :: rest) :
    next mask = (some slot, mask.erase slot) := by
  rw [next, find?_contains, split]
  rfl

/-- A call yields the first slot, if there is one, and leaves the others. -/
theorem next_spec (mask : SlotSet) :
    (next mask).1 = mask.slots.head? ∧ (next mask).2.slots = mask.slots.tail := by
  cases split : mask.slots with
  | nil =>
      rw [next_of_nil split]
      exact ⟨rfl, by decide⟩
  | cons slot rest =>
      rw [next_of_cons split]
      exact ⟨rfl, SlotSet.slots_erase_of_cons split⟩

/-- What is left of a mask after some calls. -/
def left (mask : SlotSet) : Nat → SlotSet
  | 0 => mask
  | calls + 1 => (next (left mask calls)).2

theorem slots_left (mask : SlotSet) (calls : Nat) :
    (left mask calls).slots = mask.slots.drop calls := by
  induction calls with
  | zero => rfl
  | succ calls ih => rw [left, (next_spec _).2, ih, List.tail_drop]

/-- Each call yields the slot of its number; a call beyond them yields nothing. -/
theorem next_left (mask : SlotSet) (calls : Nat) :
    (next (left mask calls)).1 = mask.slots[calls]? := by
  rw [(next_spec _).1, slots_left, List.head?_drop]

theorem drain_eq_take (limit : Nat) (mask : SlotSet) :
    drain limit mask = mask.slots.take limit := by
  induction limit generalizing mask with
  | zero => rfl
  | succ limit ih =>
      cases split : mask.slots with
      | nil => rw [drain, next_of_nil split, List.take_nil]
      | cons slot rest =>
          rw [drain, next_of_cons split, List.take_succ_cons]
          dsimp only
          rw [ih, SlotSet.slots_erase_of_cons split]

/-- A mask never has more slots than a roster, so taking them ends because none is left. -/
theorem slotsIn_eq (mask : SlotSet) : slotsIn mask = mask.slots := by
  have bounded : mask.slots.length ≤ slotCount :=
    (List.length_filter_le _ _).trans_eq List.length_finRange
  rw [slotsIn, drain_eq_take, List.take_of_length_le bounded]

/-- The slots of a mask are the places of the players whose bits are set. -/
theorem map_seat_slots (r : Roster) (mask : SlotSet) :
    (mask.slots.map fun slot => (r.player slot, slot.val)) =
      r.players.toList.zipIdx.filter fun seat => mask.bits.getLsbD seat.2 := by
  have seats : r.players.toList.zipIdx = Slot.all.map fun slot => (r.player slot, slot.val) := by
    apply List.ext_getElem
    · simp [Slot.all]
    · intro i _ _
      simp [Slot.all, player]
  rw [seats, List.filter_map]
  rfl

/-! ## Masks of one player -/

/-- A mask leads to a slot, or it is not the mask of one slot and is refused. -/
theorem ofMask_cases (mask : SlotSet) :
    (∃ slot, mask = SlotSet.single slot ∧ ofMask mask = .ok slot) ∨
      (∀ slot, mask ≠ SlotSet.single slot) ∧ ofMask mask = .error (.noPlayerFor mask) := by
  unfold ofMask
  split
  · next slot found =>
      have same : SlotSet.single slot = mask := by simpa using List.find?_some found
      exact .inl ⟨slot, same.symm, rfl⟩
  · next missing =>
      refine .inr ⟨fun slot same => ?_, rfl⟩
      have other := List.find?_eq_none.mp missing slot (List.mem_finRange slot)
      exact other (beq_iff_eq.mpr same.symm)

theorem ofMask_eq_ok_iff : ofMask mask = .ok slot ↔ mask = SlotSet.single slot := by
  rcases ofMask_cases mask with ⟨found, rfl, leads⟩ | ⟨others, refused⟩
  · rw [leads, Except.ok.injEq]
    exact ⟨congrArg SlotSet.single, SlotSet.single_injective⟩
  · rw [refused]
    exact iff_of_false nofun (others slot)

/--
A mask is visited call by call.  The calls yield the slots whose bits are set, each once
and in ascending order, and nothing from then on, whatever other bits the mask has; in
every roster these are the places of the players whose bits are set.  A mask leads to a
slot by itself if it is the mask of that slot, which is then the only one to be visited,
and every other mask is refused.
-/
theorem visits_marked_players (r : Roster) (mask : SlotSet) :
    (∀ slot, slot ∈ slotsIn mask ↔ mask.bits.getLsbD slot.val = true) ∧
    (slotsIn mask).Pairwise (· < ·) ∧
    (∀ calls, (next (left mask calls)).1 = (slotsIn mask)[calls]?) ∧
    (slotsIn mask).map (fun slot => (r.player slot, slot.val)) =
      r.players.toList.zipIdx.filter (fun seat => mask.bits.getLsbD seat.2) ∧
    (∀ slot, ofMask mask = .ok slot ↔ mask = SlotSet.single slot) ∧
    (ofMask mask = .error (.noPlayerFor mask) ↔ ∀ slot, mask ≠ SlotSet.single slot) ∧
    ∀ slot, ofMask mask = .ok slot → slotsIn mask = [slot] := by
  rw [slotsIn_eq]
  refine ⟨fun slot => SlotSet.mem_slots, mask.pairwise_slots, next_left mask,
    map_seat_slots r mask, fun slot => ofMask_eq_ok_iff, ?_, fun slot leads => ?_⟩
  · rcases ofMask_cases mask with ⟨slot, same, leads⟩ | ⟨others, refused⟩
    · rw [leads]
      exact iff_of_false nofun fun others => others slot same
    · exact iff_of_true refused others
  · rw [ofMask_eq_ok_iff.mp leads]
    exact SlotSet.slots_single slot

end Roster

end BattleRoster
