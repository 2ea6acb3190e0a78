import BattleRoster.Text.Hexadecimal

/-!
# Sets of upgrades

An upgrade set has one bit for each of the 128 upgrades that can be
registered.  Every operation is described by the members of its result.
-/

namespace BattleRoster

/-- A set of upgrades, by their places in the registry. -/
structure UpgradeSet where
  bits : BitVec 128 := 0
deriving DecidableEq, Repr

namespace UpgradeSet

def capacity : Nat := 128

def empty : UpgradeSet := {}

instance : EmptyCollection UpgradeSet := ⟨empty⟩

instance : Inhabited UpgradeSet := ⟨empty⟩

/-- Membership of a place: its bit is set. -/
instance : Membership Nat UpgradeSet := ⟨fun s place => s.bits.getLsbD place = true⟩

instance (place : Nat) (s : UpgradeSet) : Decidable (place ∈ s) :=
  inferInstanceAs (Decidable (s.bits.getLsbD place = true))

theorem mem_def {place : Nat} {s : UpgradeSet} :
    place ∈ s ↔ s.bits.getLsbD place = true :=
  Iff.rfl

@[ext] theorem ext {a b : UpgradeSet} (h : ∀ place, place ∈ a ↔ place ∈ b) :
    a = b := by
  have bits : a.bits = b.bits := by
    apply BitVec.eq_of_getLsbD_eq
    intro place _
    have same := h place
    rw [mem_def, mem_def] at same
    exact Bool.eq_iff_iff.mpr same
  cases a; cases b; simp_all

theorem lt_of_mem {place : Nat} {s : UpgradeSet} (h : place ∈ s) :
    place < capacity :=
  BitVec.lt_of_getLsbD h

@[simp] theorem not_mem_empty (place : Nat) : ¬ place ∈ (∅ : UpgradeSet) := by
  intro h
  have bit : (0 : BitVec 128).getLsbD place = true := h
  simp at bit

/-- The set of one place, if the registry has it. -/
def single? (place : Nat) : Option UpgradeSet :=
  if place < capacity then some ⟨BitVec.twoPow 128 place⟩ else none

theorem mem_of_single?_eq_some {place : Nat} {s : UpgradeSet}
    (h : single? place = some s) (other : Nat) : other ∈ s ↔ other = place := by
  by_cases lt : place < capacity
  · rw [single?, if_pos lt] at h
    cases h
    have wide : place < 128 := lt
    simp [mem_def, BitVec.getLsbD_twoPow, wide, eq_comm]
  · rw [single?, if_neg lt] at h
    exact absurd h (by simp)

instance : Union UpgradeSet := ⟨fun a b => ⟨a.bits ||| b.bits⟩⟩

instance : Inter UpgradeSet := ⟨fun a b => ⟨a.bits &&& b.bits⟩⟩

instance : SDiff UpgradeSet := ⟨fun a b => ⟨a.bits &&& ~~~b.bits⟩⟩

@[simp] theorem mem_union {place : Nat} {a b : UpgradeSet} :
    place ∈ a ∪ b ↔ place ∈ a ∨ place ∈ b := by
  change (a.bits ||| b.bits).getLsbD place = true ↔ _
  simp [mem_def]

@[simp] theorem mem_inter {place : Nat} {a b : UpgradeSet} :
    place ∈ a ∩ b ↔ place ∈ a ∧ place ∈ b := by
  change (a.bits &&& b.bits).getLsbD place = true ↔ _
  simp [mem_def]

@[simp] theorem mem_sdiff {place : Nat} {a b : UpgradeSet} :
    place ∈ a \ b ↔ place ∈ a ∧ ¬ place ∈ b := by
  change (a.bits &&& ~~~b.bits).getLsbD place = true ↔ _
  rw [BitVec.getLsbD_and, BitVec.getLsbD_not, mem_def, mem_def]
  constructor
  · intro h
    simp only [Bool.and_eq_true, Bool.not_eq_true', decide_eq_true_eq] at h
    exact ⟨h.1, by simp [h.2.2]⟩
  · intro h
    have lt : place < 128 := lt_of_mem h.1
    simp only [Bool.not_eq_true] at h
    simp only [h.1, h.2, lt, decide_true, Bool.not_false, Bool.and_self]

def nonempty (s : UpgradeSet) : Bool :=
  s.bits != 0

def meets (a b : UpgradeSet) : Bool :=
  (a ∩ b).nonempty

def covers (a b : UpgradeSet) : Bool :=
  a ∩ b == b

theorem nonempty_iff {s : UpgradeSet} : s.nonempty = true ↔ ∃ place, place ∈ s := by
  simp only [nonempty, bne_iff_ne, ne_eq]
  constructor
  · intro h
    refine Classical.byContradiction fun none => h ?_
    apply BitVec.eq_of_getLsbD_eq
    intro place _
    have bit : ¬ s.bits.getLsbD place = true := fun mem => none ⟨place, mem⟩
    simpa using bit
  · rintro ⟨place, mem⟩ zero
    rw [mem_def, zero] at mem
    simp at mem

theorem meets_iff {a b : UpgradeSet} :
    a.meets b = true ↔ ∃ place, place ∈ a ∧ place ∈ b := by
  simp [meets, nonempty_iff]

theorem covers_iff {a b : UpgradeSet} :
    a.covers b = true ↔ ∀ place, place ∈ b → place ∈ a := by
  simp only [covers, beq_iff_eq]
  constructor
  · intro h place mem
    exact (mem_inter.mp (h.symm ▸ mem)).1
  · intro h
    ext place
    simpa using h place

def places (s : UpgradeSet) : List Nat :=
  (List.range capacity).filter (· ∈ s)

@[simp] theorem mem_places {place : Nat} {s : UpgradeSet} :
    place ∈ s.places ↔ place ∈ s := by
  simp only [places, List.mem_filter, List.mem_range, decide_eq_true_eq]
  exact ⟨fun h => h.2, fun h => ⟨lt_of_mem h, h⟩⟩

def size (s : UpgradeSet) : Nat :=
  s.places.length

/-- The bits as a hexadecimal number. -/
def text (s : UpgradeSet) : String :=
  Text.writeHex 1 s.bits.toNat

end UpgradeSet

end BattleRoster
