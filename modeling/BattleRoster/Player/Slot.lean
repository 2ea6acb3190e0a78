import BattleRoster.Text.Hexadecimal

/-!
# Player slots

A roster has sixteen slots.  Sets of slots are words of 32 bits, so a set from
outside may have bits that belong to no slot.
-/

namespace BattleRoster

abbrev slotCount : Nat := 16

abbrev Slot := Fin 16

namespace Slot

def neutral : Slot := 0

def ofNat? (n : Nat) : Option Slot :=
  if h : n < 16 then some ⟨n, h⟩ else none

def all : List Slot := List.finRange 16

/-- Whichever slots are picked, they are picked in ascending order. -/
theorem pairwise_filter (p : Slot → Bool) : (all.filter p).Pairwise (· < ·) :=
  have ascending : all.Pairwise (· < ·) := by decide
  ascending.filter p

end Slot

/-- A set of players, one bit for each slot. -/
structure SlotSet where
  bits : BitVec 32 := 0
deriving DecidableEq, Repr

namespace SlotSet

instance : EmptyCollection SlotSet := ⟨{}⟩

instance : Inhabited SlotSet := ⟨∅⟩

def single (slot : Slot) : SlotSet where
  bits := BitVec.twoPow 32 slot

def contains (s : SlotSet) (slot : Slot) : Bool :=
  s.bits.getLsbD slot

def insert (s : SlotSet) (slot : Slot) : SlotSet where
  bits := s.bits ||| (single slot).bits

def erase (s : SlotSet) (slot : Slot) : SlotSet where
  bits := s.bits &&& ~~~(single slot).bits

def isEmpty (s : SlotSet) : Bool :=
  s.bits == 0

def meets (a b : SlotSet) : Bool :=
  (a.bits &&& b.bits) != 0

def size (s : SlotSet) : Nat :=
  ((List.range 32).filter s.bits.getLsbD).length

/-- The bits as a hexadecimal number of at least four digits. -/
def text (s : SlotSet) : String :=
  Text.writeHex 4 s.bits.toNat

end SlotSet

end BattleRoster
