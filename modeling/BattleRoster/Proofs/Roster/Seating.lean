import BattleRoster.Proofs.Roster.FreshStart
import Mathlib.Data.List.Basic

/-!
# Who sits where

The named sides take the slots after the neutral one in their order.  Which
player is local and who controls the first one is decided on the way; apart from
that each player is what its side describes.
-/

namespace BattleRoster

/-- A player apart from who controls it and whether it is local. -/
def Player.identity (p : Player) : Player :=
  { p with controller := .neutral, commander := none, isLocal := false }

namespace Roster

/-- The side whose player has a slot. -/
def sideAt? (sides : List Side) (slot : Slot) : Option Side :=
  if slot = Slot.neutral then none else (sides.filter (·.isNamed))[slot.val - 1]?

/-- The name of the player that has a slot. -/
def nameAt (sides : List Side) (slot : Slot) : String :=
  ((sideAt? sides slot).map Side.playerName).getD ""

/-- The neutral player is the first active one, so its name leads to it. -/
theorem find?_neutral {r : Roster} (active : 1 ≤ r.count) :
    r.find? r.neutral.name = some Slot.neutral := by
  have first : r.active = Slot.neutral :: Slot.all.tail.filter (·.val < r.count) := by
    have head : Slot.all = Slot.neutral :: Slot.all.tail := by decide
    rw [Roster.active, head]
    exact List.filter_cons_of_pos (decide_eq_true active)
  rw [find?, first]
  exact List.find?_cons_of_pos (beq_self_eq_true _)

/-- Where a name leads to depends on the names of the active players alone. -/
theorem find?_congr {r r' : Roster} (count : r'.count = r.count)
    (names : ∀ slot, (r'.player slot).name = (r.player slot).name) (name : String) :
    r'.find? name = r.find? name := by
  unfold find? active
  simp only [count, names]

/-! ## What leaves a view of the players alone -/

section View

variable {α : Type} {f : Player → α}

theorem view_modify {change : Player → Player} (same : ∀ p, f (change p) = f p)
    (r : Roster) (slot other : Slot) :
    f ((r.modify slot change).player other) = f (r.player other) := by
  rw [player_modify]
  split
  · next here => rw [same, here]
  · rfl

theorem view_setLocal (marked : ∀ p isLocal, f (Player.markLocal p isLocal) = f p)
    (r : Roster) (slot : Option Slot) (other : Slot) :
    f ((r.setLocal slot).player other) = f (r.player other) := by
  unfold setLocal
  dsimp only
  split
  · rfl
  · rw [view_modify (marked · true)]
    exact view_modify (marked · false) r r.localSlot other

end View

@[simp] theorem count_setLocal (r : Roster) (slot : Option Slot) :
    (r.setLocal slot).count = r.count := by
  unfold setLocal
  dsimp only
  split <;> rfl

theorem identity_chooseFallback (s : Seating) (other : Slot) :
    ((chooseFallback s).player other).identity = (s.roster.player other).identity := by
  unfold chooseFallback
  split
  · rfl
  · split
    · rw [view_setLocal (f := Player.identity) fun _ _ => rfl]
      have controlled (p : Player) : (p.control .human).identity = p.identity := rfl
      exact view_modify controlled s.roster _ other
    · rfl

theorem count_chooseFallback (s : Seating) : (chooseFallback s).count = s.roster.count := by
  unfold chooseFallback
  split
  · rfl
  · split
    · rw [count_setLocal]
      rfl
    · rfl

/-! ## Taking one seat -/

theorem seat_of_unnamed (o : Options) (s : Seating) {side : Side}
    (unnamed : side.isNamed = false) : s.seat o side = s := by
  simp [Seating.seat, unnamed]

/-- A named side takes the next slot. -/
theorem count_seat (o : Options) (s : Seating) {side : Side} (named : side.isNamed = true)
    (free : s.roster.count < 16) : (s.seat o side).roster.count = s.roster.count + 1 := by
  unfold Seating.seat
  rw [if_pos named]
  simp only [Slot.ofNat?, free, ↓reduceDIte]
  split
  · rw [count_setLocal]
  · rfl

section View

variable {α : Type} {f : Player → α}

theorem view_seat (marked : ∀ p isLocal, f (Player.markLocal p isLocal) = f p)
    (o : Options) (s : Seating) {side : Side} (named : side.isNamed = true)
    (free : s.roster.count < 16) (slot : Slot) :
    f ((s.seat o side).roster.player slot) =
      if slot.val = s.roster.count then f (Player.ofSide side)
      else f (s.roster.player slot) := by
  have placed : f ((s.roster.modify ⟨s.roster.count, free⟩ (·.seat side)).player slot) =
      if slot.val = s.roster.count then f (Player.ofSide side)
      else f (s.roster.player slot) := by
    rw [player_modify]
    simp only [Fin.ext_iff, eq_comm (a := s.roster.count), apply_ite f]
    rfl
  unfold Seating.seat
  rw [if_pos named]
  simp only [Slot.ofNat?, free, ↓reduceDIte]
  split
  · rw [view_setLocal marked]
    exact placed
  · exact placed

end View

/-! ## Taking all seats -/

theorem namedCount_cons (side : Side) (sides : List Side) :
    namedCount (side :: sides) = (if side.isNamed then 1 else 0) + namedCount sides := by
  unfold namedCount
  by_cases named : side.isNamed = true
  · simp [named, Nat.add_comm]
  · simp [named]

theorem count_seats (o : Options) (sides : List Side) (s : Seating)
    (free : s.roster.count + namedCount sides ≤ 16) :
    (sides.foldl (Seating.seat o) s).roster.count = s.roster.count + namedCount sides := by
  induction sides generalizing s with
  | nil => rfl
  | cons side sides ih =>
      rw [namedCount_cons] at free ⊢
      by_cases named : side.isNamed = true
      · rw [if_pos named] at free ⊢
        have grown := count_seat o s named (by omega)
        rw [List.foldl_cons, ih _ (by omega), grown]
        omega
      · rw [if_neg named] at free ⊢
        rw [List.foldl_cons, seat_of_unnamed o s (by simpa using named), ih _ (by omega)]
        omega

/-- The named sides fill the slots from the first free one on. -/
theorem view_seats {α : Type} {f : Player → α}
    (marked : ∀ p isLocal, f (Player.markLocal p isLocal) = f p) (o : Options)
    (sides : List Side) (s : Seating) (free : s.roster.count + namedCount sides ≤ 16)
    (slot : Slot) :
    f ((sides.foldl (Seating.seat o) s).roster.player slot) =
      if slot.val < s.roster.count then f (s.roster.player slot)
      else
        match (sides.filter (·.isNamed))[slot.val - s.roster.count]? with
        | some side => f (Player.ofSide side)
        | none => f (s.roster.player slot) := by
  induction sides generalizing s with
  | nil => simp
  | cons side sides ih =>
      rw [namedCount_cons] at free
      by_cases named : side.isNamed = true
      · rw [if_pos named] at free
        have grown := count_seat o s named (by omega)
        rw [List.foldl_cons, ih _ (by omega), view_seat marked o s named (by omega), grown,
          List.filter_cons_of_pos named]
        rcases Nat.lt_trichotomy slot.val s.roster.count with before | here | after
        · rw [if_pos (by omega), if_neg (by omega), if_pos before]
        · rw [if_pos (by omega), if_pos here, if_neg (by omega), here]
          simp
        · have place : slot.val - s.roster.count = slot.val - (s.roster.count + 1) + 1 := by
            omega
          rw [if_neg (by omega), if_neg (by omega), if_neg (by omega), place,
            List.getElem?_cons_succ]
      · rw [if_neg named] at free
        rw [List.foldl_cons, seat_of_unnamed o s (by simpa using named), ih _ (by omega),
          List.filter_cons_of_neg named]

/-- As many players as named sides become active. -/
theorem count_seatAll (o : Options) {sides : List Side} (few : namedCount sides ≤ 15) :
    (seatAll o sides initial).count = namedCount sides + 1 := by
  have seated : (sides.foldl (Seating.seat o) { roster := initial }).roster.count =
      1 + namedCount sides := by
    rw [count_seats]
    · rfl
    · change 1 + namedCount sides ≤ 16
      omega
  unfold seatAll
  rw [count_chooseFallback]
  split
  · change (sides.foldl (Seating.seat o) { roster := initial }).roster.count = _
    rw [seated, Nat.add_comm]
  · rw [seated, Nat.add_comm]

/-- Apart from marks the slots hold the players of their sides, and nobody else. -/
theorem view_filled {α : Type} {f : Player → α}
    (marked : ∀ p isLocal, f (Player.markLocal p isLocal) = f p) (o : Options)
    {sides : List Side} (few : namedCount sides ≤ 15) (slot : Slot) :
    f ((sides.foldl (Seating.seat o) { roster := initial }).roster.player slot) =
      match sideAt? sides slot with
      | some side => f (Player.ofSide side)
      | none => f Player.vacant := by
  have blank : f (initial.player slot) = f Player.vacant := by
    unfold initial
    rw [player_vacate]
    split
    · exact marked Player.vacant true
    · rfl
  have free : initial.count + namedCount sides ≤ 16 := by
    change 1 + namedCount sides ≤ 16
    omega
  rw [view_seats marked o sides { roster := initial } free, blank]
  unfold sideAt?
  by_cases neutral : slot = Slot.neutral
  · subst neutral
    rfl
  · have positive : ¬ slot.val < initial.count := fun lt => neutral (Fin.ext (by
      change slot.val < 1 at lt
      change slot.val = 0
      omega))
    rw [if_neg positive, if_neg neutral]
    rfl

/-- The player in a slot is the one that its side describes, or nobody. -/
theorem identity_seatAll (o : Options) {sides : List Side} (few : namedCount sides ≤ 15)
    (slot : Slot) :
    ((seatAll o sides initial).player slot).identity =
      match sideAt? sides slot with
      | some side => (Player.ofSide side).identity
      | none => Player.vacant := by
  have filled := view_filled (f := Player.identity) (fun _ _ => rfl) o few slot
  unfold seatAll
  rw [identity_chooseFallback]
  split
  · exact filled
  · exact filled

theorem name_seatAll (o : Options) {sides : List Side} (few : namedCount sides ≤ 15)
    (slot : Slot) : ((seatAll o sides initial).player slot).name = nameAt sides slot := by
  have same := congrArg Player.name (identity_seatAll o few slot)
  unfold nameAt
  cases seated : sideAt? sides slot with
  | none =>
      rw [seated] at same
      exact same
  | some side =>
      rw [seated] at same
      exact same

/-! ## What holds of every player -/

section Everyone

variable {P : Player → Prop} {r : Roster}

theorem forall_player_modify (all : ∀ slot, P (r.player slot)) {change : Player → Player}
    (keeps : ∀ p, P p → P (change p)) (slot other : Slot) :
    P ((r.modify slot change).player other) := by
  rw [player_modify]
  split
  · exact keeps _ (all slot)
  · exact all other

theorem forall_player_setLocal (marked : ∀ p isLocal, P p → P (p.markLocal isLocal))
    (all : ∀ slot, P (r.player slot)) (slot : Option Slot) (other : Slot) :
    P ((r.setLocal slot).player other) := by
  have unmarked := forall_player_modify all (marked · false) r.localSlot
  unfold setLocal
  dsimp only
  split
  · exact all other
  · exact forall_player_modify unmarked (marked · true) _ other

theorem forall_player_initial (marked : ∀ p isLocal, P p → P (p.markLocal isLocal))
    (vacant : P Player.vacant) (slot : Slot) : P (initial.player slot) := by
  unfold initial
  rw [player_vacate]
  split
  · exact marked _ true vacant
  · exact vacant

theorem forall_player_seat (marked : ∀ p isLocal, P p → P (p.markLocal isLocal))
    (seated : ∀ side, P (Player.ofSide side)) (o : Options) {s : Seating}
    (all : ∀ slot, P (s.roster.player slot)) (side : Side) (slot : Slot) :
    P ((s.seat o side).roster.player slot) := by
  unfold Seating.seat
  split
  · split
    · exact all slot
    · next place _ =>
        have taken : ∀ slot, P (Roster.player
            { s.roster.modify place (·.seat side) with count := s.roster.count + 1 } slot) :=
          forall_player_modify all (fun p _ => p.seat_eq side ▸ seated side) place
        dsimp only
        split
        · exact forall_player_setLocal marked taken (some place) slot
        · exact taken slot
  · exact all slot

theorem forall_player_chooseFallback (marked : ∀ p isLocal, P p → P (p.markLocal isLocal))
    (controlled : ∀ p, P p → P (p.control .human)) {s : Seating}
    (all : ∀ slot, P (s.roster.player slot)) (slot : Slot) :
    P ((chooseFallback s).player slot) := by
  unfold chooseFallback
  split
  · exact all slot
  · split
    · exact forall_player_setLocal marked (forall_player_modify all controlled _) _ slot
    · exact all slot

/--
What holds of vacant slots and of the players of sides holds of everyone when the
seats are taken, if it has nothing to do with marks and survives a human.
-/
theorem forall_player_seatAll (marked : ∀ p isLocal, P p → P (p.markLocal isLocal))
    (vacant : P Player.vacant) (seated : ∀ side, P (Player.ofSide side))
    (controlled : ∀ p, P p → P (p.control .human)) (o : Options) (sides : List Side) :
    ∀ slot, P ((seatAll o sides initial).player slot) := by
  have all : ∀ slot,
      P ((sides.foldl (Seating.seat o) { roster := initial }).roster.player slot) :=
    List.foldlRecOn sides (Seating.seat o)
      (motive := fun s => ∀ slot, P (s.roster.player slot))
      (forall_player_initial marked vacant)
      fun _ all side _ => forall_player_seat marked seated o all side
  unfold seatAll
  refine forall_player_chooseFallback marked controlled fun slot => ?_
  dsimp only
  split
  · exact all slot
  · exact all slot

end Everyone

/-- What every setting of a stance keeps is still there when all stances are set. -/
theorem stances_induction {Q : Roster → Prop}
    (keeps : ∀ r slot other stance, Q r → Q (r.setStance slot other stance)) {r : Roster}
    (holds : Q r) (sides : List (Side × Slot)) :
    Q ((declareAll r sides).active.foldl settle (declareAll r sides)) := by
  have declared : Q (declareAll r sides) := by
    refine List.foldlRecOn sides _ holds fun _ holds (side, slot) _ => ?_
    refine List.foldlRecOn (declarations side) _ holds fun r holds declaration _ => ?_
    unfold declare
    split
    · exact keeps r slot _ declaration.2 holds
    · exact holds
  refine List.foldlRecOn _ settle declared fun r holds slot _ => ?_
  unfold settle
  dsimp only
  split
  · exact keeps r slot slot .allies holds
  · exact keeps _ slot Slot.neutral .neutral (keeps r slot slot .allies holds)

/-! ## Setting up a game -/

section NewGame

variable {σ : Type} [TeamSource σ] {o : Options} {sides : List Side} {r : Roster} {teams : σ}

/-- A new game is refused exactly when there are more named sides than free slots. -/
theorem newGame_eq_error {e : RosterError} :
    newGame o sides r teams = .error e ↔
      15 < namedCount sides ∧ e = .capacityExceeded (namedCount sides + 1) := by
  unfold newGame
  by_cases many : slotCount < namedCount sides + 1
  · rw [if_pos many, Except.error.injEq]
    exact ⟨fun same => ⟨Nat.succ_lt_succ_iff.mp many, same.symm⟩,
      fun refused => refused.2.symm⟩
  · rw [if_neg many]
    exact ⟨fun refused => (nomatch refused),
      fun refused => absurd (Nat.succ_lt_succ refused.1) many⟩

/-- Sides that find room are not refused. -/
theorem exists_newGame (o : Options) (r : Roster) (teams : σ) (few : namedCount sides ≤ 15) :
    ∃ set, newGame o sides r teams = .ok set := by
  cases started : newGame o sides r teams with
  | ok set => exact ⟨set, rfl⟩
  | error e => exact absurd (newGame_eq_error.mp started).1 (Nat.not_lt.mpr few)

variable {set : NewGame σ}

/-- A roster that is not refused has a slot for every named side. -/
theorem namedCount_le_of_newGame (started : newGame o sides r teams = .ok set) :
    namedCount sides ≤ 15 := by
  refine Nat.le_of_not_lt fun many => ?_
  rw [newGame_eq_error.mpr ⟨many, rfl⟩] at started
  cases started

/-- A new game keeps the sides, and takes the buildings of those that are named. -/
theorem sides_newGame (started : newGame o sides r teams = .ok set) :
    set.sides = released sides := by
  unfold newGame at started
  split at started
  · cases started
  · cases started
    rfl

/--
What holds when the seats are taken, and survives default teams of active players and
stances, holds of the roster of a new game.
-/
theorem newGame_induction {Q : Roster → Prop}
    (teamed : ∀ (r : Roster) (slot : Slot) team, slot.val < r.count → Q r →
      Q (r.modify slot (·.setDefaultTeam team)))
    (related : ∀ r slot team stance, Q r → Q (r.modify slot (·.setStance team stance)))
    (started : newGame o sides r teams = .ok set) (seated : Q (seatAll o sides initial)) :
    Q set.roster := by
  have assigned (r : Roster) (teams : σ) (holds : Q r) : Q (assignTeams r teams).1 := by
    refine And.left (b := (assignTeams r teams).1.count = r.count) ?_
    refine List.foldlRecOn r.active assignTeam
      (motive := fun state : Roster × σ => Q state.1 ∧ state.1.count = r.count)
        ⟨holds, rfl⟩ ?_
    rintro ⟨before, teams⟩ ⟨holds, count⟩ slot mem
    exact ⟨teamed before slot _ (count ▸ mem_active.mp mem) holds, count⟩
  unfold newGame at started
  split at started
  · cases started
  · cases started
    dsimp only [reset]
    rw [vacate_eq_initial]
    refine stances_induction (fun r slot other stance holds => ?_) (assigned _ _ seated) _
    unfold setStance
    split
    · next team _ => exact related r slot team stance holds
    · exact holds

/-- The neutral player and those of the named sides are active. -/
theorem count_newGame (started : newGame o sides r teams = .ok set) :
    set.roster.count = namedCount sides + 1 :=
  newGame_induction (Q := fun r => r.count = namedCount sides + 1)
    (fun _ _ _ _ same => same) (fun _ _ _ _ same => same) started
    (count_seatAll o (namedCount_le_of_newGame started))

/-- What neither a default team nor a stance touches is as it was when the seats were taken. -/
theorem view_newGame {α : Type} {f : Player → α}
    (teamed : ∀ p team, f (Player.setDefaultTeam p team) = f p)
    (related : ∀ p team stance, f (Player.setStance p team stance) = f p)
    (started : newGame o sides r teams = .ok set) (slot : Slot) :
    f (set.roster.player slot) = f ((seatAll o sides initial).player slot) :=
  newGame_induction
    (Q := fun r => f (r.player slot) = f ((seatAll o sides initial).player slot))
    (fun r other team _ same => (view_modify (teamed · team) r other slot).trans same)
    (fun r other team stance same => (view_modify (related · team stance) r other slot).trans same)
    started rfl

/-- The players of a new game have the names of their sides. -/
theorem name_newGame (started : newGame o sides r teams = .ok set) (slot : Slot) :
    (set.roster.player slot).name = nameAt sides slot := by
  rw [← name_seatAll o (namedCount_le_of_newGame started) slot]
  exact view_newGame (fun _ _ => rfl) (fun _ _ _ => rfl) started slot

end NewGame

end Roster

end BattleRoster
