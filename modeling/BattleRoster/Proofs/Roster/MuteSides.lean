import BattleRoster.Proofs.Roster.Seating

/-!
# Sides that say nothing

A side without a name, teams and declarations is given the neutral player's slot
and asks for nothing there.  A new game is the same without it.
-/

namespace BattleRoster

/-- A side without a player that calls for no team and declares no stance. -/
structure Side.Mute (side : Side) : Prop where
  unnamed : side.isNamed = false
  noTeams : side.teams = []
  noDeclarations : Roster.declarations side = []

/-- A side with nothing in it is mute. -/
theorem Side.mute_blank : Side.Mute {} :=
  ⟨by decide, rfl, by decide⟩

namespace Roster

variable {keep : Side → Bool} (mute : ∀ side, keep side = false → side.Mute)

include mute

theorem namedCount_filter (sides : List Side) :
    namedCount (sides.filter keep) = namedCount sides := by
  induction sides with
  | nil => rfl
  | cons side sides ih =>
      by_cases kept : keep side = true
      · rw [List.filter_cons_of_pos kept, namedCount_cons, namedCount_cons, ih]
      · have unnamed := (mute side (by simpa using kept)).unnamed
        rw [List.filter_cons_of_neg kept, namedCount_cons, unnamed, ih]
        simp

theorem seats_filter (o : Options) (sides : List Side) (s : Seating) :
    (sides.filter keep).foldl (Seating.seat o) s = sides.foldl (Seating.seat o) s := by
  induction sides generalizing s with
  | nil => rfl
  | cons side sides ih =>
      by_cases kept : keep side = true
      · rw [List.filter_cons_of_pos kept, List.foldl_cons, List.foldl_cons, ih]
      · have unnamed := (mute side (by simpa using kept)).unnamed
        rw [List.filter_cons_of_neg kept, List.foldl_cons, seat_of_unnamed o s unnamed, ih]

theorem wanted_filter (sides : List Side) (r : Roster) :
    TeamTable.wanted (released (sides.filter keep)) r = TeamTable.wanted (released sides) r := by
  unfold TeamTable.wanted
  congr 1
  induction sides with
  | nil => rfl
  | cons side sides ih =>
      unfold released at ih ⊢
      by_cases kept : keep side = true
      · rw [List.filter_cons_of_pos kept, List.map_cons, List.map_cons, List.flatMap_cons,
          List.flatMap_cons, ih]
      · have silent := mute side (by simpa using kept)
        rw [List.filter_cons_of_neg kept, List.map_cons, List.flatMap_cons, silent.unnamed, ih]
        simp only [Bool.false_eq_true, if_false, silent.noTeams, List.map_nil]
        split <;> rfl

theorem declareAll_filter (sides : List Side) (r : Roster) (next : Nat) :
    declareAll r ((released (sides.filter keep)).zip (seats next (sides.filter keep))) =
      declareAll r ((released sides).zip (seats next sides)) := by
  induction sides generalizing r next with
  | nil => rfl
  | cons side sides ih =>
      unfold released declareAll at ih ⊢
      by_cases kept : keep side = true
      · rw [List.filter_cons_of_pos kept, List.map_cons, List.map_cons, seats, seats]
        split
        · rw [List.zip_cons_cons, List.zip_cons_cons, List.foldl_cons, List.foldl_cons, ih]
        · rw [List.zip_cons_cons, List.zip_cons_cons, List.foldl_cons, List.foldl_cons, ih]
      · have silent := mute side (by simpa using kept)
        rw [List.filter_cons_of_neg kept, List.map_cons, seats, silent.unnamed, ih]
        simp only [Bool.false_eq_true, if_false, List.zip_cons_cons, List.foldl_cons,
          silent.noDeclarations, List.foldl_nil]

/--
Without mute sides a new game leads to the same refusal, or to the same roster and
teams, whatever came before.
-/
theorem newGame_filter (o : Options) (sides : List Side) (r r' : Roster)
    (teams teams' : TeamTable) :
    newGame o (sides.filter keep) r' teams' =
      (newGame o sides r teams).map fun set =>
        { set with sides := released (sides.filter keep) } := by
  have prepared (roster : Roster) (table : TeamTable) :
      table.prepare (released (sides.filter keep)) roster =
        table.prepare (released sides) roster := by
    rw [TeamTable.prepare, wanted_filter mute, TeamTable.prepare]
  have seated : seatAll o (sides.filter keep) = seatAll o sides := by
    funext r
    rw [seatAll, seats_filter mute, seatAll]
  unfold newGame
  rw [namedCount_filter mute, reset_eq_initial, reset_eq_initial]
  split
  · rfl
  · simp only [seated, TeamSource.prepare, prepared, declareAll_filter mute]
    rfl

end Roster

end BattleRoster
