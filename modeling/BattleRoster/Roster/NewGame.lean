import BattleRoster.Options
import BattleRoster.Team.Source
import BattleRoster.Text.Split

/-!
# Setting up a game

Each named side gets the next slot and hands over its buildings.  The teams are
prepared when every player has a slot, and stances are resolved last: what the
sides declare, and then that players are allied with themselves and neutral
towards the neutral player.
-/

namespace BattleRoster

structure NewGame (σ : Type) where
  roster : Roster
  teams : σ
  sides : List Side

namespace Roster

def reset {σ : Type} [TeamSource σ] (r : Roster) (teams : σ) : Roster × σ :=
  (r.vacate, TeamSource.clear teams)

/-! ## Taking seats -/

/-- A roster that is being filled, and whether a local player was chosen. -/
structure Seating where
  roster : Roster
  localChosen : Bool := false

def Seating.choosesLocal (s : Seating) (o : Options) (side : Side) : Bool :=
  side.isLocal || (!s.localChosen && !o.network && !o.campaign && side.isHuman)

/-- Let a side take the next slot, if it is named. -/
def Seating.seat (o : Options) (s : Seating) (side : Side) : Seating :=
  if side.isNamed then
    match Slot.ofNat? s.roster.count with
    | none => s
    | some slot =>
        let roster := s.roster.modify slot (·.seat side)
        let roster := { roster with count := s.roster.count + 1 }
        if s.choosesLocal o side then
          { roster := roster.setLocal (some slot), localChosen := true }
        else
          { s with roster }
  else
    s

/-- The slot that speaks for each side, given the next one that is free. -/
def seats (next : Nat) : List Side → List Slot
  | [] => []
  | side :: sides =>
      if side.isNamed then
        (Slot.ofNat? next).getD Slot.neutral :: seats (next + 1) sides
      else
        Slot.neutral :: seats next sides

/-- The sides when the named ones have handed over their buildings. -/
def released (sides : List Side) : List Side :=
  sides.map fun side => if side.isNamed then side.release.2 else side

/-- Without a local player, the first one after the neutral becomes it. -/
def chooseFallback (s : Seating) : Roster :=
  if s.localChosen then s.roster
  else
    match s.roster.active.find? (· ≠ Slot.neutral) with
    | some slot => (s.roster.modify slot (·.control .human)).setLocal (some slot)
    | none => s.roster

def seatAll (o : Options) (sides : List Side) (r : Roster) : Roster :=
  let s := sides.foldl (Seating.seat o) { roster := r }
  let roster :=
    if o.campaign then { s.roster with humans := s.roster.campaignHumans o.skirmish }
    else s.roster
  chooseFallback { s with roster }

/-! ## Teams -/

/-- Give one player the default team that the source finds. -/
def assignTeam {σ : Type} [TeamSource σ] (state : Roster × σ) (slot : Slot) :
    Roster × σ :=
  let (r, teams) := state
  let (team, teams) := TeamSource.find? (defaultTeamName (r.player slot).name) teams
  (r.modify slot (·.setDefaultTeam team), teams)

def assignTeams {σ : Type} [TeamSource σ] (r : Roster) (teams : σ) : Roster × σ :=
  r.active.foldl assignTeam (r, teams)

/-! ## Stances -/

/-- The names that a side declares to be hostile and then those it is allied with. -/
def declarations (side : Side) : List (String × Stance) :=
  (Text.words (side.attributes.text "playerEnemies")).map (·, .enemies) ++
    (Text.words (side.attributes.text "playerAllies")).map (·, .allies)

/-- Enter one declaration of a slot; a name without a player does not count. -/
def declare (slot : Slot) (r : Roster) (declaration : String × Stance) : Roster :=
  match r.find? declaration.1 with
  | some other => r.setStance slot other declaration.2
  | none => r

def declareAll (r : Roster) (sides : List (Side × Slot)) : Roster :=
  sides.foldl (fun r (side, slot) => (declarations side).foldl (declare slot) r) r

/-- A player is allied with itself and neutral towards the neutral player. -/
def settle (r : Roster) (slot : Slot) : Roster :=
  let r := r.setStance slot slot .allies
  if slot = Slot.neutral then r else r.setStance slot Slot.neutral .neutral

/-! ## The whole -/

/-- The number of sides that get a player. -/
def namedCount (sides : List Side) : Nat :=
  (sides.filter (·.isNamed)).length

/-- Set up a game from the sides; a refusal changes nothing. -/
def newGame {σ : Type} [TeamSource σ] (o : Options) (sides : List Side)
    (r : Roster) (teams : σ) : Except RosterError (NewGame σ) :=
  if slotCount < namedCount sides + 1 then
    .error (.capacityExceeded (namedCount sides + 1))
  else
    let (r, teams) := r.reset teams
    let r := seatAll o sides r
    let left := released sides
    let teams := TeamSource.prepare left r teams
    let (r, teams) := assignTeams r teams
    let r := declareAll r (left.zip (seats 1 sides))
    let r := r.active.foldl settle r
    .ok { roster := r, teams, sides := left }

end Roster

end BattleRoster
