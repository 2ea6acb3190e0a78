import BattleRoster.Player.Stance
import BattleRoster.Side.Basic
import BattleRoster.Team.Basic
import BattleRoster.Upgrade.Set

/-!
# Players

The state of one slot of a roster.  Stances are kept towards teams, and the
computer's hold on a player is kept with the teams that it manages.
-/

namespace BattleRoster

structure Commander where
  teams : List TeamId := []
deriving DecidableEq, Repr, Inhabited

/-- The state of a slot; by default it is vacant. -/
structure Player where
  name : String := ""
  displayName : String := ""
  faction : String := ""
  controller : Controller := .neutral
  lobbySlot : Option UInt64 := none
  stances : OrderedMap TeamId Stance := {}
  defaultTeam : Option TeamId := none
  buildings : List Building := []
  commander : Option Commander := none
  isLocal : Bool := false
  upgrades : UpgradeSet := ∅
deriving DecidableEq, Inhabited

/-- The name of a player as it is shown: a dash stands for the empty name. -/
def shownName (name : String) : String :=
  if name = "" then "-" else name

namespace Player

def vacant : Player := {}

/-- A player under another controller; only the computer has a commander. -/
def control (p : Player) (controller : Controller) : Player :=
  { p with
    controller
    commander :=
      match controller with
      | .computer => some (p.commander.getD {})
      | .human | .neutral => none }

def ofSide (s : Side) : Player :=
  control {
    name := s.playerName
    displayName := s.displayName
    faction := s.faction
    lobbySlot := s.lobbySlot
    buildings := s.release.1 }
    (if s.isHuman then .human else .computer)

/-- Forget what belongs to one game, whoever has the slot in the next one. -/
def clear (p : Player) : Player :=
  { p with
    lobbySlot := none
    stances := {}
    defaultTeam := none
    buildings := []
    commander := none
    isLocal := false
    upgrades := ∅ }

def vacate (p : Player) : Player :=
  { p.clear with
    name := ""
    displayName := ""
    faction := ""
    controller := .neutral }

/-- Let the player of a side take the slot, and the side's buildings with it. -/
def seat (p : Player) (s : Side) : Player :=
  let p := { p.clear with
    name := s.playerName
    displayName := s.displayName
    faction := s.faction }
  let p := p.control (if s.isHuman then .human else .computer)
  { p with lobbySlot := s.lobbySlot, buildings := s.release.1 }

/-- A vacated slot is vacant, whoever had it. -/
@[simp] theorem vacate_eq (p : Player) : p.vacate = vacant :=
  rfl

@[simp] theorem seat_eq (p : Player) (s : Side) : p.seat s = ofSide s :=
  rfl

def markLocal (p : Player) (isLocal : Bool) : Player :=
  { p with isLocal }

/-- Give a player its default team, which a commander manages from then on. -/
def setDefaultTeam (p : Player) (team : Option TeamId) : Player :=
  { p with
    defaultTeam := team
    commander :=
      match p.commander, team with
      | some c, some t => some (if t ∈ c.teams then c else { c with teams := c.teams ++ [t] })
      | commander, _ => commander }

def setStance (p : Player) (team : TeamId) (stance : Stance) : Player :=
  { p with stances := p.stances.insert team stance }

/-- The stance towards a team; it is neutral unless it has been set. -/
def stance (p : Player) (team : Option TeamId) : Stance :=
  match team with
  | none => .neutral
  | some t => (p.stances.get? t).getD .neutral

/-- Forget a team: its stance, its command, and as the default team. -/
def forget (p : Player) (team : TeamId) : Player :=
  { p with
    stances := p.stances.erase team
    defaultTeam := if p.defaultTeam = some team then none else p.defaultTeam
    commander := p.commander.map fun c => { c with teams := c.teams.filter (· ≠ team) } }

def addUpgrades (p : Player) (upgrades : UpgradeSet) : Player :=
  { p with upgrades := p.upgrades ∪ upgrades }

def removeUpgrades (p : Player) (upgrades : UpgradeSet) : Player :=
  { p with upgrades := p.upgrades \ upgrades }

end Player

end BattleRoster
