import BattleRoster.Roster.Basic

/-!
# Saved rosters

A record of a roster has a version, the number of active players and the state
of each.  It is taken over only if the version is known and both numbers fit.
-/

namespace BattleRoster

structure PlayerRecord where
  name : String
  controller : Controller
  defaultTeam : Option TeamId
  stances : List (TeamId × Stance)
  upgrades : UpgradeSet
deriving DecidableEq, Repr

/-- The saved state of the active players. -/
structure RosterRecord where
  version : UInt8
  count : UInt64
  players : List PlayerRecord
deriving DecidableEq, Repr

def RosterRecord.current : UInt8 := 1

inductive RecordError where
  | version (found : UInt8)
  | playerCount (found : UInt64) (expected : Nat)
  | recordCount (declared : UInt64) (records : Nat)
deriving DecidableEq, Repr

def RecordError.message : RecordError → String
  | .version found => s!"unsupported snapshot version {found} (current is 1)"
  | .playerCount found expected => s!"invalid player count {found}, should be {expected}"
  | .recordCount declared records =>
      s!"snapshot declares {declared} players but carries {records} records"

namespace Player

def record (p : Player) : PlayerRecord where
  name := p.name
  controller := p.controller
  defaultTeam := p.defaultTeam
  stances := p.stances.entries
  upgrades := p.upgrades

/-- Take over a saved state; a commander stays if there was one. -/
def restore (p : Player) (record : PlayerRecord) : Player :=
  { p.control record.controller with
    name := record.name
    defaultTeam := record.defaultTeam
    stances := .ofList record.stances
    upgrades := record.upgrades }

end Player

namespace Roster

def record (r : Roster) : RosterRecord where
  version := RosterRecord.current
  count := UInt64.ofNat r.count
  players := r.active.map fun slot => (r.player slot).record

def checkRecord (r : Roster) (record : RosterRecord) : Except RecordError Unit :=
  if record.version = 0 ∨ RosterRecord.current < record.version then
    .error (.version record.version)
  else if record.count.toNat ≠ r.count then
    .error (.playerCount record.count r.count)
  else if record.players.length ≠ record.count.toNat then
    .error (.recordCount record.count record.players.length)
  else
    .ok ()

/-- The roster with the saved states of its first players. -/
def withRecords (r : Roster) (records : List PlayerRecord) : Roster :=
  { r with
    players := r.players.mapFinIdx fun i p _ =>
      match records[i]? with
      | some record => p.restore record
      | none => p }

/-- Take over a record that fits; a refusal changes nothing. -/
def restore (r : Roster) (record : RosterRecord) : Except RecordError Roster :=
  match r.checkRecord record with
  | .error e => .error e
  | .ok () => .ok (r.withRecords record.players)

end Roster

end BattleRoster
