import BattleRoster.Collection.OrderedMap
import BattleRoster.Player.Slot
import BattleRoster.Upgrade.Blueprint

/-!
# Bearers of upgrades

A bearer is an object of the game that belongs to a player.  It has modules,
upgrades of its own, statuses and a log of cues.  An evaluation attempts every
module against the upgrades of the player and the object; what the effects ask
for is applied when all modules have been attempted.
-/

namespace BattleRoster

structure Bearer where
  name : String
  owner : Slot
  upgrades : UpgradeSet := ∅
  modules : List Module := []
  statuses : OrderedMap String Unit := {}
  cues : List String := []
deriving DecidableEq

namespace Bearer

def addModule (b : Bearer) (m : Module) : Bearer :=
  { b with modules := b.modules ++ [m] }

def moduleStates (b : Bearer) : List (String × Bool) :=
  b.modules.map fun m => (m.name, m.gate.executed)

/-! ## Losing upgrades -/

/-- Reset the modules that have one of the lost upgrades as a trigger. -/
def resetModules (b : Bearer) (lost : UpgradeSet) : List String × Bearer :=
  let results := b.modules.map (·.reset lost)
  ((results.filter (·.1)).map (·.2.name),
    { b with modules := results.map (·.2) })

def removeUpgrades (b : Bearer) (upgrades : UpgradeSet) : List String × Bearer :=
  resetModules { b with upgrades := b.upgrades \ upgrades } upgrades

/-! ## Evaluation -/

/-- Attempt modules one after the other, with the names of those that fired. -/
def attemptAll (held : UpgradeSet) :
    List Module → Requests → List Module × List String × Requests
  | [], requests => ([], [], requests)
  | m :: modules, requests =>
      let (fired, m, requests) := m.attempt held requests
      let (modules, names, requests) := attemptAll held modules requests
      (m :: modules, if fired then m.name :: names else names, requests)

/--
Apply what the effects of an evaluation asked for.  Removals concern the
upgrades of the object only.
-/
def apply (b : Bearer) (requests : Requests) : Bearer :=
  let b := { b with
    cues := b.cues ++ requests.cues
    statuses := b.statuses.insertAll (requests.statuses.map fun status => (status, ())) }
  let removed := b.upgrades ∩ requests.removals
  if removed.nonempty then (b.removeUpgrades removed).2 else b

/-- Evaluate all modules; the result names those that fired, in order. -/
def update (b : Bearer) (player : UpgradeSet) : List String × Bearer :=
  let (modules, fired, requests) := attemptAll (player ∪ b.upgrades) b.modules {}
  (fired, apply { b with modules } requests)

def giveUpgrades (b : Bearer) (upgrades player : UpgradeSet) : List String × Bearer :=
  update { b with upgrades := b.upgrades ∪ upgrades } player

/-! ## Records -/

def gateRecords (b : Bearer) : List GateRecord :=
  b.modules.map (·.gate.record)

def checkRecords (b : Bearer) (records : List GateRecord) : Except UpgradeError Unit :=
  if records.length ≠ b.modules.length then
    .error (.moduleCount records.length b.modules.length)
  else
    records.forM GateRecord.check

/-- Take over saved states gate by gate; those before a refusal stay. -/
def restoreGates : List Module → List GateRecord →
    Except UpgradeError Unit × List Module
  | m :: modules, record :: records =>
      match m.gate.restore record with
      | .error e => (.error e, m :: modules)
      | .ok gate =>
          let (result, modules) := restoreGates modules records
          (result, { m with gate } :: modules)
  | modules, _ => (.ok (), modules)

/-- Take over the saved states of the gates when all of them have been checked. -/
def takeRecords (b : Bearer) (records : List GateRecord) :
    Except UpgradeError Unit × Bearer :=
  match b.checkRecords records with
  | .error e => (.error e, b)
  | .ok () =>
      let (result, modules) := restoreGates b.modules records
      (result, { b with modules })

def restoreRecords (b : Bearer) (records : List GateRecord) :
    Except UpgradeError Bearer :=
  match b.takeRecords records with
  | (.ok (), b) => .ok b
  | (.error e, _) => .error e

end Bearer

end BattleRoster
