import BattleRoster.Json.Decoder
import BattleRoster.Upgrade.Gate
import BattleRoster.Upgrade.Registry

/-!
# Blueprints and modules

A blueprint describes an upgrade module by the names of upgrades.  A module is
built from it by registering these names; when it fires it plays a cue and
grants a status, if the blueprint has them.
-/

namespace BattleRoster

/-- The description of a module; every part has a default. -/
structure Blueprint where
  name : String := ""
  triggers : List String := []
  conflicts : List String := []
  removes : List String := []
  needsAll : Bool := false
  cue : Option String := none
  status : Option String := none
deriving DecidableEq, Repr, Inhabited

namespace Blueprint

open Json in
def decode : Decoder Blueprint := fun v => do
  let fields ← Field.ofRecord? ["name", "triggered_by", "conflicts_with",
    "removes_upgrades", "requires_all_triggers", "fx", "grants_status"] v
  let names := Decoder.list Decoder.string
  let text := Decoder.nullable Decoder.string
  match fields with
  | [name, triggers, conflicts, removes, needsAll, cue, status] =>
      return {
        name := ← name.withDefault "" Decoder.string
        triggers := ← triggers.withDefault [] names
        conflicts := ← conflicts.withDefault [] names
        removes := ← removes.withDefault [] names
        needsAll := ← needsAll.withDefault false Decoder.bool
        cue := ← cue.withDefault none text
        status := ← status.withDefault none text }
  | _ => none

def readAll (text : String) : Except UpgradeError (List Blueprint) :=
  match (Json.Value.read? text).bind (Json.Decoder.list decode) with
  | some blueprints => .ok blueprints
  | none => .error .malformedBlueprints

end Blueprint

structure Module where
  name : String
  gate : Gate
  cue : Option String := none
  status : Option String := none
deriving DecidableEq, Repr

namespace Module

/-- Build a module; the names before one that is refused stay registered. -/
def build (b : Blueprint) (r : Registry) : Except UpgradeError Module × Registry :=
  match r.registerAll b.triggers with
  | (.error e, r) => (.error e, r)
  | (.ok triggers, r) =>
      match r.registerAll b.conflicts with
      | (.error e, r) => (.error e, r)
      | (.ok conflicts, r) =>
          match r.registerAll b.removes with
          | (.error e, r) => (.error e, r)
          | (.ok removes, r) =>
              (.ok {
                name := b.name
                gate := { triggers, conflicts, removes, needsAll := b.needsAll }
                cue := b.cue
                status := b.status }, r)

def behaviour (m : Module) : Firing.Behaviour where
  cue requests :=
    match m.cue with
    | some cue => requests.play cue
    | none => requests
  effect f :=
    match m.status with
    | some status => { f with requests := f.requests.grant status }
    | none => f

def attempt (m : Module) (held : UpgradeSet) (requests : Requests) :
    Bool × Module × Requests :=
  let (fired, f) := Firing.attempt m.behaviour held { gate := m.gate, requests }
  (fired, { m with gate := f.gate }, f.requests)

def reset (m : Module) (lost : UpgradeSet) : Bool × Module :=
  let (undone, gate) := m.gate.reset lost
  (undone, { m with gate })

end Module

end BattleRoster
