import BattleRoster.Upgrade.Error
import BattleRoster.Upgrade.Set

/-!
# Activation gates

A gate decides from the upgrades that are held whether a one-shot effect
fires.  Its triggers are needed all together or any one of them, and a held
conflict blocks it.  A gate that has fired stays executed until it is reset.
While the effect runs the gate is upgrading and refuses to fire again.
-/

namespace BattleRoster

structure Gate where
  triggers : UpgradeSet := ∅
  conflicts : UpgradeSet := ∅
  removes : UpgradeSet := ∅
  needsAll : Bool := false
  executed : Bool := false
  upgrading : Bool := false
deriving DecidableEq, Repr, Inhabited

/-- The saved state of a gate; its conditions are not saved. -/
structure GateRecord where
  version : UInt8
  executed : Bool
deriving DecidableEq, Repr

def GateRecord.current : UInt8 := 1

def GateRecord.check (record : GateRecord) : Except UpgradeError Unit :=
  if record.version = 0 ∨ GateRecord.current < record.version then
    .error (.gateVersion record.version)
  else
    .ok ()

namespace Gate

def triggered (g : Gate) (held : UpgradeSet) : Bool :=
  if g.needsAll then held.covers g.triggers else held.meets g.triggers

/--
Whether the held upgrades would fire the gate now.  A gate without triggers
never fires by itself.
-/
def wouldFire (g : Gate) (held : UpgradeSet) : Bool :=
  !g.executed && !g.upgrading && g.triggers.nonempty && held.nonempty &&
    !held.meets g.conflicts && g.triggered held

/--
Whether the held upgrades qualify, whatever has happened.  A gate without
triggers qualifies unless it is blocked.
-/
def qualifies (g : Gate) (held : UpgradeSet) : Bool :=
  !(held.nonempty && held.meets g.conflicts) &&
    (!g.triggers.nonempty || g.triggered held)

def reset (g : Gate) (lost : UpgradeSet) : Bool × Gate :=
  if g.executed && lost.meets g.triggers then
    (true, { g with executed := false })
  else
    (false, g)

/-- Enter the firing state, unless the gate has fired or is firing. -/
def begin? (g : Gate) : Option Gate :=
  if g.executed || g.upgrading then none else some { g with upgrading := true }

def finish (g : Gate) : Gate :=
  { g with upgrading := false, executed := true }

def record (g : Gate) : GateRecord where
  version := GateRecord.current
  executed := g.executed

def restore (g : Gate) (record : GateRecord) : Except UpgradeError Gate :=
  match record.check with
  | .error e => .error e
  | .ok () => .ok { g with executed := record.executed, upgrading := false }

end Gate

/-- What the effects ask for while they run; it is applied afterwards. -/
structure Requests where
  removals : UpgradeSet := ∅
  statuses : List String := []
  cues : List String := []
deriving DecidableEq, Repr, Inhabited

namespace Requests

def remove (r : Requests) (upgrades : UpgradeSet) : Requests :=
  { r with removals := r.removals ∪ upgrades }

def grant (r : Requests) (status : String) : Requests :=
  { r with statuses := r.statuses ++ [status] }

def play (r : Requests) (cue : String) : Requests :=
  { r with cues := r.cues ++ [cue] }

end Requests

structure Firing where
  gate : Gate
  requests : Requests := {}
deriving DecidableEq, Repr

namespace Firing

/--
What the owner of a gate does when it fires: a cue that is played first, and
an effect, which may use the gate that is firing.
-/
structure Behaviour where
  cue : Requests → Requests := id
  effect : Firing → Firing

def requestRemovals (f : Firing) : Firing :=
  if f.gate.removes.nonempty then
    { f with requests := f.requests.remove f.gate.removes }
  else
    f

/--
Fire unconditionally: the cue, the removals and the effect, and only then the
gate counts as executed.  A gate that has fired or is firing refuses.
-/
def give (b : Behaviour) (f : Firing) : Bool × Firing :=
  match f.gate.begin? with
  | none => (false, f)
  | some gate =>
      let f : Firing := { gate, requests := b.cue f.requests }
      let f := b.effect f.requestRemovals
      (true, { f with gate := f.gate.finish })

def attempt (b : Behaviour) (held : UpgradeSet) (f : Firing) : Bool × Firing :=
  if f.gate.wouldFire held then give b f else (false, f)

def refresh (b : Behaviour) (f : Firing) : Firing :=
  if f.gate.executed then b.effect f else f

def reset (lost : UpgradeSet) (f : Firing) : Bool × Firing :=
  let (undone, gate) := f.gate.reset lost
  (undone, { f with gate })

end Firing

end BattleRoster
