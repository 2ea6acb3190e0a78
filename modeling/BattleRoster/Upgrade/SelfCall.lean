import BattleRoster.Upgrade.Gate

/-!
# Calls on a gate

The calls that can be made on a gate, from outside or by the effect of the gate
itself while it fires.  Each answers with a Boolean.
-/

namespace BattleRoster

inductive SelfCall where
  | would (held : UpgradeSet)
  | qualifies (held : UpgradeSet)
  | attempt (held : UpgradeSet)
  | give
  | reset (lost : UpgradeSet)
  | refresh
deriving DecidableEq, Repr

namespace SelfCall

/-- Make one call; a refresh always answers `false`. -/
def run (b : Firing.Behaviour) (f : Firing) : SelfCall → Bool × Firing
  | .would held => (f.gate.wouldFire held, f)
  | .qualifies held => (f.gate.qualifies held, f)
  | .attempt held => f.attempt b held
  | .give => f.give b
  | .reset lost => f.reset lost
  | .refresh => (false, f.refresh b)

end SelfCall

end BattleRoster
