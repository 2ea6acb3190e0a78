/-!
# Refusals of the upgrade system
-/

namespace BattleRoster

inductive UpgradeError where
  | tooMany
  | unknown (name : String)
  | gateVersion (found : UInt8)
  | moduleCount (found expected : Nat)
  | malformedBlueprints
deriving DecidableEq, Repr

/-- The words of the library follow where it is the one that refuses. -/
def UpgradeError.message (e : UpgradeError) (words : String := "") : String :=
  match e with
  | .tooMany => "too many upgrades registered (max 128)"
  | .unknown name => s!"unknown upgrade '{name}'"
  | .gateVersion found =>
      s!"unsupported upgrade mux snapshot version {found} (current is 1)"
  | .moduleCount found expected =>
      s!"snapshot carries {found} module records, host has {expected}"
  | .malformedBlueprints => s!"failed to parse upgrade templates: {words}"

end BattleRoster
