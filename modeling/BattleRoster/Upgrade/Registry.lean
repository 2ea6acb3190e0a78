import BattleRoster.Upgrade.Error
import BattleRoster.Upgrade.Set

/-!
# The upgrade registry

Upgrades are named in blueprints and commands.  The registry gives each name a
place in the order of first registration; a place is never given up, and a
registry that is full refuses new names.
-/

namespace BattleRoster

/-- The registered names; the place of a name is its bit in upgrade sets. -/
structure Registry where
  names : List String := []
deriving DecidableEq, Repr, Inhabited

namespace Registry

def size (r : Registry) : Nat :=
  r.names.length

def find? (r : Registry) (name : String) : Option UpgradeSet :=
  (r.names.findIdx? (· == name)).bind UpgradeSet.single?

/-- The set of a name, which is registered first when it is new. -/
def register (r : Registry) (name : String) :
    Except UpgradeError UpgradeSet × Registry :=
  match r.find? name with
  | some set => (.ok set, r)
  | none =>
      match UpgradeSet.single? r.size with
      | some set => (.ok set, { r with names := r.names ++ [name] })
      | none => (.error .tooMany, r)

/--
The union of the sets of several names.  Names are registered one by one, so
those before one that is refused stay registered.
-/
def registerAll (r : Registry) : List String →
    Except UpgradeError UpgradeSet × Registry
  | [] => (.ok ∅, r)
  | name :: names =>
      match r.register name with
      | (.error e, r) => (.error e, r)
      | (.ok set, r) =>
          match r.registerAll names with
          | (.error e, r) => (.error e, r)
          | (.ok sets, r) => (.ok (set ∪ sets), r)

/-- The union of the sets of names that have to be registered already. -/
def lookupAll (r : Registry) : List String → Except UpgradeError UpgradeSet
  | [] => .ok ∅
  | name :: names =>
      match r.find? name with
      | none => .error (.unknown name)
      | some set => do return set ∪ (← r.lookupAll names)

/-- The names of the members of a set, in the order of registration. -/
def namesIn (r : Registry) (s : UpgradeSet) : List String :=
  s.places.filterMap (r.names[·]?)

end Registry

end BattleRoster
