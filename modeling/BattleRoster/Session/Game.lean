import BattleRoster.Roster.NewGame
import BattleRoster.Session.Record
import BattleRoster.Side.File
import BattleRoster.Side.Notation
import BattleRoster.Team.Table
import BattleRoster.Upgrade.Bearer

/-!
# Games

The state of a session: its options, the sides for the next game, the roster
and its teams, the upgrades and blueprints that are known, and the objects of
the running game.
-/

namespace BattleRoster

structure Game where
  options : Options := {}
  sides : List Side := []
  roster : Roster := Roster.initial
  teams : TeamTable := {}
  registry : Registry := {}
  blueprints : List Blueprint := []
  objects : List Bearer := []
deriving DecidableEq

inductive GameError where
  | options (e : OptionsError)
  | roster (e : RosterError)
  | record (e : RecordError)
  | side (e : SideError)
  | upgrade (e : UpgradeError)
  | unreadable (path : String) (why : FileFailure)
  | unknownBlueprint (name : String)
  | objectCount (found expected : Nat)
  | objectName (found expected : String)
  | malformedRecord
deriving DecidableEq, Repr

/-- The words of the library follow where it is the one that refuses. -/
def GameError.message (e : GameError) (words : String := "") : String :=
  match e with
  | .options e => e.message words
  | .roster e => e.message
  | .record e => e.message
  | .side e => e.message words
  | .upgrade e => e.message words
  | .unreadable path why => unreadableMessage path why
  | .unknownBlueprint name => s!"unknown upgrade module template '{name}'"
  | .objectCount found expected =>
      s!"snapshot carries {found} objects, game has {expected}"
  | .objectName found expected =>
      s!"snapshot object '{found}' does not match live object '{expected}'"
  | .malformedRecord => s!"snapshot encoding error: {words}"

namespace Game

/-! ## Sides and blueprints -/

def addSide (g : Game) (line : String) : Except GameError Game :=
  match Side.parse line with
  | .ok side => .ok { g with sides := g.sides ++ [side] }
  | .error e => .error (.side e)

def loadSides (g : Game) (files : Files) (path : String) : Except GameError Game :=
  match Side.loadAll files path with
  | .ok sides => .ok { g with sides }
  | .error e => .error (.side e)

/-- Register a blueprint in the stead of an earlier one of its name. -/
def registerBlueprint (known : List Blueprint) (b : Blueprint) : List Blueprint :=
  known.filter (·.name ≠ b.name) ++ [b]

/-- Register the blueprints of a file, and count them. -/
def loadBlueprints (g : Game) (files : Files) (path : String) :
    Except GameError (Nat × Game) :=
  match files.readText path with
  | .error why => .error (.unreadable path why)
  | .ok text =>
      match Blueprint.readAll text with
      | .error e => .error (.upgrade e)
      | .ok blueprints =>
          .ok (blueprints.length,
            { g with blueprints := blueprints.foldl registerBlueprint g.blueprints })

/-! ## The roster -/

/--
Set up a new game from the sides.  The objects of the running game are gone
even if the roster refuses.
-/
def newGame (g : Game) : Except GameError Unit × Game :=
  match Roster.newGame g.options g.sides g.roster g.teams with
  | .ok set =>
      (.ok (), { g with
        objects := [], roster := set.roster, teams := set.teams, sides := set.sides })
  | .error e => (.error (.roster e), { g with objects := [] })

/-- The slot of a player's name; a dash stands for the neutral player. -/
def resolve (g : Game) (name : String) : Except GameError Slot :=
  let name := if name = "-" then "" else name
  match g.roster.find? name with
  | some slot => .ok slot
  | none => .error (.roster (.unknownName name))

/-- The team of a name, or else the default team of the neutral player. -/
def teamOrNeutral (g : Game) (name : String) : Option TeamId :=
  (g.roster.teamOrNeutral name g.teams).1

/-! ## Objects and upgrades -/

/-- Build the modules of an object; names registered on the way stay. -/
def buildModules (known : List Blueprint) :
    List String → Registry → Except GameError (List Module) × Registry
  | [], r => (.ok [], r)
  | name :: names, r =>
      match known.find? (·.name == name) with
      | none => (.error (.unknownBlueprint name), r)
      | some blueprint =>
          match Module.build blueprint r with
          | (.error e, r) => (.error (.upgrade e), r)
          | (.ok m, r) =>
              match buildModules known names r with
              | (.error e, r) => (.error e, r)
              | (.ok ms, r) => (.ok (m :: ms), r)

/-- Create an object and evaluate it; the result names the modules that fired. -/
def spawn (g : Game) (owner object : String) (modules : List String) :
    Except GameError (List String) × Game :=
  match g.resolve owner with
  | .error e => (.error e, g)
  | .ok slot =>
      match buildModules g.blueprints modules g.registry with
      | (.error e, registry) => (.error e, { g with registry })
      | (.ok modules, registry) =>
          let bearer : Bearer := { name := object, owner := slot, modules }
          let (fired, bearer) := bearer.update (g.roster.player slot).upgrades
          (.ok fired, { g with registry, objects := g.objects ++ [bearer] })

/-- Change the objects of an owner, and collect what each has to report. -/
def changeObjects (owner : Slot) (change : Bearer → List String × Bearer) :
    List Bearer → List (String × String) × List Bearer
  | [] => ([], [])
  | b :: bearers =>
      let (reports, rest) := changeObjects owner change bearers
      if b.owner = owner then
        let (names, b) := change b
        (names.map (b.name, ·) ++ reports, b :: rest)
      else
        (reports, b :: rest)

def grant (g : Game) (player upgrade : String) :
    Except GameError (List (String × String)) × Game :=
  match g.resolve player with
  | .error e => (.error e, g)
  | .ok slot =>
      match g.registry.register upgrade with
      | (.error e, registry) => (.error (.upgrade e), { g with registry })
      | (.ok set, registry) =>
          let roster := g.roster.modify slot (·.addUpgrades set)
          let held := (roster.player slot).upgrades
          let (fired, objects) := changeObjects slot (·.update held) g.objects
          (.ok fired, { g with registry, roster, objects })

def revoke (g : Game) (player upgrade : String) :
    Except GameError (List (String × String)) × Game :=
  match g.resolve player with
  | .error e => (.error e, g)
  | .ok slot =>
      match g.registry.find? upgrade with
      | none => (.error (.upgrade (.unknown upgrade)), g)
      | some set =>
          let roster := g.roster.modify slot (·.removeUpgrades set)
          let (lost, objects) := changeObjects slot (·.resetModules set) g.objects
          (.ok lost, { g with roster, objects })

/-! ## Saving -/

def record (g : Game) : GameRecord where
  roster := g.roster.record
  objects := g.objects.map fun b => { name := b.name, modules := b.gateRecords }

def checkObject (b : Bearer) (record : ObjectRecord) : Except GameError Unit :=
  if b.name ≠ record.name then .error (.objectName record.name b.name)
  else (b.checkRecords record.modules).mapError .upgrade

def checkObjects : List Bearer → List ObjectRecord → Except GameError Unit
  | b :: bearers, record :: records =>
      match checkObject b record with
      | .error e => .error e
      | .ok () => checkObjects bearers records
  | _, _ => .ok ()

/-- Take over object records one by one; those before a refusal stay. -/
def restoreObjects : List Bearer → List ObjectRecord →
    Except UpgradeError Unit × List Bearer
  | b :: bearers, record :: records =>
      match b.takeRecords record.modules with
      | (.error e, b) => (.error e, b :: bearers)
      | (.ok (), b) =>
          let (result, bearers) := restoreObjects bearers records
          (result, b :: bearers)
  | bearers, _ => (.ok (), bearers)

/--
Take over a saved game in place.  The objects are checked first, then the
roster is replaced, and then the objects, each of which may still refuse.
-/
def takeOver (g : Game) (record : GameRecord) : Except GameError Unit × Game :=
  if record.objects.length ≠ g.objects.length then
    (.error (.objectCount record.objects.length g.objects.length), g)
  else
    match checkObjects g.objects record.objects with
    | .error e => (.error e, g)
    | .ok () =>
        match g.roster.restore record.roster with
        | .error e => (.error (.record e), g)
        | .ok roster =>
            let (result, objects) := restoreObjects g.objects record.objects
            (result.mapError .upgrade, { g with roster, objects })

def restore (g : Game) (record : GameRecord) : Except GameError Game :=
  match g.takeOver record with
  | (.ok (), g) => .ok g
  | (.error e, _) => .error e

end Game

end BattleRoster
