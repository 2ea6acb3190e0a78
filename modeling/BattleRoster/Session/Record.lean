import BattleRoster.Json.Decoder
import BattleRoster.Roster.Record
import BattleRoster.Upgrade.Gate

/-!
# Saved games

A saved game is the record of the roster and, for every object in order, the
records of its gates.  Its text is one line of compact JSON, with the fields in
a fixed order.
-/

namespace BattleRoster

structure ObjectRecord where
  name : String
  modules : List GateRecord
deriving DecidableEq, Repr

structure GameRecord where
  roster : RosterRecord
  objects : List ObjectRecord
deriving DecidableEq, Repr

open Json

namespace Controller

def names : List (String × Controller) :=
  [("Human", .human), ("Computer", .computer), ("Neutral", .neutral)]

def toJson : Controller → Value
  | .human => .ofString "Human"
  | .computer => .ofString "Computer"
  | .neutral => .ofString "Neutral"

end Controller

namespace Stance

def names : List (String × Stance) :=
  [("Enemies", .enemies), ("Allies", .allies), ("Neutral", .neutral)]

def toJson : Stance → Value
  | .enemies => .ofString "Enemies"
  | .allies => .ofString "Allies"
  | .neutral => .ofString "Neutral"

end Stance

namespace TeamId

def toJson (id : TeamId) : Value :=
  .ofNat id.number.toNat

def decode : Decoder TeamId := fun v =>
  (Decoder.uint32 v).map TeamId.mk

end TeamId

namespace UpgradeSet

/-- The JSON value of an upgrade set: its bits as a number. -/
def toJson (s : UpgradeSet) : Value :=
  .ofNat s.bits.toNat

def decode : Decoder UpgradeSet := fun v =>
  (Decoder.natBelow (1 <<< 128) v).map fun n => ⟨BitVec.ofNat 128 n⟩

end UpgradeSet

namespace PlayerRecord

def toJson (p : PlayerRecord) : Value :=
  .ofMembers [
    ("name_key", .ofString p.name),
    ("player_type", p.controller.toJson),
    ("default_team",
      match p.defaultTeam with
      | none => .null
      | some team => team.toJson),
    ("relationships",
      .array (p.stances.map fun (team, stance) => .array [team.toJson, stance.toJson])),
    ("upgrades", p.upgrades.toJson)]

def decode : Decoder PlayerRecord := fun v => do
  let fields ← Field.ofRecord?
    ["name_key", "player_type", "default_team", "relationships", "upgrades"] v
  match fields with
  | [name, controller, defaultTeam, stances, upgrades] =>
      return {
        name := ← name.required Decoder.string
        controller := ← controller.required (Decoder.choice Controller.names)
        defaultTeam := ← defaultTeam.optional TeamId.decode
        stances := ← stances.required
          (Decoder.list (Decoder.pair TeamId.decode (Decoder.choice Stance.names)))
        upgrades := ← upgrades.required UpgradeSet.decode }
  | _ => none

end PlayerRecord

namespace RosterRecord

def toJson (r : RosterRecord) : Value :=
  .ofMembers [
    ("version", .ofNat r.version.toNat),
    ("player_count", .ofNat r.count.toNat),
    ("players", .array (r.players.map PlayerRecord.toJson))]

def decode : Decoder RosterRecord := fun v => do
  let fields ← Field.ofRecord? ["version", "player_count", "players"] v
  match fields with
  | [version, count, players] =>
      return {
        version := ← version.required Decoder.uint8
        count := ← count.required Decoder.uint64
        players := ← players.required (Decoder.list PlayerRecord.decode) }
  | _ => none

def encode (r : RosterRecord) : String :=
  r.toJson.write

def read? (text : String) : Option RosterRecord :=
  (Value.read? text).bind decode

end RosterRecord

namespace GateRecord

def toJson (g : GateRecord) : Value :=
  .ofMembers [("version", .ofNat g.version.toNat), ("executed", .bool g.executed)]

def decode : Decoder GateRecord := fun v => do
  let fields ← Field.ofRecord? ["version", "executed"] v
  match fields with
  | [version, executed] =>
      return {
        version := ← version.required Decoder.uint8
        executed := ← executed.required Decoder.bool }
  | _ => none

end GateRecord

namespace ObjectRecord

def toJson (o : ObjectRecord) : Value :=
  .ofMembers [
    ("name", .ofString o.name),
    ("modules", .array (o.modules.map GateRecord.toJson))]

def decode : Decoder ObjectRecord := fun v => do
  let fields ← Field.ofRecord? ["name", "modules"] v
  match fields with
  | [name, modules] =>
      return {
        name := ← name.required Decoder.string
        modules := ← modules.required (Decoder.list GateRecord.decode) }
  | _ => none

end ObjectRecord

namespace GameRecord

def toJson (g : GameRecord) : Value :=
  .ofMembers [
    ("roster", g.roster.toJson),
    ("objects", .array (g.objects.map ObjectRecord.toJson))]

def decode : Decoder GameRecord := fun v => do
  let fields ← Field.ofRecord? ["roster", "objects"] v
  match fields with
  | [roster, objects] =>
      return {
        roster := ← roster.required RosterRecord.decode
        objects := ← objects.required (Decoder.list ObjectRecord.decode) }
  | _ => none

def encode (g : GameRecord) : String :=
  g.toJson.write

def read? (text : String) : Option GameRecord :=
  (Value.read? text).bind decode

end GameRecord

end BattleRoster
