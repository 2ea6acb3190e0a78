import BattleRoster.Side.Basic

/-!
# Side files

The sides of a map are kept in a JSON file, as one record that holds the list
of sides in order.
-/

namespace BattleRoster

open Json

namespace AttributeValue

def decode : Decoder AttributeValue
  | .bool b => some (.flag b)
  | .number n =>
      match n.integer? with
      | some i =>
          if Int64.minValue.toInt ≤ i ∧ i ≤ Int64.maxValue.toInt then
            some (.number (Int64.ofInt i))
          else none
      | none => none
  | .string s => s.map .text
  | _ => none

end AttributeValue

namespace Binary32

def decode : Decoder Binary32
  | .number n => n.toBinary32?
  | _ => none

end Binary32

namespace Attributes

/-- Read the attributes; of repeated names the last one counts. -/
def decode : Decoder Attributes := fun v => do
  let members ← Decoder.members v
  let entries ← members.mapM fun (key, value) => do
    return (key, ← AttributeValue.decode value)
  return .ofList entries

end Attributes

namespace Building

def decodePosition : Decoder (Binary32 × Binary32 × Binary32) := fun v => do
  match ← Decoder.list Binary32.decode v with
  | [x, y, z] => return (x, y, z)
  | _ => none

def decode : Decoder Building := fun v => do
  let fields ← Field.ofRecord? ["template_name", "position", "angle", "initially_built"] v
  match fields with
  | [blueprint, position, angle, built] =>
      let blueprint ← blueprint.required Decoder.string
      let (x, y, z) ← position.withDefault ({}, {}, {}) decodePosition
      let angle ← angle.withDefault {} Binary32.decode
      let built ← built.withDefault false Decoder.bool
      return { blueprint, x, y, z, angle, built }
  | _ => none

end Building

namespace Side

def decode : Decoder Side := fun v => do
  let fields ← Field.ofRecord? ["dict", "build_list", "slot_index", "teams"] v
  match fields with
  | [attributes, buildings, lobbySlot, teams] =>
      return {
        attributes := ← attributes.required Attributes.decode
        buildings := ← buildings.withDefault none
          (Decoder.nullable (Decoder.list Building.decode))
        lobbySlot := ← lobbySlot.withDefault none (Decoder.nullable Decoder.uint64)
        teams := ← teams.withDefault [] (Decoder.list Decoder.string) }
  | _ => none

def decodeAll : Decoder (List Side) := fun v => do
  match ← Field.ofRecord? ["sides"] v with
  | [sides] => sides.required (Decoder.list decode)
  | _ => none

def readAll (text : String) : Except SideError (List Side) :=
  match (Json.Value.read? text).bind decodeAll with
  | some sides => .ok sides
  | none => .error .malformed

def loadAll (files : Files) (path : String) : Except SideError (List Side) :=
  match files.readText path with
  | .error why => .error (.unreadable path why)
  | .ok text => readAll text

end Side

end BattleRoster
