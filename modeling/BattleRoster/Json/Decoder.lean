import BattleRoster.Json.Text

/-!
# Decoding JSON values

A decoder reads one kind of data from a value.  A record is written as an
object, whose unknown members are skipped and whose known members may not
repeat, or as an array of its fields in order.
-/

namespace BattleRoster.Json

abbrev Decoder (α : Type) := Value → Option α

namespace Decoder

def bool : Decoder Bool
  | .bool b => some b
  | _ => none

def string : Decoder String
  | .string text => text
  | _ => none

def integer : Decoder Int
  | .number n => n.integer?
  | _ => none

def natBelow (bound : Nat) : Decoder Nat := fun v =>
  match integer v with
  | some (.ofNat n) => if n < bound then some n else none
  | _ => none

def uint8 : Decoder UInt8 := fun v => (natBelow UInt8.size v).map UInt8.ofNat

def uint32 : Decoder UInt32 := fun v => (natBelow UInt32.size v).map UInt32.ofNat

def uint64 : Decoder UInt64 := fun v => (natBelow UInt64.size v).map UInt64.ofNat

def list {α : Type} (item : Decoder α) : Decoder (List α)
  | .array items => items.mapM item
  | _ => none

/-- An array of exactly two items. -/
def pair {α β : Type} (first : Decoder α) (second : Decoder β) : Decoder (α × β)
  | .array [a, b] => do return (← first a, ← second b)
  | _ => none

def nullable {α : Type} (decoder : Decoder α) : Decoder (Option α)
  | .null => some none
  | v => (decoder v).map some

/-- One of several names, alone or as the only member of an object, with null. -/
def choice {α : Type} (names : List (String × α)) : Decoder α
  | .string (some name) => names.lookup name
  | .object [(some name, .null)] => names.lookup name
  | _ => none

/-- The members of an object, all of whose names must be texts. -/
def members : Decoder (List (String × Value))
  | .object members => members.mapM fun member => do return (← member.1, member.2)
  | _ => none

end Decoder

/-- What a record says about one of its fields. -/
inductive Field where
  | present (v : Value)
  | unnamed
  | cutOff
deriving Repr

namespace Field

/-- The member of an object with a name, which may occur only once. -/
def named? (members : List (String × Value)) (name : String) : Option Field :=
  match members.filter (·.1 == name) with
  | [] => some .unnamed
  | [member] => some (.present member.2)
  | _ => none

/-- The fields at the positions of an array; the last ones may be cut off. -/
def positional : Nat → List Value → List Field
  | 0, _ => []
  | n + 1, [] => .cutOff :: positional n []
  | n + 1, v :: rest => .present v :: positional n rest

def ofRecord? (names : List String) : Value → Option (List Field)
  | .array items =>
      if items.length ≤ names.length then some (positional names.length items)
      else none
  | v => do
      let members ← Decoder.members v
      names.mapM (named? members)

def required {α : Type} (decoder : Decoder α) : Field → Option α
  | .present v => decoder v
  | .unnamed | .cutOff => none

/-- A field that is null when its name is missing. -/
def optional {α : Type} (decoder : Decoder α) : Field → Option (Option α)
  | .present v => Decoder.nullable decoder v
  | .unnamed => some none
  | .cutOff => none

def withDefault {α : Type} (default : α) (decoder : Decoder α) : Field → Option α
  | .present v => decoder v
  | .unnamed | .cutOff => some default

end Field

end BattleRoster.Json
