import BattleRoster.Side.Basic
import BattleRoster.Text.Split

/-!
# Side lines

A side is written on one line as entries `key=value` separated by semicolons.
The keys `slot`, `teams` and `build` name the lobby slot, the further teams and
the buildings; every other key is an attribute, whose value is a flag, a number
or else a text.  Blanks around entries, keys and values do not count.
-/

namespace BattleRoster

namespace AttributeValue

def ofText (s : String) : AttributeValue :=
  if s = "true" then .flag true
  else if s = "false" then .flag false
  else
    match Text.readInt64? s with
    | some n => .number n
    | none => .text s

def toText : AttributeValue → String
  | .flag true => "true"
  | .flag false => "false"
  | .number n => Text.writeInt n.toInt
  | .text s => s

end AttributeValue

namespace Side

inductive Entry where
  | slot (n : UInt64)
  | teams (names : List String)
  | buildings (names : List String)
  | attribute (key : String) (value : AttributeValue)
deriving DecidableEq

namespace Entry

def read (entry : String) : Except SideError Entry :=
  match Text.splitFirst '=' entry with
  | none => .error (.noEquals entry)
  | some (key, value) =>
      let key := Text.trim key
      let value := Text.trim value
      if key = "" then .error (.noKey entry)
      else if key = "slot" then
        match Text.readUInt64? value with
        | some n => .ok (.slot n)
        | none => .error (.badSlot value)
      else if key = "teams" then .ok (.teams (Text.words value))
      else if key = "build" then .ok (.buildings (Text.words value))
      else .ok (.attribute key (.ofText value))

/-- Enter an entry into a side; it replaces an earlier one of the same key. -/
def enter (s : Side) : Entry → Side
  | .slot n => { s with lobbySlot := some n }
  | .teams names => { s with teams := names }
  | .buildings names =>
      { s with buildings := some (names.map fun name => { blueprint := name }) }
  | .attribute key value => { s with attributes := s.attributes.insert key value }

end Entry

/-- The trimmed entries of a line that are not empty. -/
def entryTexts (line : String) : List String :=
  ((Text.splitOn ';' line).map Text.trim).filter (· != "")

/-- Read a side line; the first entry that is at fault decides the error. -/
def parse (line : String) : Except SideError Side :=
  (entryTexts line).foldlM
    (fun side entry => (Entry.read entry).map (Entry.enter side)) {}

/-- The entries that stand for a side: attributes, slot, teams, buildings. -/
def encodedEntries (s : Side) : List String :=
  (s.attributes.entries.map fun (key, value) => key ++ "=" ++ value.toText) ++
    (match s.lobbySlot with
      | some n => ["slot=" ++ Text.writeNat n.toNat]
      | none => []) ++
    (if s.teams.isEmpty then [] else ["teams=" ++ Text.unwords s.teams]) ++
    (match s.buildings with
      | some buildings => ["build=" ++ Text.unwords (buildings.map (·.blueprint))]
      | none => [])

/-- Write a side as a line; only the blueprints of buildings are written. -/
def encode (s : Side) : String :=
  String.intercalate ";" s.encodedEntries

end Side

end BattleRoster
