import BattleRoster.Collection.OrderedMap
import BattleRoster.Files
import BattleRoster.Json.Decoder
import BattleRoster.Numeral.Binary32
import BattleRoster.Text.Decimal

/-!
# Sides

A side describes one faction of a map: attributes by name, a list of buildings
to construct, the lobby slot it came from and the names of further teams.  A
side without a player name is a neutral one.
-/

namespace BattleRoster

inductive AttributeValue where
  | flag (b : Bool)
  | number (n : Int64)
  | text (s : String)
deriving DecidableEq

/-- The attributes of a side, in ascending order of their names. -/
abbrev Attributes := OrderedMap String AttributeValue

namespace Attributes

/-- The text of an attribute; empty if there is none or it is not a text. -/
def text (a : Attributes) (key : String) : String :=
  match a.get? key with
  | some (.text s) => s
  | _ => ""

/-- The flag of an attribute; a number other than zero counts as set. -/
def flag? (a : Attributes) (key : String) : Option Bool :=
  match a.get? key with
  | some (.flag b) => some b
  | some (.number n) => some (n != 0)
  | _ => none

def flag (a : Attributes) (key : String) : Bool :=
  (a.flag? key).getD false

def number? (a : Attributes) (key : String) : Option Int64 :=
  match a.get? key with
  | some (.number n) => some n
  | _ => none

end Attributes

/-- A building that a player is expected to construct. -/
structure Building where
  blueprint : String
  x : Binary32 := {}
  y : Binary32 := {}
  z : Binary32 := {}
  angle : Binary32 := {}
  built : Bool := false
deriving DecidableEq, Repr, Inhabited

namespace Building

/-- Equality of buildings by the values of their numbers. -/
def same (a b : Building) : Bool :=
  a.blueprint == b.blueprint && a.x.sameValue b.x && a.y.sameValue b.y &&
    a.z.sameValue b.z && a.angle.sameValue b.angle && a.built == b.built

end Building

structure Side where
  attributes : Attributes := {}
  buildings : Option (List Building) := none
  lobbySlot : Option UInt64 := none
  teams : List String := []
deriving DecidableEq, Inhabited

namespace Side

def sameBuildings : List Building → List Building → Bool
  | [], [] => true
  | a :: as, b :: bs => a.same b && sameBuildings as bs
  | _, _ => false

def same (a b : Side) : Bool :=
  a.attributes == b.attributes && a.lobbySlot == b.lobbySlot && a.teams == b.teams &&
    match a.buildings, b.buildings with
    | none, none => true
    | some as, some bs => sameBuildings as bs
    | _, _ => false

/-- The name of the side's player; empty for a neutral side. -/
def playerName (s : Side) : String :=
  s.attributes.text "playerName"

def isNamed (s : Side) : Bool :=
  s.playerName != ""

/-- The name shown for the player: the player name unless another is given. -/
def displayName (s : Side) : String :=
  let shown := s.attributes.text "playerDisplayName"
  if shown = "" then s.playerName else shown

def faction (s : Side) : String :=
  s.attributes.text "playerFaction"

def isHuman (s : Side) : Bool :=
  s.attributes.flag "playerIsHuman"

/-- Whether the side's player is the local one of a network game. -/
def isLocal (s : Side) : Bool :=
  s.attributes.flag "multiplayerIsLocal"

def release (s : Side) : List Building × Side :=
  (s.buildings.getD [], { s with buildings := none })

end Side

/-- The number of lobby slots that a map can declare. -/
def lobbySlotCount : Nat := 8

/--
The number of lobby slots that sides with the names `player1`, `player2` and so
on suggest: the host and each of them up to the first gap, or none at all.
-/
def suggestedSlots (sides : List Side) : Nat :=
  let named (n : Nat) : Bool :=
    sides.any fun side => side.playerName == "player" ++ Text.writeNat n
  match ((List.range' 1 (lobbySlotCount - 1)).takeWhile named).length with
  | 0 => 0
  | n + 1 => n + 2

inductive SideError where
  | unreadable (path : String) (why : FileFailure)
  | malformed
  | noEquals (entry : String)
  | noKey (entry : String)
  | badSlot (value : String)
deriving DecidableEq, Repr

/-- The words of the library follow where it is the one that refuses. -/
def SideError.message (e : SideError) (words : String := "") : String :=
  match e with
  | .unreadable path why => unreadableMessage path why
  | .malformed => s!"failed to parse sides JSON: {words}"
  | .noEquals entry => s!"entry without '=': '{entry}'"
  | .noKey entry => s!"empty key in entry '{entry}'"
  | .badSlot value => s!"invalid slot index: '{value}'"

end BattleRoster
