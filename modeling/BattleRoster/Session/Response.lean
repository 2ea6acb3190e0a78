import BattleRoster.Session.Game

/-!
# Responses

What a session answers to a command, as data.  Every response is written as one
line, so a line feed in a name, or in the words of a library, would break the line.
-/

namespace BattleRoster

/-- One response; a refusal has the words of the library where it is the one that refuses. -/
inductive Response where
  | programName
  | programAuthor
  | option (name : String) (default : Bool)
  | protocolVersion
  | handshakeDone
  | pong
  | blueprintsLoaded (count : Nat)
  | gameStarted (players : Nat) (localName : String)
  | player (slot : Slot) (p : Player)
  | playersDone
  | stance (s : Stance)
  | mask (s : SlotSet)
  | saved (record : GameRecord)
  | restored
  | side (s : Side)
  | sidesDone
  | activated (object module : String)
  | spawned (object : String)
  | granted
  | undone (object module : String)
  | revoked
  | refused (e : GameError) (words : String := "")
deriving DecidableEq

def playerLine (slot : Slot) (p : Player) : String :=
  let team :=
    match p.defaultTeam with
    | some t => Text.writeNat t.number.toNat
    | none => "-"
  let mark := if p.isLocal then " local" else ""
  "player " ++ Text.writeNat slot.val ++ " " ++ shownName p.name ++ " " ++
    p.controller.word ++ " mask " ++ (SlotSet.single slot).text ++ " team " ++
    team ++ mark

def flagWord (b : Bool) : String :=
  if b then "true" else "false"

/-- The line of a response, without its end. -/
def Response.line : Response → String
  | .programName => "id name muster"
  | .programAuthor => "id author muster"
  | .option name default =>
      "option name " ++ name ++ " type check default " ++ flagWord default
  | .protocolVersion => "protocol_version 1"
  | .handshakeDone => "musterok"
  | .pong => "readyok"
  | .blueprintsLoaded count => "loadupgradesok " ++ Text.writeNat count
  | .gameStarted players localName =>
      "newgame players " ++ Text.writeNat players ++ " local " ++ shownName localName
  | .player slot p => playerLine slot p
  | .playersDone => "playersok"
  | .stance s => "relationship " ++ s.word
  | .mask s => "mask " ++ s.text
  | .saved record => "snapshot " ++ record.encode
  | .restored => "restoreok"
  | .side s => "side " ++ s.encode
  | .sidesDone => "sidesok"
  | .activated object module => "activated " ++ object ++ " " ++ module
  | .spawned object => "spawnok " ++ object
  | .granted => "grantok"
  | .undone object module => "reset " ++ object ++ " " ++ module
  | .revoked => "revokeok"
  | .refused e words => "error " ++ e.message words

/-- What is written for responses: their lines, each with its end. -/
def Response.write (responses : List Response) : String :=
  responses.foldl (fun text response => text ++ response.line ++ "\n") ""

end BattleRoster
