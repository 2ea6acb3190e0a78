import BattleRoster.Player.Stance
import BattleRoster.Text.Decimal
import BattleRoster.Text.Split

/-!
# Commands

One line of input is at most one command: its first word names the command and
the others are its arguments.  `side` and `restore` take the rest of the line
instead.  A line that is not a command is ignored.
-/

namespace BattleRoster

inductive Command where
  | handshake
  | ping
  | setOption (name : String) (value : Option String)
  | clearSides
  | listSides
  | addSide (line : String)
  | loadSides (path : String)
  | newGame
  | listPlayers
  | stance (player other : String)
  | mask (source : UInt64) (filter : StanceFilter)
  | save
  | restore (text : String)
  | loadBlueprints (path : String)
  | spawn (owner object : String) (modules : List String)
  | grant (player upgrade : String)
  | revoke (player upgrade : String)
  | quit
deriving DecidableEq, Repr

namespace Command

/-! ## Reading -/

/--
The arguments of `setoption`: the word `name`, the words of a name, and after
the word `value` the words of a value.
-/
def readOption? (args : List String) : Option Command :=
  match args with
  | "name" :: args =>
      let name := args.takeWhile (· ≠ "value")
      let value := (args.dropWhile (· ≠ "value")).drop 1
      if name.isEmpty then none
      else
        some (.setOption (Text.unwords name)
          (if value.isEmpty then none else some (Text.unwords value)))
  | _ => none

def readMask? : List String → Option Command
  | source :: filter => do
      return .mask (← Text.readUInt64? source) (← StanceFilter.ofWords? filter)
  | [] => none

def ofWords? : List String → Option Command
  | "muster" :: _ => some .handshake
  | "isready" :: _ => some .ping
  | "quit" :: _ => some .quit
  | "newgame" :: _ => some .newGame
  | "players" :: _ => some .listPlayers
  | "snapshot" :: _ => some .save
  | "clearsides" :: _ => some .clearSides
  | "sides" :: _ => some .listSides
  | "setoption" :: args => readOption? args
  | ["loadsides", path] => some (.loadSides path)
  | ["loadupgrades", path] => some (.loadBlueprints path)
  | ["relationship", player, other] => some (.stance player other)
  | "mask" :: args => readMask? args
  | "spawn" :: owner :: object :: modules => some (.spawn owner object modules)
  | ["grant", player, upgrade] => some (.grant player upgrade)
  | ["revoke", player, upgrade] => some (.revoke player upgrade)
  | _ => none

/-- The rest of a line after its first word, which is a given one. -/
def restAfter? (keyword line : String) : Option String :=
  let rest := Text.trim (String.ofList ((Text.trim line).toList.drop keyword.length))
  if rest = "" then none else some rest

def parse? (line : String) : Option Command :=
  match Text.words line with
  | "side" :: _ => (restAfter? "side" line).map .addSide
  | "restore" :: _ => (restAfter? "restore" line).map .restore
  | words => ofWords? words

/-! ## Writing -/

/-- The words of a command; the last ones of some are whole texts. -/
def words : Command → List String
  | .handshake => ["muster"]
  | .ping => ["isready"]
  | .setOption name none => ["setoption", "name", name]
  | .setOption name (some value) => ["setoption", "name", name, "value", value]
  | .clearSides => ["clearsides"]
  | .listSides => ["sides"]
  | .addSide line => ["side", line]
  | .loadSides path => ["loadsides", path]
  | .newGame => ["newgame"]
  | .listPlayers => ["players"]
  | .stance player other => ["relationship", player, other]
  | .mask source filter => "mask" :: Text.writeNat source.toNat :: filter.words
  | .save => ["snapshot"]
  | .restore text => ["restore", text]
  | .loadBlueprints path => ["loadupgrades", path]
  | .spawn owner object modules => "spawn" :: owner :: object :: modules
  | .grant player upgrade => ["grant", player, upgrade]
  | .revoke player upgrade => ["revoke", player, upgrade]
  | .quit => ["quit"]

def render (c : Command) : String :=
  Text.unwords c.words

def path? : Command → Option String
  | .loadSides path | .loadBlueprints path => some path
  | _ => none

end Command

end BattleRoster
