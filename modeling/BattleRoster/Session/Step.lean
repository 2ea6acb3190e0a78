import BattleRoster.Session.Command
import BattleRoster.Session.Response

/-!
# Running commands

`Game.step` carries out one command.  A command writes responses, or it is
silent and at most notes why it was refused, or it ends the session.
-/

namespace BattleRoster

inductive Reply where
  | responses (rs : List Response)
  | silent
  | noted (e : GameError)
  | ended
deriving DecidableEq

def Reply.written : Reply → List Response
  | .responses rs => rs
  | .silent | .noted _ | .ended => []

namespace Game

def handshake (g : Game) : List Response :=
  [.programName, .programAuthor, .option "NetworkActive" g.options.network,
    .option "CampaignForce" g.options.campaign,
    .option "SkirmishSession" g.options.skirmish, .protocolVersion, .handshakeDone]

/-- Carry out a change that is silent. -/
def quietly (g : Game) : Except GameError Game → Reply × Game
  | .ok g => (.silent, g)
  | .error e => (.noted e, g)

def answer {α : Type} (responses : α → List Response) : Except GameError α → Reply
  | .ok a => .responses (responses a)
  | .error e => .responses [.refused e]

/-- Carry out one command, with the files that it can read. -/
def step (files : Files) (g : Game) : Command → Reply × Game
  | .handshake => (.responses g.handshake, g)
  | .ping => (.responses [.pong], g)
  | .setOption name value =>
      quietly g (match g.options.set name value with
        | .ok options => .ok { g with options }
        | .error e => .error (.options e))
  | .clearSides => (.silent, { g with sides := [] })
  | .listSides => (.responses (g.sides.map .side ++ [.sidesDone]), g)
  | .addSide line => quietly g (g.addSide line)
  | .loadSides path => quietly g (g.loadSides files path)
  | .newGame =>
      let (result, g) := g.newGame
      (answer (fun _ => [.gameStarted g.roster.count g.roster.localPlayer.name]) result, g)
  | .listPlayers =>
      (.responses ((g.roster.active.map fun slot => .player slot (g.roster.player slot)) ++
        [.playersDone]), g)
  | .stance player other =>
      let result := do
        let slot ← g.resolve player
        let other ← g.resolve other
        return g.roster.stance slot other
      (answer (fun s => [.stance s]) result, g)
  | .mask source filter =>
      (answer (fun s => [.mask s])
        ((g.roster.regarded source.toNat filter).mapError .roster), g)
  | .save => (.responses [.saved g.record], g)
  | .restore text =>
      match GameRecord.read? text with
      | none => (.responses [.refused .malformedRecord (files.words .record text)], g)
      | some record =>
          let (result, g) := g.takeOver record
          (answer (fun _ => [.restored]) result, g)
  | .loadBlueprints path =>
      match g.loadBlueprints files path with
      | .ok (count, g) => (.responses [.blueprintsLoaded count], g)
      | .error e => (.responses [.refused e (files.wordsAt .blueprints path)], g)
  | .spawn owner object modules =>
      let (result, g) := g.spawn owner object modules
      (answer (fun fired => fired.map (.activated object) ++ [.spawned object]) result, g)
  | .grant player upgrade =>
      let (result, g) := g.grant player upgrade
      (answer (fun fired =>
        fired.map (fun (object, module) => .activated object module) ++ [.granted]) result, g)
  | .revoke player upgrade =>
      let (result, g) := g.revoke player upgrade
      (answer (fun lost =>
        lost.map (fun (object, module) => .undone object module) ++ [.revoked]) result, g)
  | .quit => (.ended, g)

/-- Carry out a line; one that is not a command is ignored. -/
def stepLine (files : Files) (g : Game) (line : String) : Option (Reply × Game) :=
  (Command.parse? line).map (g.step files)

end Game

end BattleRoster
