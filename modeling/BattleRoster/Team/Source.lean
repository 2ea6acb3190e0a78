import BattleRoster.Roster.Basic

/-!
# Sources of teams

A roster does not keep teams.  While a game is set up it asks a source: to
forget all teams, to prepare the teams of the players and sides, and to find
the number of a team by its name.
-/

namespace BattleRoster

/-- What a roster asks of whoever keeps the teams. -/
class TeamSource (σ : Type) where
  clear : σ → σ
  prepare : List Side → Roster → σ → σ
  find? : String → σ → Option TeamId × σ

inductive TeamRequest where
  | clear
  | prepare (sides : List Side) (roster : Roster)
  | find (name : String)
deriving DecidableEq

/-- A source with fixed numbers, which keeps every request in order. -/
structure TeamLog where
  known : List (String × TeamId) := []
  requests : List TeamRequest := []
deriving DecidableEq

namespace TeamLog

def note (log : TeamLog) (request : TeamRequest) : TeamLog :=
  { log with requests := log.requests ++ [request] }

instance : TeamSource TeamLog where
  clear log := log.note .clear
  prepare sides roster log := log.note (.prepare sides roster)
  find? name log := (log.known.lookup name, log.note (.find name))

end TeamLog

end BattleRoster
