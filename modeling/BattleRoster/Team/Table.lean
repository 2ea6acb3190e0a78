import BattleRoster.Team.Source

/-!
# Team tables

The teams of a game in the order of their creation.  Numbers count up from
zero and are not used again before the table is cleared; a name stands for one
team only.
-/

namespace BattleRoster

/-- The teams of a game, and the number of the next one. -/
structure TeamTable where
  teams : List Team := []
  next : UInt32 := 0
deriving DecidableEq, Inhabited

namespace TeamTable

def find? (t : TeamTable) (name : String) : Option TeamId :=
  (t.teams.find? (·.name == name)).map (·.id)

def get? (t : TeamTable) (id : TeamId) : Option Team :=
  t.teams.find? (·.id == id)

def owner? (t : TeamTable) (id : TeamId) : Option Slot :=
  (t.get? id).map (·.owner)

/-- The number of the team with a name, which is created if it is new. -/
def create (t : TeamTable) (name : String) (owner : Slot) : TeamId × TeamTable :=
  match t.find? name with
  | some id => (id, t)
  | none =>
      let id : TeamId := ⟨t.next⟩
      (id, { teams := t.teams ++ [{ id, name, owner }], next := t.next + 1 })

def delete (t : TeamTable) (name : String) : Option Team × TeamTable :=
  match t.teams.find? (·.name == name) with
  | some team => (some team, { t with teams := t.teams.eraseP (·.name == name) })
  | none => (none, t)

/-- Remove all teams and count from zero again. -/
def clear (t : TeamTable) : TeamTable :=
  { t with teams := [], next := 0 }

def defaults (r : Roster) : List (String × Slot) :=
  r.active.map fun slot => (defaultTeamName (r.player slot).name, slot)

/-- The teams that a roster and its sides call for, with their owners. -/
def wanted (sides : List Side) (r : Roster) : List (String × Slot) :=
  defaults r ++
    sides.flatMap fun side =>
      match r.find? side.playerName with
      | some owner => side.teams.map fun name => (name, owner)
      | none => []

def createAll (t : TeamTable) (wanted : List (String × Slot)) : TeamTable :=
  wanted.foldl (fun t (name, owner) => (t.create name owner).2) t

def prepare (t : TeamTable) (sides : List Side) (r : Roster) : TeamTable :=
  t.createAll (wanted sides r)

instance : TeamSource TeamTable where
  clear := clear
  prepare sides roster t := t.prepare sides roster
  find? name t := (t.find? name, t)

end TeamTable

namespace Roster

/-- The team of a name, or else the default team of the neutral player. -/
def teamOrNeutral {σ : Type} [TeamSource σ] (r : Roster) (name : String)
    (teams : σ) : Option TeamId × σ :=
  match TeamSource.find? name teams with
  | (some id, teams) => (some id, teams)
  | (none, teams) => (r.neutral.defaultTeam, teams)

end Roster

end BattleRoster
