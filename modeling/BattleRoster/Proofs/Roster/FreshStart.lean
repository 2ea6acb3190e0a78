import BattleRoster.Roster.NewGame
import BattleRoster.Team.Table

/-!
# A new game forgets the games before it

Slots are vacated and taken in place, and a team table is cleared in place, so
whatever is not rewritten would pass from one game to the next.  Everything is
rewritten: after a reset all rosters and all tables are the same.
-/

namespace BattleRoster.Roster

/-- Vacating leaves nothing of what a roster was. -/
theorem vacate_eq_initial (r : Roster) : r.vacate = initial := by
  apply ext_player
  · intro slot
    unfold initial
    rw [player_vacate, player_vacate]
  · rfl
  · rfl
  · rfl

theorem reset_eq_initial (r : Roster) (teams : TeamTable) :
    r.reset teams = (initial, {}) := by
  unfold reset
  rw [vacate_eq_initial]
  rfl

/--
What a new game leads to is decided by the options and the sides alone: the same
refusal, or the same roster, teams and sides, whatever came before.
-/
theorem newGame_forgets (o : Options) (sides : List Side) (r r' : Roster)
    (teams teams' : TeamTable) :
    newGame o sides r teams = newGame o sides r' teams' := by
  unfold newGame
  rw [reset_eq_initial r teams, reset_eq_initial r' teams']

end BattleRoster.Roster
