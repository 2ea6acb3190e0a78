import BattleRoster.Proofs.Session.Succession

/-!
# Histories

A turn is a command together with the game that it is given to.  The history of
a game consists of its turns since a new game was last asked for, or since the
start; every game that commands lead to has one.
-/

namespace BattleRoster

/-- A command, the game that it is given to, and the files that it can read. -/
structure Turn where
  game : Game
  files : Files
  command : Command

namespace Turn

/-- What the command is answered. -/
def reply (turn : Turn) : Reply :=
  (turn.game.step turn.files turn.command).1

/-- The game after the command. -/
def next (turn : Turn) : Game :=
  (turn.game.step turn.files turn.command).2

/-- The responses that are written in a turn. -/
def written (turn : Turn) : List Response :=
  turn.reply.written

/-- A turn in which a player is given an upgrade. -/
def Gives (turn : Turn) (slot : Slot) (upgrade : String) : Prop :=
  ∃ player fired, turn.command = .grant player upgrade ∧
    turn.game.resolve player = .ok slot ∧ (turn.game.grant player upgrade).1 = .ok fired

/-- A turn in which a player loses an upgrade. -/
def Takes (turn : Turn) (slot : Slot) (upgrade : String) : Prop :=
  ∃ player lost, turn.command = .revoke player upgrade ∧
    turn.game.resolve player = .ok slot ∧ (turn.game.revoke player upgrade).1 = .ok lost

end Turn

namespace Command

/-- Whether a command asks to restore a saved game. -/
def isRestore : Command → Bool
  | .restore _ => true
  | _ => false

/-- Whether a command evaluates objects. -/
def isEvaluating : Command → Bool
  | .spawn .. | .grant .. => true
  | _ => false

/-- Whether a command takes an upgrade away. -/
def isRevocation : Command → Bool
  | .revoke .. => true
  | _ => false

end Command

namespace Game

/-- The games that commands lead to, each with its turns since a new game was last asked for. -/
inductive Follows : Game → List Turn → Prop where
  | start (options : Options) : Follows { options } []
  | begun {g : Game} {turns : List Turn} (files : Files) (earlier : Follows g turns) :
      Follows (g.step files .newGame).2 []
  | turn {g : Game} {turns : List Turn} (files : Files) (c : Command)
      (earlier : Follows g turns) (goesOn : c ≠ .newGame) :
      Follows (g.step files c).2 (turns ++ [⟨g, files, c⟩])

/-- A game has a history exactly if commands lead to it. -/
theorem reachable_iff_follows {g : Game} : g.Reachable ↔ ∃ turns, g.Follows turns := by
  constructor
  · intro reachable
    induction reachable with
    | start options => exact ⟨[], .start options⟩
    | step files c earlier ih =>
        obtain ⟨turns, follows⟩ := ih
        by_cases begun : c = .newGame
        · subst begun
          exact ⟨[], .begun files follows⟩
        · exact ⟨_, .turn files c follows begun⟩
  · rintro ⟨turns, follows⟩
    induction follows with
    | start options => exact .start options
    | begun files earlier ih => exact .step files .newGame ih
    | turn files c earlier goesOn ih => exact .step files c ih

theorem Follows.reachable {g : Game} {turns : List Turn} (follows : g.Follows turns) :
    g.Reachable :=
  reachable_iff_follows.mpr ⟨turns, follows⟩

/-- Every turn of a history is a turn of a reachable game in which no new game is begun. -/
theorem Follows.forall_turns {g : Game} {turns : List Turn} (follows : g.Follows turns) :
    ∀ turn ∈ turns, turn.game.Reachable ∧ turn.command ≠ .newGame := by
  induction follows with
  | start options | begun files earlier ih => simp
  | turn files c earlier goesOn ih =>
      exact List.forall_mem_append.mpr
        ⟨ih, List.forall_mem_singleton.mpr ⟨earlier.reachable, goesOn⟩⟩

/-- The turns of a run. -/
def turns : Game → List (Files × Command) → List Turn
  | _, [] => []
  | g, (files, c) :: rest => ⟨g, files, c⟩ :: (g.step files c).2.turns rest

theorem forall_commands {P : Command → Prop} {commands : List (Files × Command)}
    (all : ∀ command ∈ commands, P command.2) (g : Game) :
    ∀ turn ∈ g.turns commands, P turn.command := by
  induction commands generalizing g with
  | nil => simp [turns]
  | cons command commands ih =>
      rw [List.forall_mem_cons] at all
      exact List.forall_mem_cons.mpr ⟨all.1, ih all.2 _⟩

/-- A run without a new game continues the history. -/
theorem Follows.run {g : Game} {earlier : List Turn} (follows : g.Follows earlier)
    {commands : List (Files × Command)}
    (goesOn : ∀ command ∈ commands, command.2 ≠ .newGame) :
    (g.run commands).Follows (earlier ++ g.turns commands) := by
  induction commands generalizing g earlier with
  | nil => rwa [turns, List.append_nil]
  | cons command commands ih =>
      rw [List.forall_mem_cons] at goesOn
      have rest := ih (follows.turn command.1 command.2 goesOn.1) goesOn.2
      rwa [List.append_assoc] at rest

/-! ## Places of modules -/

/-- The module at a place: the object in the order of creation, and the module in it. -/
def module? (g : Game) (i j : Nat) : Option Module :=
  (g.objects[i]?).bind (·.modules[j]?)

theorem module?_eq_some {g : Game} {i j : Nat} {m : Module} :
    g.module? i j = some m ↔ ∃ b, g.objects[i]? = some b ∧ b.modules[j]? = some m := by
  rw [module?, Option.bind_eq_some_iff]

/-- The module at a place has been executed. -/
def Executed (g : Game) (i j : Nat) : Prop :=
  ∃ m, g.module? i j = some m ∧ m.gate.executed = true

end Game

end BattleRoster
