import BattleRoster.Proofs.Session.Holdings
import BattleRoster.Proofs.Session.Replies
import BattleRoster.Proofs.Session.TakingBack

/-!
# New games that are refused

A new game is refused if more sides are named than there are slots.  The running game
loses its objects then, and nothing else.  From there on it goes on as it would have
with them: no answer but the reports on lost objects and the saved games depends on
what objects there are.
-/

namespace BattleRoster

/-! ## Games that have lost objects -/

/-- A game, and the same game without its first objects. -/
structure Game.Bereaved (lost : List Bearer) (g g' : Game) : Prop where
  objects : g.objects = lost ++ g'.objects
  rest : g' = { g with objects := g'.objects }

/-- A report on one of some objects. -/
def Response.Reports (objects : List Bearer) (r : Response) : Prop :=
  ∃ b ∈ objects, ∃ module, r = .activated b.name module ∨ r = .undone b.name module

/-- Whether a command gives an upgrade or takes one away. -/
def Command.isExchange : Command → Bool
  | .grant .. | .revoke .. => true
  | _ => false

/--
The reply to a command, and what is replied when objects are lost: the lost ones do not
report what they gain or lose, and they are not saved, and that is all.
-/
inductive Reply.Curtailed (lost : List Bearer) : Command → Reply → Reply → Prop where
  | same (c : Command) (reply : Reply) : Curtailed lost c reply reply
  | unreported {c : Command} (exchange : c.isExchange = true) {gone : List Response}
      (kept : List Response) (each : ∀ r ∈ gone, r.Reports lost) :
      Curtailed lost c (.responses (gone ++ kept)) (.responses kept)
  | unsaved (roster : RosterRecord) (kept : List ObjectRecord) :
      Curtailed lost .save
        (.responses [.saved { roster, objects := lost.map Bearer.record ++ kept }])
        (.responses [.saved { roster, objects := kept }])

/-- A turn, and the same turn in a game that has lost objects. -/
structure Turn.Bereaved (lost : List Bearer) (turn turn' : Turn) : Prop where
  game : turn.game.Bereaved lost turn'.game
  files : turn'.files = turn.files
  command : turn'.command = turn.command
  reply : Reply.Curtailed lost turn.command turn.reply turn'.reply

namespace Game

variable {lost : List Bearer} {g g' : Game}

/-- What the other objects report is left when some are lost. -/
theorem changeObjects_append (owner : Slot) (change : Bearer → List String × Bearer)
    (lost kept : List Bearer) :
    changeObjects owner change (lost ++ kept) =
      ((changeObjects owner change lost).1 ++ (changeObjects owner change kept).1,
        (changeObjects owner change lost).2 ++ (changeObjects owner change kept).2) := by
  refine Prod.ext ?_ ?_
  · simp only [reports_changeObjects, List.flatMap_append]
  · simp only [objects_changeObjects, List.map_append]

/-- Reports have the names of the objects. -/
theorem of_mem_changeObjects {owner : Slot} {change : Bearer → List String × Bearer}
    (named : ∀ b, (change b).2.name = b.name) {objects : List Bearer} {report : String × String}
    (mem : report ∈ (changeObjects owner change objects).1) :
    ∃ b ∈ objects, report.1 = b.name := by
  rw [reports_changeObjects, List.mem_flatMap] at mem
  obtain ⟨b, among, mem⟩ := mem
  split at mem
  · obtain ⟨module, -, rfl⟩ := List.mem_map.mp mem
    exact ⟨b, among, named b⟩
  · cases mem

/-- A request that is answered with reports does not report on what is lost. -/
theorem curtailed_answer {c : Command} (exchange : c.isExchange = true) {owner : Slot}
    {change : Bearer → List String × Bearer} {kept : List Bearer}
    {report : String × String → Response} {last : Response}
    (named : ∀ b, (change b).2.name = b.name)
    (reports : ∀ pair, report pair = .activated pair.1 pair.2 ∨
      report pair = .undone pair.1 pair.2) :
    Reply.Curtailed lost c
      (answer (fun pairs => pairs.map report ++ [last])
        (.ok ((changeObjects owner change lost).1 ++ (changeObjects owner change kept).1)))
      (answer (fun pairs => pairs.map report ++ [last])
        (.ok (changeObjects owner change kept).1)) := by
  unfold answer
  dsimp only
  rw [List.map_append, List.append_assoc]
  refine .unreported exchange _ fun r mem => ?_
  obtain ⟨pair, among, rfl⟩ := List.mem_map.mp mem
  obtain ⟨b, object, same⟩ := of_mem_changeObjects named among
  exact ⟨b, object, pair.2, same ▸ reports pair⟩

/-- A command that is carried out in a game, and in the same game with lost objects. -/
structure BereavedStep (lost : List Bearer) (c : Command) (outcome outcome' : Reply × Game) :
    Prop where
  reply : Reply.Curtailed lost c outcome.1 outcome'.1
  next : ∃ lost, outcome.2.Bereaved lost outcome'.2

/-- A passive command that saves nothing is carried out whatever objects there are. -/
theorem step_withObjects (files : Files) (g : Game) (objects : List Bearer) {c : Command}
    (passive : c.isPassive = true) (unsaved : c ≠ .save) :
    step files { g with objects } c =
      ((g.step files c).1, { (g.step files c).2 with objects }) := by
  cases c with
  | newGame | spawn owner object modules | restore text | grant player upgrade
  | revoke player upgrade => cases passive
  | save => exact absurd rfl unsaved
  | handshake | ping | clearSides | listSides | listPlayers | stance player other
  | mask source filter | quit => rfl
  | setOption name value =>
      unfold step
      dsimp only
      cases g.options.set name value <;> rfl
  | addSide line =>
      unfold step addSide
      dsimp only
      cases Side.parse line <;> rfl
  | loadSides path =>
      unfold step loadSides
      dsimp only
      cases Side.loadAll files path <;> rfl
  | loadBlueprints path =>
      unfold step loadBlueprints
      dsimp only
      cases files.readText path with
      | error why => rfl
      | ok text =>
          dsimp only
          cases Blueprint.readAll text <;> rfl

namespace Bereaved

theorem passive (bereaved : g.Bereaved lost g') (files : Files) {c : Command}
    (passive : c.isPassive = true) (unsaved : c ≠ .save) :
    BereavedStep lost c (g.step files c) (g'.step files c) := by
  have kept := (state_step files g passive).2
  have outcome := step_withObjects files g g'.objects passive unsaved
  rw [← bereaved.rest] at outcome
  rw [outcome]
  exact ⟨.same _ _, lost, kept.trans bereaved.objects, rfl⟩

theorem save (bereaved : g.Bereaved lost g') (files : Files) :
    BereavedStep lost .save (g.step files .save) (g'.step files .save) := by
  have saved : g.record =
      { roster := g.roster.record, objects := lost.map Bearer.record ++ g'.record.objects } := by
    rw [record, bereaved.objects, List.map_append]
    rfl
  have kept : g'.record = { roster := g.roster.record, objects := g'.record.objects } := by
    rw [bereaved.rest]
    rfl
  refine ⟨?_, lost, bereaved⟩
  change Reply.Curtailed lost .save (.responses [.saved g.record]) (.responses [.saved g'.record])
  rw [saved, kept]
  exact .unsaved _ _

/-- A new game has no objects either way. -/
theorem newGame (bereaved : g.Bereaved lost g') (files : Files) :
    BereavedStep lost .newGame (g.step files .newGame) (g'.step files .newGame) := by
  rw [bereaved.rest]
  unfold Game.step Game.newGame
  dsimp only
  cases Roster.newGame g.options g.sides g.roster g.teams with
  | ok set | error e => exact ⟨.same _ _, [], rfl, rfl⟩

theorem spawn (bereaved : g.Bereaved lost g') (files : Files) (owner object : String)
    (names : List String) :
    BereavedStep lost (.spawn owner object names) (g.step files (.spawn owner object names))
      (g'.step files (.spawn owner object names)) := by
  obtain ⟨whole, rest⟩ := bereaved
  rw [rest]
  unfold Game.step Game.spawn
  dsimp only
  have resolved : resolve { g with objects := g'.objects } owner = g.resolve owner := rfl
  rw [resolved]
  cases g.resolve owner with
  | error e => exact ⟨.same _ _, lost, whole, rfl⟩
  | ok slot =>
      dsimp only
      generalize buildModules g.blueprints names g.registry = outcome
      obtain ⟨_ | modules, registry⟩ := outcome
      · exact ⟨.same _ _, lost, whole, rfl⟩
      · refine ⟨.same _ _, lost, ?_, rfl⟩
        dsimp only
        rw [whole, List.append_assoc]

theorem grant (bereaved : g.Bereaved lost g') (files : Files) (player upgrade : String) :
    BereavedStep lost (.grant player upgrade) (g.step files (.grant player upgrade))
      (g'.step files (.grant player upgrade)) := by
  obtain ⟨whole, rest⟩ := bereaved
  rw [rest]
  unfold Game.step Game.grant
  dsimp only
  have resolved : resolve { g with objects := g'.objects } player = g.resolve player := rfl
  rw [resolved]
  cases g.resolve player with
  | error e => exact ⟨.same _ _, lost, whole, rfl⟩
  | ok slot =>
      dsimp only
      generalize g.registry.register upgrade = outcome
      obtain ⟨_ | set, registry⟩ := outcome
      · exact ⟨.same _ _, lost, whole, rfl⟩
      · dsimp only
        generalize ((g.roster.modify slot (·.addUpgrades set)).player slot).upgrades = held
        rw [whole, changeObjects_append]
        exact ⟨curtailed_answer rfl (fun b => b.name_update held) (fun _ => .inl rfl),
          (changeObjects slot (·.update held) lost).2, rfl, rfl⟩

theorem revoke (bereaved : g.Bereaved lost g') (files : Files) (player upgrade : String) :
    BereavedStep lost (.revoke player upgrade) (g.step files (.revoke player upgrade))
      (g'.step files (.revoke player upgrade)) := by
  obtain ⟨whole, rest⟩ := bereaved
  rw [rest]
  unfold Game.step Game.revoke
  dsimp only
  have resolved : resolve { g with objects := g'.objects } player = g.resolve player := rfl
  rw [resolved]
  cases g.resolve player with
  | error e => exact ⟨.same _ _, lost, whole, rfl⟩
  | ok slot =>
      dsimp only
      cases g.registry.find? upgrade with
      | none => exact ⟨.same _ _, lost, whole, rfl⟩
      | some set =>
          dsimp only
          rw [whole, changeObjects_append]
          exact ⟨curtailed_answer rfl (fun _ => rfl) (fun _ => .inr rfl),
            (changeObjects slot (·.resetModules set) lost).2, rfl, rfl⟩

theorem step (bereaved : g.Bereaved lost g') (files : Files) {c : Command}
    (unrestored : c.isRestore = false) :
    BereavedStep lost c (g.step files c) (g'.step files c) := by
  cases c with
  | restore text => cases unrestored
  | save => exact bereaved.save files
  | newGame => exact bereaved.newGame files
  | spawn owner object names => exact bereaved.spawn files owner object names
  | grant player upgrade => exact bereaved.grant files player upgrade
  | revoke player upgrade => exact bereaved.revoke files player upgrade
  | _ => exact bereaved.passive files rfl nofun

/-- Lost objects make no other difference along a run. -/
theorem run (bereaved : g.Bereaved lost g') {commands : List (Files × Command)}
    (unrestored : ∀ command ∈ commands, command.2.isRestore = false) :
    List.Forall₂ (fun turn turn' => ∃ lost, turn.Bereaved lost turn')
        (g.turns commands) (g'.turns commands) ∧
      ∃ lost, (g.run commands).Bereaved lost (g'.run commands) := by
  induction commands generalizing lost g g' with
  | nil => exact ⟨.nil, lost, bereaved⟩
  | cons command commands ih =>
      rw [List.forall_mem_cons] at unrestored
      obtain ⟨reply, lost', next⟩ := bereaved.step command.1 unrestored.1
      obtain ⟨turns, after⟩ := ih next unrestored.2
      exact ⟨.cons ⟨lost, bereaved, rfl, rfl, reply⟩ turns, after⟩

end Bereaved

/-! ## Refusals -/

/-- The number of named sides alone decides. -/
theorem newGame_eq_error {g : Game} {e : GameError} : g.newGame.1 = .error e ↔
    15 < Roster.namedCount g.sides ∧
      e = .roster (.capacityExceeded (Roster.namedCount g.sides + 1)) := by
  unfold newGame
  cases started : Roster.newGame g.options g.sides g.roster g.teams with
  | ok set =>
      have few := Roster.namedCount_le_of_newGame started
      exact iff_of_false nofun fun refused => absurd refused.1 (Nat.not_lt.mpr few)
  | error why =>
      obtain ⟨many, rfl⟩ := Roster.newGame_eq_error.mp started
      rw [Except.error.injEq, eq_comm, and_iff_right many]

theorem newGame_of_error {g : Game} {e : GameError} (refused : g.newGame.1 = .error e) :
    g.newGame.2 = { g with objects := [] } := by
  unfold newGame at refused ⊢
  cases started : Roster.newGame g.options g.sides g.roster g.teams with
  | ok set =>
      rw [started] at refused
      cases refused
  | error why => rfl

theorem step_newGame_refused {g : Game} {files : Files} {e : GameError} :
    (g.step files .newGame).1 = .responses [.refused e] ↔ g.newGame.1 = .error e :=
  answer_eq_refused fun _ => by simp

/--
A new game is refused if more than fifteen sides are named.  Then the roster with its
players, the teams, the sides with their buildings, and all else that is not an object of
the running game are as before.  The objects are lost, so the game as a whole is as before
only if there are none.  What follows is as if the new game had not been asked for, apart
from the reports of lost objects and from saved games, in which they are missing.
-/
theorem newGame_refused_loses_objects (g : Game) (files : Files) :
    let outcome := g.step files .newGame
    let named := (g.sides.filter (·.isNamed)).length
    ((∃ e, outcome.1 = .responses [.refused e]) ↔ 15 < named) ∧
    ∀ e, outcome.1 = .responses [.refused e] →
      e = .roster (.capacityExceeded (named + 1)) ∧
      outcome.2 = { g with objects := [] } ∧ (outcome.2 = g ↔ g.objects = []) ∧
      ∀ commands, (∀ command ∈ commands, command.2.isRestore = false) →
        List.Forall₂ (fun turn turn' => ∃ lost, turn.Bereaved lost turn')
          (g.turns commands) (outcome.2.turns commands) ∧
        ∃ lost, (g.run commands).Bereaved lost (outcome.2.run commands) := by
  intro outcome named
  have refusal (e : GameError) : outcome.1 = .responses [.refused e] ↔
      15 < named ∧ e = .roster (.capacityExceeded (named + 1)) :=
    step_newGame_refused.trans newGame_eq_error
  refine ⟨?_, fun e refused => ?_⟩
  · simp only [refusal, exists_and_left, exists_eq, and_true]
  · have after : outcome.2 = { g with objects := [] } :=
      newGame_of_error (step_newGame_refused.mp refused)
    have bereaved : g.Bereaved g.objects outcome.2 := by
      rw [after]
      exact ⟨(List.append_nil _).symm, rfl⟩
    refine ⟨((refusal e).mp refused).2, after, ?_, fun commands => bereaved.run⟩
    rw [after]
    exact ⟨fun same => (congrArg Game.objects same).symm, fun none => by rw [← none]⟩

/-- A mill is at work while one side too many is added. -/
def crowding : List Command :=
  .spawn "-" "Mill" [] :: List.replicate 16 (.addSide "playerName=Red")

/-- A new game that is refused is not without consequence. -/
theorem newGame_refused_not_intact :
    ¬ ∀ g : Game, g.Reachable → ∀ files e,
      (g.step files .newGame).1 = .responses [.refused e] →
      (g.step files .newGame).2.roster = g.roster ∧ (g.step files .newGame).2.teams = g.teams ∧
        (g.step files .newGame).2.sides = g.sides ∧
          (g.step files .newGame).2.objects = g.objects := by
  intro intact
  let noFiles : Files := { find := fun _ => .error .missing }
  let crowded := run {} (crowding.map (noFiles, ·))
  have refused : (crowded.step noFiles .newGame).1 =
      .responses [.refused (.roster (.capacityExceeded 17))] := by
    decide +kernel
  obtain ⟨-, -, -, objects⟩ := intact crowded ((Reachable.start {}).run _) noFiles _ refused
  exact absurd objects (by decide +kernel)

end Game

end BattleRoster
