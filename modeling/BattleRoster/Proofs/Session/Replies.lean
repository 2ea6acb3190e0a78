import BattleRoster.Session.Step

/-!
# Responses and their commands

Every response belongs to some commands.  Only a new object and a grant report
modules that have fired, only a revocation reports modules that have been reset,
and only a request to save carries a saved game; any request may be refused.
-/

namespace BattleRoster

/-- Whether a response may be written for a command. -/
def Response.answers (c : Command) : Response → Bool
  | .programName | .programAuthor | .option .. | .protocolVersion | .handshakeDone =>
      (c matches .handshake)
  | .pong => (c matches .ping)
  | .blueprintsLoaded _ => (c matches .loadBlueprints _)
  | .gameStarted .. => (c matches .newGame)
  | .player .. | .playersDone => (c matches .listPlayers)
  | .stance _ => (c matches .stance ..)
  | .mask _ => (c matches .mask ..)
  | .saved _ => (c matches .save)
  | .restored => (c matches .restore _)
  | .side _ | .sidesDone => (c matches .listSides)
  | .activated .. => (c matches .spawn .. | .grant ..)
  | .spawned _ => (c matches .spawn ..)
  | .granted => (c matches .grant ..)
  | .undone .. | .revoked => (c matches .revoke ..)
  | .refused .. => true

def Response.saved? : Response → Option GameRecord
  | .saved record => some record
  | _ => none

def Reply.saved (reply : Reply) : List GameRecord :=
  reply.written.filterMap Response.saved?

namespace Game

/-- A request with a result is refused, or it gets the responses for its result. -/
theorem forall_written_answer {α : Type} {P : Response → Prop} {responses : α → List Response}
    {result : Except GameError α} (refused : ∀ e, result = .error e → P (.refused e))
    (accepted : ∀ a, result = .ok a → ∀ r ∈ responses a, P r) :
    ∀ r ∈ (answer responses result).written, P r := by
  cases result with
  | error e =>
      intro r mem
      obtain rfl := List.mem_singleton.mp mem
      exact refused e rfl
  | ok a => exact accepted a rfl

/-- A request whose result is never answered with a refusal is refused for its own errors only. -/
theorem answer_eq_refused {α : Type} {responses : α → List Response}
    {result : Except GameError α}
    {e : GameError} (never : ∀ a, Response.refused e ∉ responses a) :
    answer responses result = .responses [.refused e] ↔ result = .error e := by
  cases result with
  | error why => simp [answer]
  | ok a =>
      refine iff_of_false (fun same => never a ?_) nofun
      rw [Reply.responses.inj same]
      exact List.mem_singleton_self _

/-- One response for each item, and one at the end. -/
theorem forall_listed {α : Type} {P : Response → Prop} {response : α → Response}
    {last : Response} (items : List α) (each : ∀ a, P (response a)) (final : P last) :
    ∀ r ∈ items.map response ++ [last], P r := by
  intro r mem
  rcases List.mem_append.mp mem with mem | mem
  · obtain ⟨a, -, rfl⟩ := List.mem_map.mp mem
    exact each a
  · obtain rfl := List.mem_singleton.mp mem
    exact final

theorem answers_step (files : Files) (g : Game) (c : Command) :
    ∀ r ∈ (g.step files c).1.written, r.answers c = true := by
  have one {α : Type} {response : α → Response} {result : Except GameError α}
      (fits : ∀ a, (response a).answers c = true) :
      ∀ r ∈ (answer (fun a => [response a]) result).written, r.answers c = true :=
    forall_written_answer (fun _ _ => rfl) fun a _ => List.forall_mem_singleton.mpr (fits a)
  have listed {α : Type} {response : α → Response} {last : Response}
      {result : Except GameError (List α)} (each : ∀ a, (response a).answers c = true)
      (final : last.answers c = true) :
      ∀ r ∈ (answer (fun items => items.map response ++ [last]) result).written,
        r.answers c = true :=
    forall_written_answer (fun _ _ => rfl) fun items _ => forall_listed items each final
  cases c with
  | handshake => simp [step, handshake, Reply.written, Response.answers]
  | clearSides | quit => simp [step, Reply.written]
  | ping | save => exact List.forall_mem_singleton.mpr rfl
  | setOption name value | addSide line | loadSides path =>
      unfold step quietly
      dsimp only
      split <;> simp [Reply.written]
  | listSides => exact forall_listed g.sides (fun _ => rfl) rfl
  | listPlayers => exact forall_listed g.roster.active (fun _ => rfl) rfl
  | newGame | stance player other | mask source filter => exact one fun _ => rfl
  | restore text =>
      unfold step
      dsimp only
      split
      · exact List.forall_mem_singleton.mpr rfl
      · exact one fun _ => rfl
  | loadBlueprints path =>
      unfold step
      dsimp only
      split <;> exact List.forall_mem_singleton.mpr rfl
  | spawn owner object modules | grant player upgrade | revoke player upgrade =>
      exact listed (fun _ => rfl) rfl

/-- Only a request to save writes a saved game. -/
theorem saved_step {files : Files} {g : Game} {c : Command} (other : c ≠ .save) :
    (g.step files c).1.saved = [] := by
  rw [Reply.saved, List.filterMap_eq_nil_iff]
  intro r mem
  have belongs := answers_step files g c r mem
  cases r with
  | saved record =>
      cases c with
      | save => exact absurd rfl other
      | _ => cases belongs
  | _ => rfl

end Game

end BattleRoster
