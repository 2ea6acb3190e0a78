import BattleRoster.Proofs.Session.Commands
import BattleRoster.Proofs.Session.ObjectNames

/-!
# Lines that report modules

A command that is read from a line names objects and modules by words.  So the
line of a report tells the object from the module, and no other line that is
written for the same command looks like one: counting lines is counting reports.
-/

namespace BattleRoster

/-! ## Names -/

/-- The object and the module of a label are named by words. -/
structure Fitting.Named (label : String × String) : Prop where
  object : Text.IsWord label.1
  module : Text.IsWord label.2

def Turn.Typed (turn : Turn) : Prop :=
  ∃ line, Command.parse? line = some turn.command

namespace Game

def Named (g : Game) : Prop :=
  ∀ label ∈ g.fittings.map Fitting.label, Fitting.Named label

theorem Named.of_texts {g : Game} (words : ∀ text ∈ g.objectTexts, Text.IsWord text) :
    g.Named := by
  intro label mem
  obtain ⟨f, among, rfl⟩ := List.mem_map.mp mem
  obtain ⟨object, module⟩ := objectTexts_of_fitting among
  exact ⟨words _ object, words _ module⟩

/-- Commands that are read from lines name objects and modules by words. -/
theorem isWord_labels {line : String} {c : Command} (read : Command.parse? line = some c) :
    ∀ text ∈ c.labels, Text.IsWord text := by
  cases c with
  | spawn owner object names =>
      obtain ⟨-, word, words⟩ := Command.wellFormed_of_parse? read
      exact List.forall_mem_cons.mpr ⟨word, words⟩
  | _ => exact List.forall_mem_nil _

/-- In a history of typed turns all objects and modules are named by words. -/
theorem Follows.isWord_objectTexts {g : Game} {turns : List Turn} (follows : g.Follows turns)
    (typed : ∀ turn ∈ turns, turn.Typed) :
    (∀ text ∈ g.objectTexts, Text.IsWord text) ∧
      ∀ turn ∈ turns, ∀ text ∈ turn.next.objectTexts, Text.IsWord text := by
  induction follows with
  | start options => exact ⟨List.forall_mem_nil _, List.forall_mem_nil _⟩
  | begun files earlier ih =>
      rw [objectTexts, objects_begun]
      exact ⟨List.forall_mem_nil _, List.forall_mem_nil _⟩
  | @turn g turns files c earlier goesOn ih =>
      rw [List.forall_mem_append, List.forall_mem_singleton] at typed
      obtain ⟨words, before⟩ := ih typed.1
      obtain ⟨line, read⟩ := typed.2
      have last : ∀ text ∈ (g.step files c).2.objectTexts, Text.IsWord text := fun text mem =>
        (mem_objectTexts_step files earlier.reachable.sound mem).elim (words text)
          (isWord_labels read text)
      exact ⟨last, List.forall_mem_append.mpr ⟨before, List.forall_mem_singleton.mpr last⟩⟩

/-- All that is reported in a history of typed turns is named by words. -/
theorem Follows.named {g : Game} {turns : List Turn} (follows : g.Follows turns)
    (typed : ∀ turn ∈ turns, turn.Typed) : ∀ turn ∈ turns, turn.next.Named :=
  fun turn mem => .of_texts ((follows.isWord_objectTexts typed).2 turn mem)

end Game

/-! ## Telling lines apart -/

/-- The parts around the only space of a text. -/
theorem eq_of_spaced {front back front' back' : String} (clear : ' ' ∉ front.toList)
    (clear' : ' ' ∉ back.toList) (same : front ++ " " ++ back = front' ++ " " ++ back') :
    front = front' ∧ back = back' := by
  have chars := congrArg String.toList same
  simp only [String.toList_append, List.append_assoc] at chars
  change front.toList ++ ' ' :: back.toList = front'.toList ++ ' ' :: back'.toList at chars
  rcases List.append_eq_append_iff.mp chars with ⟨between, longer, rest⟩ |
    ⟨between, shorter, rest⟩
  · cases between with
    | nil =>
        rw [List.append_nil] at longer
        exact ⟨(String.toList_inj.mp longer).symm, String.toList_inj.mp (List.cons.inj rest).2⟩
    | cons space between =>
        obtain ⟨-, rest⟩ := List.cons.inj rest
        exact absurd (by simp [rest]) clear'
  · cases between with
    | nil =>
        rw [List.append_nil] at shorter
        exact ⟨String.toList_inj.mp shorter, (String.toList_inj.mp (List.cons.inj rest).2).symm⟩
    | cons space between =>
        obtain ⟨rfl, -⟩ := List.cons.inj rest
        exact absurd (by simp [shorter]) clear

/-- Lines differ if their keywords do in the first three characters. -/
theorem ne_of_keyword {keyword keyword' : String}
    (differ : 3 ≤ keyword.toList.length ∧ 3 ≤ keyword'.toList.length ∧
      keyword.toList.take 3 ≠ keyword'.toList.take 3) (rest rest' : String) :
    keyword ++ rest ≠ keyword' ++ rest' := by
  obtain ⟨long, long', differ⟩ := differ
  intro same
  have start := congrArg (·.toList.take 3) same
  simp only [String.toList_append, List.take_append_of_le_length long,
    List.take_append_of_le_length long'] at start
  exact differ start

/-- Lines with the same keyword have the same words after it. -/
theorem Fitting.Named.eq_of_line {object module : String} (named : Named (object, module))
    {keyword object' module' : String}
    (same : keyword ++ (object ++ " " ++ module) = keyword ++ (object' ++ " " ++ module')) :
    object = object' ∧ module = module' := by
  have clear {name : String} (word : Text.IsWord name) : ' ' ∉ name.toList := by
    intro mem
    have blank : Text.isBlank ' ' = false := word.solid ' ' mem
    exact absurd blank (by decide)
  exact eq_of_spaced (clear named.object) (clear named.module) ((String.append_right_inj _).mp same)

namespace Response

variable {c : Command} {r : Response}

/-- The words of a report, if it is one, name an object and a module. -/
def Named : Response → Prop
  | .activated object module | .undone object module => Fitting.Named (object, module)
  | _ => True

theorem line_activated (object module : String) :
    (activated object module).line = "activated " ++ (object ++ " " ++ module) := by
  rw [← String.append_assoc, ← String.append_assoc]
  rfl

theorem line_undone (object module : String) :
    (undone object module).line = "reset " ++ (object ++ " " ++ module) := by
  rw [← String.append_assoc, ← String.append_assoc]
  rfl

/-- For a new object and a grant, only the report of a module that fired has its line. -/
theorem line_eq_activated (evaluates : c.isEvaluating = true) (belongs : r.answers c = true)
    (named : r.Named) (object module : String) :
    r.line = (activated object module).line ↔ r = activated object module := by
  refine ⟨fun same => ?_, congrArg line⟩
  rw [line_activated] at same
  cases c with
  | spawn | grant =>
      cases r with
      | activated object' module' =>
          rw [line_activated] at same
          obtain ⟨rfl, rfl⟩ := Fitting.Named.eq_of_line named same
          rfl
      | spawned object' => exact absurd same (ne_of_keyword (by decide) _ _)
      | granted =>
          have padded : "grantok" ++ "" = "activated " ++ (object ++ " " ++ module) :=
            String.append_empty.trans same
          exact absurd padded (ne_of_keyword (by decide) _ _)
      | refused e => exact absurd same (ne_of_keyword (by decide) _ _)
      | _ => cases belongs
  | _ => cases evaluates

/-- For a revocation, only the report of a module that was reset has its line. -/
theorem line_eq_undone (revokes : c.isRevocation = true) (belongs : r.answers c = true)
    (named : r.Named) (object module : String) :
    r.line = (undone object module).line ↔ r = undone object module := by
  refine ⟨fun same => ?_, congrArg line⟩
  rw [line_undone] at same
  cases c with
  | revoke =>
      cases r with
      | undone object' module' =>
          rw [line_undone] at same
          obtain ⟨rfl, rfl⟩ := Fitting.Named.eq_of_line named same
          rfl
      | revoked =>
          have padded : "revokeok" ++ "" = "reset " ++ (object ++ " " ++ module) :=
            String.append_empty.trans same
          exact absurd padded (ne_of_keyword (by decide) _ _)
      | refused e => exact absurd same (ne_of_keyword (by decide) _ _)
      | _ => cases belongs
  | _ => cases revokes

end Response

/-! ## Counting lines -/

namespace Turn

def lines (kind : Command → Bool) (turns : List Turn) : List String :=
  (turns.filter fun turn => kind turn.command).flatMap fun turn => turn.written.map Response.line

/-- Counting the line of a report that is told apart by it is counting the report. -/
theorem count_lines {kind : Command → Bool} {turns : List Turn} {report : Response}
    (apart : ∀ turn ∈ turns, kind turn.command = true →
      ∀ r ∈ turn.written, (r.line = report.line ↔ r = report))
    (elsewhere : ∀ turn ∈ turns, kind turn.command = false → report ∉ turn.written) :
    (lines kind turns).count report.line = (turns.flatMap Turn.written).count report := by
  induction turns with
  | nil => rfl
  | cons turn turns ih =>
      rw [List.forall_mem_cons] at apart elsewhere
      have rest := ih apart.2 elsewhere.2
      unfold lines at rest ⊢
      rw [List.flatMap_cons, List.count_append, ← rest, List.filter_cons]
      cases here : kind turn.command with
      | false =>
          rw [List.count_eq_zero.mpr (elsewhere.1 here), Nat.zero_add]
          rfl
      | true =>
          rw [if_pos rfl, List.flatMap_cons, List.count_append, Nat.add_right_cancel_iff,
            List.count_eq_countP, List.count_eq_countP, List.countP_map]
          refine List.countP_congr fun r mem => ?_
          simpa using apart.1 here r mem

end Turn

namespace Game

/-- What is written for commands that are read from lines names modules by words. -/
theorem Follows.named_written {g : Game} {turns : List Turn} (follows : g.Follows turns)
    (unrestored : ∀ turn ∈ turns, turn.command.isRestore = false)
    (typed : ∀ turn ∈ turns, turn.Typed) :
    ∀ turn ∈ turns, ∀ r ∈ turn.written, r.Named := by
  intro turn mem r among
  obtain ⟨reachable, goesOn⟩ := follows.forall_turns turn mem
  have named := follows.named typed turn mem
  have reports := reports_turn turn reachable.unarmed goesOn (unrestored turn mem)
  cases report : r.isReport with
  | false =>
      cases r with
      | activated | undone => cases report
      | _ => trivial
  | true =>
      obtain ⟨f, fitted, same⟩ :=
        Fitting.of_mem_reports (reports ▸ List.mem_filter.mpr ⟨among, report⟩)
      have labelled := named f.label (List.mem_map_of_mem fitted)
      rcases same with rfl | rfl
      · exact labelled
      · exact labelled

/-- The lines of a history of typed turns tell how often each report was made. -/
theorem Follows.count_lines {g : Game} {turns : List Turn} (follows : g.Follows turns)
    (unrestored : ∀ turn ∈ turns, turn.command.isRestore = false)
    (typed : ∀ turn ∈ turns, turn.Typed) (object module : String) :
    (Turn.lines Command.isEvaluating turns).count (Response.activated object module).line =
        (turns.flatMap Turn.written).count (.activated object module) ∧
      (Turn.lines Command.isRevocation turns).count (Response.undone object module).line =
        (turns.flatMap Turn.written).count (.undone object module) := by
  have named := follows.named_written unrestored typed
  have belongs (turn : Turn) : ∀ r ∈ turn.written, r.answers turn.command = true :=
    answers_step turn.files turn.game turn.command
  have evaluating (c : Command) :
      (Response.activated object module).answers c = c.isEvaluating := by
    cases c <;> rfl
  have revoking (c : Command) : (Response.undone object module).answers c = c.isRevocation := by
    cases c <;> rfl
  constructor
  · refine Turn.count_lines (fun turn mem evaluates r among => ?_) fun turn _ other among => ?_
    · exact Response.line_eq_activated evaluates (belongs turn r among)
        (named turn mem r among) _ _
    · have answers := belongs turn _ among
      rw [evaluating, other] at answers
      cases answers
  · refine Turn.count_lines (fun turn mem revokes r among => ?_) fun turn _ other among => ?_
    · exact Response.line_eq_undone revokes (belongs turn r among) (named turn mem r among) _ _
    · have answers := belongs turn _ among
      rw [revoking, other] at answers
      cases answers

/--
The modules that were reported as fired since the game was begun, less those that
were reported as reset, are as many as the executed modules of the same names.
What is reported in a turn are the modules that it has changed, as they are
ordered in the game, and they stay in their places.  When commands are read from
lines, the lines that are written for new objects and grants, and those that are
written for revocations, can be counted in the stead of the reports.
-/
theorem reports_account {g : Game} {turns : List Turn} (follows : g.Follows turns)
    (unrestored : ∀ turn ∈ turns, turn.command.isRestore = false) :
    (∀ object module : String,
      (turns.flatMap Turn.written).count (.activated object module) =
        (turns.flatMap Turn.written).count (.undone object module) +
          Fitting.executedCount object module g.fittings) ∧
    (∀ turn ∈ turns,
      turn.written.filter Response.isReport =
        Fitting.reports turn.game.fittings turn.next.fittings ∧
      turn.next.GoesOnFrom turn.game) ∧
    ((∀ turn ∈ turns, turn.Typed) → ∀ object module : String,
      (Turn.lines Command.isEvaluating turns).count ("activated " ++ object ++ " " ++ module) =
        (Turn.lines Command.isRevocation turns).count ("reset " ++ object ++ " " ++ module) +
          Fitting.executedCount object module g.fittings) := by
  have counted := follows.count_reports unrestored
  refine ⟨counted, fun turn mem => ?_, fun typed object module => ?_⟩
  · obtain ⟨reachable, goesOn⟩ := follows.forall_turns turn mem
    exact ⟨reports_turn turn reachable.unarmed goesOn (unrestored turn mem),
      goesOn_step reachable.sound turn.files goesOn⟩
  · obtain ⟨fired, undone⟩ := follows.count_lines unrestored typed object module
    have responses := counted object module
    rw [← fired, ← undone] at responses
    exact responses

/-- The lines of a session in which a saw fires, is reset and fires again. -/
def sawing : List String :=
  ["loadupgrades mill", "spawn - Mill Saw Saw", "grant - Steel", "revoke - Steel", "grant - Steel"]

/-- Two saws of a mill fire twice and are reset once. -/
theorem reports_account_sawing :
    let files : Files := { find := fun _ => .ok "[[\"Saw\",[\"Steel\"]]]".toUTF8 }
    let commands := (sawing.filterMap Command.parse?).map fun c => (files, c)
    let g := Game.run {} commands
    let turns := Game.turns {} commands
    g.Follows turns ∧ (∀ turn ∈ turns, turn.command.isRestore = false) ∧
      (∀ turn ∈ turns, turn.Typed) ∧
      (Turn.lines Command.isEvaluating turns).count "activated Mill Saw" = 4 ∧
      (Turn.lines Command.isRevocation turns).count "reset Mill Saw" = 2 ∧
      Fitting.executedCount "Mill" "Saw" g.fittings = 2 ∧
      ∀ object module : String,
        (Turn.lines Command.isEvaluating turns).count ("activated " ++ object ++ " " ++ module) =
          (Turn.lines Command.isRevocation turns).count ("reset " ++ object ++ " " ++ module) +
            Fitting.executedCount object module g.fittings := by
  intro files commands g turns
  have kinds : ∀ c ∈ sawing.filterMap Command.parse?,
      c ≠ .newGame ∧ c.isRestore = false := by
    decide +kernel
  have follows : g.Follows turns := by
    refine (Follows.start {}).run fun command mem => ?_
    obtain ⟨c, among, rfl⟩ := List.mem_map.mp mem
    exact (kinds c among).1
  have unrestored : ∀ turn ∈ turns, turn.command.isRestore = false := by
    refine forall_commands (P := fun c => c.isRestore = false) (fun command mem => ?_) {}
    obtain ⟨c, among, rfl⟩ := List.mem_map.mp mem
    exact (kinds c among).2
  have typed : ∀ turn ∈ turns, turn.Typed := by
    refine forall_commands (P := fun c => ∃ line, Command.parse? line = some c)
      (fun command mem => ?_) {}
    obtain ⟨c, among, rfl⟩ := List.mem_map.mp mem
    obtain ⟨line, -, read⟩ := List.mem_filterMap.mp among
    exact ⟨line, read⟩
  exact ⟨follows, unrestored, typed, by decide +kernel, by decide +kernel, by decide +kernel,
    (reports_account follows unrestored).2.2 typed⟩

end Game

end BattleRoster
