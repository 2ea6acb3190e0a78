import BattleRoster.Proofs.Session.OneLine
import BattleRoster.Proofs.Session.ResponseTexts
import BattleRoster.Proofs.Session.TakingBack

/-!
# The framing of responses

How many responses a command is answered with can be told from the game before
and after it, and each is meant to be one line.  What is written has that number
of lines exactly if no text in a response has a line feed.  Typed commands bring
none, so most responses are always framed; those that repeat names of players,
texts of sides or names in a saved game are not, since these may come from files.
-/

namespace BattleRoster

open Text (IsLine)

/-! ## How many lines are prescribed -/

/--
The number of lines that are prescribed for a turn: one for a request or its
refusal, after one for each item of a listing, and after one for each module that
differs in whether it has been executed.  Silent commands have none.
-/
def Turn.prescribed (turn : Turn) : Nat :=
  match turn.command with
  | .handshake => 7
  | .setOption .. | .clearSides | .addSide _ | .loadSides _ | .quit => 0
  | .ping | .newGame | .stance .. | .mask .. | .save | .restore _ | .loadBlueprints _ => 1
  | .listSides => turn.game.sides.length + 1
  | .listPlayers => turn.game.roster.count + 1
  | .spawn .. | .grant .. | .revoke .. =>
      (Fitting.reports turn.game.fittings turn.next.fittings).length + 1

/-- Whether a response is a refusal. -/
def Response.isRefusal : Response → Bool
  | .refused .. => true
  | _ => false

namespace Game

theorem written_quietly (g : Game) (result : Except GameError Game) :
    (quietly g result).1.written = [] := by
  cases result <;> rfl

theorem length_answer {α : Type} (response : α → Response) (result : Except GameError α) :
    (answer (fun a => [response a]) result).written.length = 1 := by
  cases result <;> rfl

/-- A request that reports modules is answered with the reports and one more response. -/
theorem length_answer_reports {α : Type} {response : α → Response}
    (report : ∀ a, (response a).isReport = true) {last : Response} (other : last.isReport = false)
    (result : Except GameError (List α)) :
    (answer (fun items => items.map response ++ [last]) result).written.length =
      ((answer (fun items => items.map response ++ [last]) result).written.filter
        Response.isReport).length + 1 := by
  cases result with
  | error e => rfl
  | ok items =>
      change (items.map response ++ [last]).length =
        ((items.map response ++ [last]).filter Response.isReport).length + 1
      rw [filter_reports report other, List.length_append]
      rfl

/-- There are as many responses as lines are prescribed. -/
theorem length_written (turn : Turn) (reachable : turn.game.Reachable) :
    turn.written.length = turn.prescribed := by
  obtain ⟨g, files, c⟩ := turn
  change g.Reachable at reachable
  have reporting {c : Command} (goesOn : c ≠ .newGame) (unrestored : c.isRestore = false)
      (one : (g.step files c).1.written.length =
        ((g.step files c).1.written.filter Response.isReport).length + 1) :
      (g.step files c).1.written.length =
        (Fitting.reports g.fittings (g.step files c).2.fittings).length + 1 :=
    one.trans (congrArg (·.length + 1)
      (reports_turn ⟨g, files, c⟩ reachable.unarmed goesOn unrestored))
  cases c with
  | handshake | clearSides | quit | ping | save => rfl
  | setOption name value | addSide line | loadSides path =>
      exact congrArg List.length (written_quietly g _)
  | listSides =>
      change (g.sides.map Response.side ++ [Response.sidesDone]).length = g.sides.length + 1
      rw [List.length_append, List.length_map]
      rfl
  | listPlayers =>
      have count := reachable.sound.roster.count
      change (g.roster.active.map _ ++ [Response.playersDone]).length = g.roster.count + 1
      rw [List.length_append, List.length_map, Roster.active_eq_take reachable.sound.roster,
        List.length_take, Slot.all, List.length_finRange, List.length_singleton]
      omega
  | newGame | stance player other | mask source filter => exact length_answer _ _
  | restore text =>
      unfold Turn.written Turn.reply step
      dsimp only
      split
      · rfl
      · exact length_answer _ _
  | loadBlueprints path =>
      unfold Turn.written Turn.reply step
      dsimp only
      split <;> rfl
  | spawn owner object modules | grant player upgrade | revoke player upgrade =>
      exact reporting (by simp) rfl (length_answer_reports (fun _ => rfl) rfl _)

/-- A request whose result is never answered with a refusal is refused by itself. -/
theorem refused_answer {α : Type} {responses : α → List Response} {result : Except GameError α}
    {e : GameError} {words : String} (never : ∀ a, ∀ r ∈ responses a, r.isRefusal = false)
    (mem : .refused e words ∈ (answer responses result).written) :
    (answer responses result).written = [.refused e words] := by
  cases result with
  | error why => exact congrArg (fun r => [r]) (List.mem_singleton.mp mem).symm
  | ok a => cases never a _ mem

/-- A refusal is all that is written. -/
theorem written_of_refused {turn : Turn} {e : GameError} {words : String}
    (mem : .refused e words ∈ turn.written) : turn.written = [.refused e words] := by
  obtain ⟨g, files, c⟩ := turn
  cases c with
  | handshake | clearSides | quit | ping | save | listSides | listPlayers =>
      simp [Turn.written, Turn.reply, step, handshake, Reply.written] at mem
  | setOption name value | addSide line | loadSides path =>
      change .refused e words ∈ (quietly g _).1.written at mem
      rw [written_quietly] at mem
      cases mem
  | newGame | stance player other | mask source filter =>
      exact refused_answer (fun _ => List.forall_mem_singleton.mpr rfl) mem
  | restore text =>
      unfold Turn.written Turn.reply step at mem ⊢
      dsimp only at mem ⊢
      split at mem
      · exact congrArg (fun r => [r]) (List.mem_singleton.mp mem).symm
      · exact refused_answer (fun _ => List.forall_mem_singleton.mpr rfl) mem
  | loadBlueprints path =>
      unfold Turn.written Turn.reply step at mem ⊢
      dsimp only at mem ⊢
      split at mem
      · cases List.mem_singleton.mp mem
      · exact congrArg (fun r => [r]) (List.mem_singleton.mp mem).symm
  | spawn owner object modules | grant player upgrade | revoke player upgrade =>
      exact refused_answer (fun items => forall_listed items (fun _ => rfl) rfl) mem

end Game

/-! ## Line feeds in refusals -/

namespace Registry

theorem texts_of_register {r r' : Registry} {name : String} {e : UpgradeError}
    (refused : r.register name = (.error e, r')) : e.texts = [] := by
  unfold register at refused
  split at refused
  · cases refused
  · split at refused <;> cases refused
    rfl

theorem texts_of_registerAll {names : List String} {r r' : Registry} {e : UpgradeError}
    (refused : r.registerAll names = (.error e, r')) : e.texts = [] := by
  induction names generalizing r e with
  | nil => cases refused
  | cons name names ih =>
      rw [registerAll] at refused
      split at refused
      · next first =>
          cases refused
          exact texts_of_register first
      · split at refused
        · next rest =>
            cases refused
            exact ih rest
        · cases refused

end Registry

theorem Module.texts_of_build {b : Blueprint} {r r' : Registry} {e : UpgradeError}
    (refused : build b r = (.error e, r')) : e.texts = [] := by
  unfold build at refused
  split at refused
  · next first =>
      cases refused
      exact Registry.texts_of_registerAll first
  · split at refused
    · next second =>
        cases refused
        exact Registry.texts_of_registerAll second
    · split at refused
      · next third =>
          cases refused
          exact Registry.texts_of_registerAll third
      · cases refused

theorem Roster.texts_of_newGame {o : Options} {sides : List Side} {r : Roster} {teams : TeamTable}
    {e : RosterError} (refused : newGame o sides r teams = .error e) : e.texts = [] := by
  unfold newGame at refused
  split at refused
  · cases refused
    rfl
  · cases refused

theorem Roster.texts_of_regarded {r : Roster} {source : Nat} {filter : StanceFilter}
    {e : RosterError} (refused : r.regarded source filter = .error e) : e.texts = [] := by
  unfold regarded at refused
  split at refused
  · cases refused
  · split at refused <;> cases refused
    rfl

/-- The names in a refusal of object records are those of a record and of its object. -/
theorem ObjectRecord.FirstFault.texts {records : List ObjectRecord} {bearers : List Bearer}
    {e : GameError} (fault : FirstFault records bearers e) :
    ∀ text ∈ e.texts,
      (∃ o ∈ records, text = o.name) ∨ text ∈ bearers.flatMap Bearer.texts := by
  induction fault with
  | @here record b e records bearers fault =>
      cases fault with
      | name differs =>
          have live : b.name ∈ (b :: bearers).flatMap Bearer.texts :=
            List.mem_append_left _ List.mem_cons_self
          exact List.forall_mem_cons.mpr ⟨.inl ⟨_, List.mem_cons_self, rfl⟩,
            List.forall_mem_singleton.mpr (.inr live)⟩
      | modules | version => exact List.forall_mem_nil _
  | later fits fault ih =>
      refine fun text mem => (ih text mem).imp ?_ (List.mem_append_right _)
      exact fun ⟨o, among, same⟩ => ⟨o, List.mem_cons_of_mem _ among, same⟩

theorem GameRecord.Fault.texts {record : GameRecord} {g : Game} {e : GameError}
    (fault : record.Fault g e) :
    ∀ text ∈ e.texts, (∃ o ∈ record.objects, text = o.name) ∨ text ∈ g.objectTexts := by
  cases fault with
  | object count fault => exact fault.texts
  | objectCount | roster => exact List.forall_mem_nil _

namespace Game

variable {g : Game} {e : GameError}

theorem isLine_of_resolve {name : String} (line : IsLine name)
    (refused : g.resolve name = .error e) : ∀ text ∈ e.texts, IsLine text := by
  unfold resolve at refused
  dsimp only at refused
  split at refused
  · cases refused
  · cases refused
    refine List.forall_mem_singleton.mpr ?_
    split
    · decide
    · exact line

theorem isLine_of_stance {player other : String} (line : IsLine player) (line' : IsLine other)
    (refused : (do
      let slot ← g.resolve player
      let other ← g.resolve other
      return g.roster.stance slot other : Except GameError Stance) = .error e) :
    ∀ text ∈ e.texts, IsLine text := by
  cases first : g.resolve player with
  | error why =>
      rw [first] at refused
      cases refused
      exact isLine_of_resolve line first
  | ok slot =>
      cases second : g.resolve other with
      | error why =>
          rw [first, second] at refused
          cases refused
          exact isLine_of_resolve line' second
      | ok slot' =>
          rw [first, second] at refused
          cases refused

theorem isLine_of_regarded {source : Nat} {filter : StanceFilter}
    (refused : (g.roster.regarded source filter).mapError GameError.roster = .error e) :
    ∀ text ∈ e.texts, IsLine text := by
  cases regarded : g.roster.regarded source filter with
  | error why =>
      rw [regarded] at refused
      cases refused
      rw [GameError.texts, Roster.texts_of_regarded regarded]
      exact List.forall_mem_nil _
  | ok set =>
      rw [regarded] at refused
      cases refused

theorem isLine_of_newGame (refused : g.newGame.1 = .error e) :
    ∀ text ∈ e.texts, IsLine text := by
  unfold newGame at refused
  split at refused
  · cases refused
  · next full =>
      cases refused
      rw [GameError.texts, Roster.texts_of_newGame full]
      exact List.forall_mem_nil _

theorem isLine_of_buildModules {known : List Blueprint} {names : List String} {r r' : Registry}
    (lines : ∀ name ∈ names, IsLine name)
    (refused : buildModules known names r = (.error e, r')) :
    ∀ text ∈ e.texts, IsLine text := by
  induction names generalizing r e with
  | nil => cases refused
  | cons name names ih =>
      rw [List.forall_mem_cons] at lines
      rw [buildModules] at refused
      split at refused
      · cases refused
        exact List.forall_mem_singleton.mpr lines.1
      · split at refused
        · next first =>
            cases refused
            rw [GameError.texts, Module.texts_of_build first]
            exact List.forall_mem_nil _
        · split at refused
          · next rest =>
              cases refused
              exact ih lines.2 rest
          · cases refused

theorem isLine_of_spawn {owner object : String} {names : List String} (line : IsLine owner)
    (lines : ∀ name ∈ names, IsLine name)
    (refused : (g.spawn owner object names).1 = .error e) :
    ∀ text ∈ e.texts, IsLine text := by
  unfold spawn at refused
  split at refused
  · next unknown =>
      cases refused
      exact isLine_of_resolve line unknown
  · split at refused
    · next unbuilt =>
        cases refused
        exact isLine_of_buildModules lines unbuilt
    · cases refused

theorem isLine_of_grant {player upgrade : String} (line : IsLine player)
    (refused : (g.grant player upgrade).1 = .error e) : ∀ text ∈ e.texts, IsLine text := by
  unfold grant at refused
  split at refused
  · next unknown =>
      cases refused
      exact isLine_of_resolve line unknown
  · split at refused
    · next unregistered =>
        cases refused
        rw [GameError.texts, Registry.texts_of_register unregistered]
        exact List.forall_mem_nil _
    · cases refused

theorem isLine_of_revoke {player upgrade : String} (line : IsLine player) (line' : IsLine upgrade)
    (refused : (g.revoke player upgrade).1 = .error e) : ∀ text ∈ e.texts, IsLine text := by
  unfold revoke at refused
  split at refused
  · next unknown =>
      cases refused
      exact isLine_of_resolve line unknown
  · split at refused
    · cases refused
      exact List.forall_mem_singleton.mpr line'
    · cases refused

theorem isLine_of_takeOver {record : GameRecord} (names : ∀ o ∈ record.objects, IsLine o.name)
    (objects : ∀ text ∈ g.objectTexts, IsLine text)
    (refused : (g.takeOver record).1 = .error e) : ∀ text ∈ e.texts, IsLine text := by
  rcases fits_or_fault g record with fits | ⟨why, fault⟩
  · rw [takeOver_of_fits fits] at refused
    cases refused
  · rw [takeOver_of_fault fault] at refused
    cases refused
    intro text mem
    rcases fault.texts text mem with ⟨o, among, rfl⟩ | live
    · exact names o among
    · exact objects text live

/--
Blueprints are refused for their file, with its path and what the system has to say, or
for their text, with what the library has to say.
-/
theorem isLine_of_loadBlueprints {files : Files} {path : String} (line : IsLine path)
    (brings : (Command.loadBlueprints path).BringsLines files)
    (refused : g.loadBlueprints files path = .error e) :
    ∀ text ∈ e.texts (files.wordsAt .blueprints path), IsLine text := by
  obtain ⟨reasons, quoted⟩ := brings
  unfold loadBlueprints at refused
  split at refused
  · next why unreadable =>
      cases refused
      refine List.forall_mem_cons.mpr ⟨line, ?_⟩
      unfold Files.readText at unreadable
      split at unreadable
      · next failure =>
          cases unreadable
          cases why with
          | refused reason => exact List.forall_mem_singleton.mpr (reasons reason failure)
          | _ => exact List.forall_mem_nil _
      · split at unreadable <;> cases unreadable
        exact List.forall_mem_nil _
  · next text found =>
      have words : files.wordsAt .blueprints path = files.words .blueprints text := by
        rw [Files.wordsAt, found]
      split at refused
      · next e malformed =>
          have line := quoted text e found malformed
          cases refused
          unfold Blueprint.readAll at malformed
          split at malformed <;> cases malformed
          rw [words]
          exact List.forall_mem_singleton.mpr line
      · cases refused

end Game

/-! ## Line feeds in responses -/

/-- Whether a command is answered with texts that need not come from commands. -/
def Command.isEchoing : Command → Bool
  | .listSides | .newGame | .listPlayers | .restore _ | .loadBlueprints _ => true
  | _ => false

namespace Game

/-- Reports name objects and modules. -/
theorem isLine_report {turn : Turn} (unarmed : turn.game.Unarmed)
    (goesOn : turn.command ≠ .newGame) (unrestored : turn.command.isRestore = false)
    (objects : ∀ text ∈ turn.next.objectTexts, IsLine text) {r : Response}
    (mem : r ∈ turn.written) (report : r.isReport = true) :
    ∀ text ∈ r.texts, IsLine text := by
  have reported : r ∈ Fitting.reports turn.game.fittings turn.next.fittings :=
    reports_turn turn unarmed goesOn unrestored ▸ List.mem_filter.mpr ⟨mem, report⟩
  obtain ⟨f, among, named⟩ := Fitting.of_mem_reports reported
  obtain ⟨object, module⟩ := objectTexts_of_fitting among
  rcases named with rfl | rfl
  · exact List.forall_mem_cons.mpr
      ⟨objects _ object, List.forall_mem_singleton.mpr (objects _ module)⟩
  · exact List.forall_mem_cons.mpr
      ⟨objects _ object, List.forall_mem_singleton.mpr (objects _ module)⟩

/-- Where modules are reported, only the other responses have to be considered. -/
theorem isLine_written_of_others {turn : Turn} (reachable : turn.game.Reachable)
    (typed : turn.command.Typed) (objects : ∀ text ∈ turn.game.objectTexts, IsLine text)
    (goesOn : turn.command ≠ .newGame) (unrestored : turn.command.isRestore = false)
    (others : ∀ r ∈ turn.written, r.isReport = false → ∀ text ∈ r.texts, IsLine text) :
    ∀ r ∈ turn.written, ∀ text ∈ r.texts, IsLine text := by
  intro r mem
  cases report : r.isReport with
  | true =>
      refine isLine_report reachable.unarmed goesOn unrestored (fun text inside => ?_) mem report
      rcases mem_objectTexts_step turn.files reachable.sound inside with before | named
      · exact objects text before
      · exact typed.isLine text (turn.command.labels_subset_words named)
  | false => exact others r mem report

/-- After reports there is one other response. -/
theorem isLine_of_last {α : Type} {response : α → Response} {last : Response} {items : List α}
    (report : ∀ a, (response a).isReport = true) (final : ∀ text ∈ last.texts, IsLine text) :
    ∀ r ∈ items.map response ++ [last], r.isReport = false →
      ∀ text ∈ r.texts, IsLine text := by
  rw [List.forall_mem_append, List.forall_mem_map, List.forall_mem_singleton]
  refine ⟨fun a _ other => ?_, fun _ => final⟩
  rw [report] at other
  cases other

/-- There is no line feed in what is written for a typed command, if none comes from outside. -/
theorem isLine_written {turn : Turn} (reachable : turn.game.Reachable)
    (typed : turn.command.Typed) (objects : ∀ text ∈ turn.game.objectTexts, IsLine text)
    (outside : turn.command.isEchoing = true →
      turn.game.OneLine ∧ turn.command.BringsLines turn.files) :
    ∀ r ∈ turn.written, ∀ text ∈ r.texts, IsLine text := by
  obtain ⟨g, files, c⟩ := turn
  have words := typed.isLine
  have nothing : ∀ text ∈ ([] : List String), IsLine text := List.forall_mem_nil _
  cases c with
  | handshake =>
      have names : IsLine "NetworkActive" ∧ IsLine "CampaignForce" ∧
          IsLine "SkirmishSession" := by
        decide
      change ∀ r ∈ g.handshake, ∀ text ∈ r.texts, IsLine text
      simp [handshake, Response.texts, names]
  | clearSides | quit => exact List.forall_mem_nil _
  | ping | save => exact List.forall_mem_singleton.mpr nothing
  | setOption name value | addSide line | loadSides path =>
      change ∀ r ∈ (quietly g _).1.written, ∀ text ∈ r.texts, IsLine text
      rw [written_quietly]
      exact List.forall_mem_nil _
  | listSides =>
      change ∀ r ∈ g.sides.map Response.side ++ [.sidesDone], ∀ text ∈ r.texts, IsLine text
      rw [List.forall_mem_append, List.forall_mem_map, List.forall_mem_singleton]
      exact ⟨(outside rfl).1.sides, nothing⟩
  | listPlayers =>
      change ∀ r ∈ g.roster.active.map
        (fun slot => Response.player slot (g.roster.player slot)) ++
        [.playersDone], ∀ text ∈ r.texts, IsLine text
      rw [List.forall_mem_append, List.forall_mem_map, List.forall_mem_singleton]
      exact ⟨fun slot _ => List.forall_mem_singleton.mpr ((outside rfl).1.players slot),
        nothing⟩
  | newGame =>
      have after : g.newGame.2.OneLine := (outside rfl).1.step typed (outside rfl).2
      exact forall_written_answer (fun e refused => isLine_of_newGame refused) fun _ _ =>
        List.forall_mem_singleton.mpr (List.forall_mem_singleton.mpr (after.players _))
  | stance player other =>
      have line := words player (by simp [Command.words])
      have line' := words other (by simp [Command.words])
      exact forall_written_answer (fun e refused => isLine_of_stance line line' refused) fun _ _ =>
        List.forall_mem_singleton.mpr nothing
  | mask source filter =>
      exact forall_written_answer (fun e refused => isLine_of_regarded refused) fun _ _ =>
        List.forall_mem_singleton.mpr nothing
  | restore text =>
      obtain ⟨names, quoted⟩ := (outside rfl).2
      unfold Turn.written Turn.reply step
      dsimp only
      split
      · next unread =>
          exact List.forall_mem_singleton.mpr (List.forall_mem_singleton.mpr (quoted unread))
      · next record read =>
          exact forall_written_answer
            (fun e refused => isLine_of_takeOver (names record read).2 objects refused)
            fun _ _ => List.forall_mem_singleton.mpr nothing
  | loadBlueprints path =>
      have line := words path (by simp [Command.words])
      unfold Turn.written Turn.reply step
      dsimp only
      split
      · exact List.forall_mem_singleton.mpr nothing
      · next refused =>
          exact List.forall_mem_singleton.mpr
            (isLine_of_loadBlueprints line (outside rfl).2 refused)
  | spawn owner object modules =>
      have line := words owner (by simp [Command.words])
      have line' := words object (by simp [Command.words])
      have lines : ∀ name ∈ modules, IsLine name := fun name mem =>
        words name (by simp [Command.words, mem])
      exact isLine_written_of_others reachable typed objects (by simp) rfl (forall_written_answer
        (fun e refused _ => isLine_of_spawn line lines refused)
        fun fired _ => isLine_of_last (fun _ => rfl) (List.forall_mem_singleton.mpr line'))
  | grant player upgrade =>
      have line := words player (by simp [Command.words])
      exact isLine_written_of_others reachable typed objects (by simp) rfl (forall_written_answer
        (fun e refused _ => isLine_of_grant line refused)
        fun fired _ => isLine_of_last (fun _ => rfl) nothing)
  | revoke player upgrade =>
      have line := words player (by simp [Command.words])
      have line' := words upgrade (by simp [Command.words])
      exact isLine_written_of_others reachable typed objects (by simp) rfl (forall_written_answer
        (fun e refused _ => isLine_of_revoke line line' refused)
        fun lost _ => isLine_of_last (fun _ => rfl) nothing)

/--
A command is answered with as many responses as lines are prescribed, and with one
if it is refused.  What is written has at least that many lines, and no more
exactly if no text in a response has a line feed.  In a session of typed commands
that is so whatever is in files and saved games, unless the command repeats names
and texts from there; these are framed as long as nothing brings in a line feed.
-/
theorem responses_framed (options : Options) (commands : List (Files × Command)) (files : Files)
    (c : Command) :
    let turn : Turn := ⟨run { options } commands, files, c⟩
    let output := Response.write turn.written
    let session := commands ++ [(files, c)]
    turn.written.length = turn.prescribed ∧
      (∀ e words, .refused e words ∈ turn.written → turn.prescribed = 1) ∧
      turn.prescribed ≤ Text.lineCount output ∧
      (Text.lineCount output = turn.prescribed ↔
        ∀ r ∈ turn.written, ∀ text ∈ r.texts, IsLine text) ∧
      ((∀ command ∈ session, command.2.Typed) →
        (c.isEchoing = true → ∀ command ∈ session, command.2.BringsLines command.1) →
        Text.lineCount output = turn.prescribed ∧
          Text.splitOn '\n' output = turn.written.map Response.line ++ [""]) := by
  intro turn output session
  have reachable : turn.game.Reachable := (Reachable.start options).run commands
  have length := length_written turn reachable
  have framed : Text.lineCount output = turn.prescribed ↔
      ∀ r ∈ turn.written, ∀ text ∈ r.texts, IsLine text := by
    rw [← length]
    exact Response.lineCount_write_iff turn.written
  refine ⟨length, fun e words mem => ?_, ?_, framed, fun typed brings => ?_⟩
  · rw [← length, written_of_refused mem]
    rfl
  · rw [← length]
    exact Nat.le.intro (Response.lineCount_write turn.written).symm
  · rw [List.forall_mem_append, List.forall_mem_singleton] at typed
    have objects : ∀ text ∈ turn.game.objectTexts, IsLine text :=
      isLine_objectTexts (Reachable.start options).sound (List.forall_mem_nil _) typed.1
    have lines := isLine_written reachable typed.2 objects fun echoing => by
      have all := brings echoing
      rw [List.forall_mem_append, List.forall_mem_singleton] at all
      exact ⟨(oneLine_start options).run typed.1 all.1, all.2⟩
    exact ⟨framed.mpr lines,
      Response.splitOn_write fun r mem => r.isLine_line.mpr (lines r mem)⟩

/--
The library breaks the framing even of a typed request: a text that is no saved game is
refused on one line more for each line feed in what the library says about it.
-/
theorem lineCount_unread (g : Game) (files : Files) {text : String}
    (unread : GameRecord.read? text = none) :
    Text.lineCount (Response.write (g.step files (.restore text)).1.written) =
      1 + (files.words .record text).toList.count '\n' := by
  have written : (g.step files (.restore text)).1.written =
      [.refused .malformedRecord (files.words .record text)] := by
    unfold step
    dsimp only
    rw [unread]
    rfl
  have fixed : "error ".toList.count '\n' = 0 ∧
      "snapshot encoding error: ".toList.count '\n' = 0 := by decide
  rw [written, Response.lineCount_write, List.flatMap_singleton]
  change 1 +
    ("error " ++ ("snapshot encoding error: " ++ files.words .record text)).toList.count '\n' = _
  rw [String.toList_append, String.toList_append, List.count_append, List.count_append, fixed.1,
    fixed.2, Nat.zero_add, Nat.zero_add]

/-- The players of a side that was typed are listed on a line each. -/
theorem responses_framed_typed :
    let commands : List (Files × Command) :=
      [(noFiles, .addSide "playerName=A"), (noFiles, .newGame)]
    let turn : Turn := ⟨run {} commands, noFiles, .listPlayers⟩
    (∀ command ∈ commands ++ [(noFiles, .listPlayers)],
      command.2.Typed ∧ command.2.BringsLines command.1) ∧
      turn.prescribed = 3 ∧ Text.lineCount (Response.write turn.written) = 3 ∧
      Text.splitOn '\n' (Response.write turn.written) =
        ["player 0 - neutral mask 0x0001 team 0", "player 1 A human mask 0x0002 team 1 local",
          "playersok", ""] := by
  intro commands turn
  have typed : ∀ command ∈ commands ++ [(noFiles, .listPlayers)], command.2.Typed := by
    refine List.forall_mem_cons.mpr
      ⟨⟨"side playerName=A", by decide, by decide +kernel⟩, ?_⟩
    refine List.forall_mem_cons.mpr ⟨⟨"newgame", by decide, by decide +kernel⟩, ?_⟩
    exact List.forall_mem_singleton.mpr ⟨"players", by decide, by decide +kernel⟩
  have brings : ∀ command ∈ commands ++ [(noFiles, .listPlayers)],
      command.2.BringsLines command.1 :=
    List.forall_mem_cons.mpr ⟨trivial, List.forall_mem_cons.mpr ⟨trivial,
      List.forall_mem_singleton.mpr trivial⟩⟩
  obtain ⟨-, -, -, -, framed⟩ := responses_framed {} commands noFiles .listPlayers
  obtain ⟨count, lines⟩ := framed typed fun _ => brings
  have three : turn.prescribed = 3 := by decide +kernel
  refine ⟨fun command mem => ⟨typed command mem, brings command mem⟩, three,
    count.trans three, ?_⟩
  exact lines.trans (by decide +kernel)

/-- A file of one side, whose player has a line feed in its name. -/
def brokenFiles : Files where
  find _ := .ok "\x7b\"sides\":[\x7b\"dict\":\x7b\"playerName\":\"Red\\nBlue\"\x7d\x7d]\x7d".toUTF8

/-- Its player is listed on two lines, and one of them is no response. -/
theorem players_unframed :
    let commands : List (Files × Command) :=
      [(brokenFiles, .loadSides "s.json"), (brokenFiles, .newGame)]
    let turn : Turn := ⟨run {} commands, brokenFiles, .listPlayers⟩
    turn.game.Reachable ∧ (∀ command ∈ commands, command.2.Typed) ∧
      turn.game.roster.count = 2 ∧ turn.prescribed = 3 ∧
      Text.splitOn '\n' (Response.write turn.written) =
        ["player 0 - neutral mask 0x0001 team 0", "player 1 Red",
          "Blue human mask 0x0002 team 1 local", "playersok", ""] ∧
      Text.lineCount (Response.write turn.written) ≠ turn.prescribed := by
  intro commands turn
  refine ⟨(Reachable.start {}).run commands, ?_, by decide +kernel⟩
  refine List.forall_mem_cons.mpr ⟨⟨"loadsides s.json", by decide, by decide +kernel⟩, ?_⟩
  exact List.forall_mem_singleton.mpr ⟨"newgame", by decide, by decide +kernel⟩

end Game

end BattleRoster
