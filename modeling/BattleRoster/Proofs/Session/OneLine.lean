import BattleRoster.Proofs.Roster.Leagues
import BattleRoster.Proofs.Roster.Names
import BattleRoster.Proofs.Session.Holdings
import BattleRoster.Proofs.Session.Listing
import BattleRoster.Proofs.Session.ObjectNames

/-!
# Line feeds in sessions

Commands are typed on lines, so there is no line feed in the names that they give,
those of objects and modules included.  Players and sides may have names and texts
from files and from saved games, and there any character is possible.
-/

namespace BattleRoster

open Text (IsLine)

/-! ## Commands -/

namespace Command

/-- A command that some line leads to. -/
def Typed (c : Command) : Prop :=
  ∃ line, IsLine line ∧ parse? line = some c

/-- There is no line feed in what a typed command names. -/
theorem Typed.isLine {c : Command} (typed : c.Typed) : ∀ word ∈ c.words, IsLine word := by
  obtain ⟨line, isLine, parsed⟩ := typed
  obtain ⟨wellFormed, inside⟩ := parts_of_parse? parsed
  have word {w : String} (isWord : Text.IsWord w) : IsLine w := Text.isLine_of_solid isWord.solid
  have phrase {s : String} (isPhrase : Text.IsPhrase s) : IsLine s := by
    obtain ⟨ws, -, each, rfl⟩ := isPhrase
    exact Text.isLine_unwords.mpr fun w mem => word (each w mem)
  cases c with
  | handshake | ping | clearSides | listSides | newGame | listPlayers | save | quit =>
      exact List.forall_mem_singleton.mpr (by decide)
  | setOption name value =>
      have keywords : IsLine "setoption" ∧ IsLine "name" ∧ IsLine "value" := by decide
      obtain ⟨isPhrase, -, isPhrase'⟩ := wellFormed
      cases value with
      | none => simp [words, keywords, phrase isPhrase]
      | some value => simp [words, keywords, phrase isPhrase, phrase (isPhrase' value rfl)]
  | addSide text | restore text =>
      have keywords : IsLine "side" ∧ IsLine "restore" := by decide
      simp [words, keywords, isLine.of_chars (inside text rfl)]
  | loadSides path | loadBlueprints path =>
      have keywords : IsLine "loadsides" ∧ IsLine "loadupgrades" := by decide
      simp [words, keywords, word wellFormed]
  | stance | grant | revoke =>
      have keywords : IsLine "relationship" ∧ IsLine "grant" ∧ IsLine "revoke" := by decide
      simp [words, keywords, word wellFormed.1, word wellFormed.2]
  | mask source filter =>
      have filterWords : ∀ w ∈ filter.words, IsLine w := by
        rcases filter with ⟨_ | _, _ | _, _ | _, _ | _⟩ <;> decide
      rw [words, List.forall_mem_cons, List.forall_mem_cons]
      exact ⟨by decide, Text.isLine_writeNat _, filterWords⟩
  | spawn owner object modules =>
      obtain ⟨ownerWord, objectWord, moduleWords⟩ := wellFormed
      rw [words, List.forall_mem_cons, List.forall_mem_cons, List.forall_mem_cons]
      exact ⟨by decide, word ownerWord, word objectWord, fun w mem => word (moduleWords w mem)⟩

/--
A command that brings no line feed into the session from outside: not in the
sides of a file, not in the names of a saved game, not in what the system has to
say about a file, and not in what the library has to say about a text that it
refuses, which it may quote.
-/
def BringsLines (files : Files) : Command → Prop
  | .loadSides path => ∀ sides, Side.loadAll files path = .ok sides →
      ∀ s ∈ sides, ∀ text ∈ s.texts, IsLine text
  | .loadBlueprints path =>
      (∀ reason, files.find path = .error (.refused reason) → IsLine reason) ∧
        ∀ text e, files.readText path = .ok text → Blueprint.readAll text = .error e →
          IsLine (files.words .blueprints text)
  | .restore text =>
      (∀ record, GameRecord.read? text = some record →
        (∀ p ∈ record.roster.players, IsLine p.name) ∧
          ∀ o ∈ record.objects, IsLine o.name) ∧
        (GameRecord.read? text = none → IsLine (files.words .record text))
  | _ => True

end Command

/-! ## Players -/

/-- A player of a new game has no name, or a name from a side. -/
theorem Roster.nameAt_cases (sides : List Side) (slot : Slot) :
    nameAt sides slot = "" ∨ ∃ s ∈ sides, nameAt sides slot ∈ s.texts := by
  refine (Decidable.em (nameAt sides slot = "")).imp id fun named => ?_
  obtain ⟨side, mem, same⟩ := exists_side_of_nameAt named
  rw [← same] at named ⊢
  exact ⟨side, mem, Side.playerName_mem_texts named⟩

namespace Game

/-- Where the name of a player comes from after a step. -/
inductive NameSource (g : Game) (name : String) : Command → Prop where
  | kept {c : Command} (slot : Slot) (same : (g.roster.player slot).name = name) :
      NameSource g name c
  | nobody (empty : name = "") : NameSource g name .newGame
  | side {s : Side} (pending : s ∈ g.sides) (among : name ∈ s.texts) :
    NameSource g name .newGame
  | record {text : String} {record : GameRecord} {p : PlayerRecord}
      (read : GameRecord.read? text = some record) (among : p ∈ record.roster.players)
      (same : p.name = name) : NameSource g name (.restore text)

/-- Players are named by sides and by saved games. -/
theorem nameSource_step (files : Files) (g : Game) (c : Command) (slot : Slot) :
    NameSource g ((g.step files c).2.roster.player slot).name c := by
  have kept {c : Command} (going : c ≠ .newGame) (unrestored : c.isRestore = false) :
      NameSource g ((g.step files c).2.roster.player slot).name c := by
    obtain ⟨-, -, -, players, -⟩ :=
      Roster.of_frame_eq (rosterFrame_step files g going unrestored)
    exact .kept slot (congrArg Player.name (players slot)).symm
  cases c with
  | newGame =>
      change NameSource g (g.newGame.2.roster.player slot).name .newGame
      unfold newGame
      split
      · next set started =>
          dsimp only
          rw [Roster.name_newGame started]
          rcases Roster.nameAt_cases g.sides slot with empty | ⟨s, pending, among⟩
          · exact .nobody empty
          · exact .side pending among
      · exact .kept slot rfl
  | restore text =>
      rcases step_restore files g text with ⟨record, read, fits, accepted⟩ | refused
      · rw [accepted, takeOver_of_fits fits]
        dsimp only
        rw [Roster.player_withRecords]
        split
        · next p found => exact .record read (List.mem_of_getElem? found) rfl
        · exact .kept slot rfl
      · rw [refused]
        exact .kept slot rfl
  | _ => exact kept nofun rfl

/-! ## Sessions -/

/-- There is no line feed in the names of players or in the texts of sides. -/
structure OneLine (g : Game) : Prop where
  players : ∀ slot, IsLine (g.roster.player slot).name
  sides : ∀ s ∈ g.sides, ∀ text ∈ s.texts, IsLine text

theorem oneLine_start (options : Options) : ({ options } : Game).OneLine where
  players := Roster.forall_player_initial (P := fun p => IsLine p.name) (fun _ _ line => line)
    (by decide)
  sides := List.forall_mem_nil _

/-- Typed commands bring line feeds from outside only. -/
theorem OneLine.step {g : Game} (oneLine : g.OneLine) {files : Files} {c : Command}
    (typed : c.Typed) (brings : c.BringsLines files) : (g.step files c).2.OneLine where
  players slot := by
    have source := nameSource_step files g c slot
    cases source with
    | kept other same => exact same ▸ oneLine.players other
    | nobody empty => exact empty ▸ (by decide : IsLine "")
    | side pending among => exact oneLine.sides _ pending _ among
    | record read among same =>
        exact same ▸ (brings.1 _ read).1 _ among
  sides s mem text inside := by
    cases sideSource_step mem with
    | kept pending => exact oneLine.sides s pending text inside
    | line parsed =>
        have line := typed.isLine _ (List.mem_cons_of_mem _ List.mem_cons_self)
        exact Side.isLine_of_parse line parsed text inside
    | file loaded among => exact brings _ loaded s among text inside
    | released pending same =>
        exact oneLine.sides _ pending text (Side.mem_texts_release (same ▸ inside))

theorem OneLine.run {g : Game} (oneLine : g.OneLine) {commands : List (Files × Command)}
    (typed : ∀ command ∈ commands, command.2.Typed)
    (brings : ∀ command ∈ commands, command.2.BringsLines command.1) :
    (g.run commands).OneLine := by
  induction commands generalizing g with
  | nil => exact oneLine
  | cons command commands ih =>
      rw [List.forall_mem_cons] at typed brings
      exact ih (oneLine.step typed.1 brings.1) typed.2 brings.2

/-- In a session of typed commands there is no line feed in the name of an object or a module. -/
theorem isLine_objectTexts {g : Game} (sound : g.Sound)
    (lines : ∀ text ∈ g.objectTexts, IsLine text) {commands : List (Files × Command)}
    (typed : ∀ command ∈ commands, command.2.Typed) :
    ∀ text ∈ (g.run commands).objectTexts, IsLine text := by
  induction commands generalizing g with
  | nil => exact lines
  | cons command commands ih =>
      rw [List.forall_mem_cons] at typed
      refine ih (sound.step command.1 command.2) (fun text mem => ?_) typed.2
      rcases mem_objectTexts_step command.1 sound mem with before | named
      · exact lines text before
      · exact typed.1.isLine text (command.2.labels_subset_words named)

end Game

end BattleRoster
