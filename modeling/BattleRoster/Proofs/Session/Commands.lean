import BattleRoster.Proofs.Text.Pieces
import BattleRoster.Session.Command

/-!
# The grammar of commands

The commands that can be read are those whose parts are what their places in a
line allow: single words, phrases, or a text that takes the rest of the line.
Each of them is read from its own line, and the blanks between the words of a
line do not matter except in such a text.
-/

namespace BattleRoster.Command

/--
What the parts of a command are: words for players, paths, objects and upgrades,
phrases for an option, and for the rest of a line a text that is not trimmed.
-/
def WellFormed : Command → Prop
  | .setOption name value =>
      Text.IsPhrase name ∧ "value" ∉ Text.words name ∧ ∀ text ∈ value, Text.IsPhrase text
  | .addSide text | .restore text => text ≠ "" ∧ Text.IsTrimmed text
  | .loadSides path | .loadBlueprints path => Text.IsWord path
  | .stance player other => Text.IsWord player ∧ Text.IsWord other
  | .spawn owner object modules =>
      Text.IsWord owner ∧ Text.IsWord object ∧ ∀ module ∈ modules, Text.IsWord module
  | .grant player upgrade | .revoke player upgrade => Text.IsWord player ∧ Text.IsWord upgrade
  | .mask .. | .handshake | .ping | .clearSides | .listSides | .newGame | .listPlayers | .save
  | .quit => True

/-- The text of a command that takes the rest of its line. -/
def rest? : Command → Option String
  | .addSide text | .restore text => some text
  | _ => none

/-- Whether the first word of a line takes the rest of it as it stands. -/
def TakesRest (line : String) : Prop :=
  (Text.words line).head? = some "side" ∨ (Text.words line).head? = some "restore"

instance (line : String) : Decidable (TakesRest line) :=
  inferInstanceAs (Decidable (_ ∨ _))

/-! ## Options -/

theorem readOption?_name {name : List String} (filled : name ≠ []) (kept : "value" ∉ name) :
    readOption? ("name" :: name) = some (.setOption (Text.unwords name) none) := by
  have each : ∀ word ∈ name, (decide (word ≠ "value")) = true := by
    intro word mem
    rw [decide_eq_true_iff]
    rintro rfl
    exact kept mem
  have all : name.takeWhile (· ≠ "value") = name := List.takeWhile_eq_self_iff.mpr each
  have none : name.dropWhile (· ≠ "value") = [] := List.dropWhile_eq_nil_iff.mpr each
  have nonempty : name.isEmpty = false := by simpa using filled
  unfold readOption?
  simp only [all, none, nonempty]
  rfl

theorem readOption?_value {name value : List String} (filled : name ≠ [])
    (kept : "value" ∉ name) (filled' : value ≠ []) :
    readOption? ("name" :: (name ++ "value" :: value)) =
      some (.setOption (Text.unwords name) (some (Text.unwords value))) := by
  have each : ∀ word ∈ name, (decide (word ≠ "value")) = true := by
    intro word mem
    rw [decide_eq_true_iff]
    rintro rfl
    exact kept mem
  have before : (name ++ "value" :: value).takeWhile (· ≠ "value") = name := by
    rw [List.takeWhile_append_of_pos each]
    simp
  have after : (name ++ "value" :: value).dropWhile (· ≠ "value") = "value" :: value := by
    rw [List.dropWhile_append_of_pos each]
    simp
  have nonempty : name.isEmpty = false := by simpa using filled
  have nonempty' : value.isEmpty = false := by simpa using filled'
  unfold readOption?
  simp only [before, after, nonempty, List.drop_succ_cons, List.drop_zero, nonempty']
  rfl

/-- An option that is read has a name before the word `value`, and a phrase after it or nothing. -/
theorem readOption?_wellFormed {args : List String} {c : Command}
    (each : ∀ word ∈ args, Text.IsWord word) (read : readOption? args = some c) :
    c.WellFormed ∧ c.rest? = none := by
  unfold readOption? at read
  split at read
  · next args =>
      dsimp only at read
      have words : ∀ word ∈ args, Text.IsWord word := fun word mem => each word (by simp [mem])
      split at read
      · cases read
      · next filled =>
          cases read
          have before : ∀ word ∈ args.takeWhile (· ≠ "value"), Text.IsWord word :=
            fun word mem => words word ((List.takeWhile_prefix _).mem mem)
          have after : ∀ word ∈ (args.dropWhile (· ≠ "value")).drop 1, Text.IsWord word :=
            fun word mem => words word ((List.dropWhile_suffix _).mem (List.mem_of_mem_drop mem))
          refine ⟨⟨⟨_, by simpa using filled, before, rfl⟩, ?_, ?_⟩, rfl⟩
          · rw [Text.words_unwords before]
            intro mem
            simpa using List.mem_takeWhile_imp mem
          · intro text mem
            split at mem
            · cases mem
            · next filled' =>
                cases mem
                exact ⟨_, by simpa using filled', after, rfl⟩
  · cases read

/-! ## The rest of a line -/

/-- A trimmed text after a keyword is the rest of the line. -/
theorem restAfter?_unwords {keyword text : String} (word : Text.IsWord keyword)
    (filled : text ≠ "") (trimmed : Text.IsTrimmed text) :
    restAfter? keyword (Text.unwords [keyword, text]) = some text := by
  have line : Text.unwords [keyword, text] = keyword ++ " " ++ text := by
    rw [Text.unwords_cons (by simp), Text.unwords, String.intercalate_singleton]
  have whole : Text.trim (keyword ++ " " ++ text) = keyword ++ " " ++ text :=
    Text.isTrimmed_between word.nonempty (Text.isTrimmed_of_solid word.solid) filled trimmed " "
  have dropped : (keyword ++ " " ++ text).toList.drop keyword.length = ' ' :: text.toList := by
    rw [String.toList_append, String.toList_append, List.append_assoc]
    exact List.drop_left' String.length_toList
  have rest : Text.trim (String.ofList (' ' :: text.toList)) = text := by
    rw [Text.trim, String.toList_ofList, Text.trimmed_cons_blank (by decide)]
    exact trimmed
  unfold restAfter?
  rw [line, whole, dropped, rest]
  exact if_neg filled

theorem restAfter?_trimmed {keyword line rest : String}
    (found : restAfter? keyword line = some rest) :
    (rest ≠ "" ∧ Text.IsTrimmed rest) ∧ ∀ c ∈ rest.toList, c ∈ line.toList := by
  unfold restAfter? at found
  dsimp only at found
  split at found
  · cases found
  · next filled =>
      obtain rfl := Option.some.inj found
      refine ⟨⟨filled, Text.isTrimmed_trim _⟩, fun c mem => ?_⟩
      have inside := Text.mem_of_mem_trim mem
      rw [String.toList_ofList] at inside
      exact Text.mem_of_mem_trim (List.mem_of_mem_drop inside)

/-! ## Lines -/

/-- A line whose words name a command is that command. -/
theorem parse?_of_ofWords? {line : String} {c : Command}
    (named : ofWords? (Text.words line) = some c) : parse? line = some c := by
  unfold parse?
  split
  · next args words =>
      have unnamed : ofWords? ("side" :: args) = none := rfl
      rw [words, unnamed] at named
      cases named
  · next args words =>
      have unnamed : ofWords? ("restore" :: args) = none := rfl
      rw [words, unnamed] at named
      cases named
  · exact named

/-- A line that does not take its rest as it stands is read word by word. -/
theorem parse?_of_not_takesRest {line : String} (apart : ¬ TakesRest line) :
    parse? line = ofWords? (Text.words line) := by
  unfold parse?
  split
  · next words => exact absurd (.inl (congrArg List.head? words)) apart
  · next words => exact absurd (.inr (congrArg List.head? words)) apart
  · rfl

/-- A command whose parts are words is read if its words name it. -/
theorem parse?_of_words {c : Command} (each : ∀ word ∈ c.words, Text.IsWord word)
    (named : ofWords? c.words = some c) : parse? c.render = some c := by
  apply parse?_of_ofWords?
  rw [render, Text.words_unwords each]
  exact named

/-! ## Reading what is written -/

theorem render_addSide (text : String) : (Command.addSide text).render = "side " ++ text := by
  rw [render, words, Text.unwords_cons (by simp), Text.unwords, String.intercalate_singleton]
  rfl

theorem render_restore (text : String) : (Command.restore text).render = "restore " ++ text := by
  rw [render, words, Text.unwords_cons (by simp), Text.unwords, String.intercalate_singleton]
  rfl

theorem parse?_addSide {text : String} (filled : text ≠ "") (trimmed : Text.IsTrimmed text) :
    parse? (Command.addSide text).render = some (.addSide text) := by
  have keyword : Text.IsWord "side" := by decide
  unfold parse? render words
  rw [Text.words_unwords_texts, List.flatMap_cons, Text.words_of_isWord keyword]
  dsimp only [List.singleton_append]
  rw [restAfter?_unwords keyword filled trimmed]
  rfl

theorem parse?_restore {text : String} (filled : text ≠ "") (trimmed : Text.IsTrimmed text) :
    parse? (Command.restore text).render = some (.restore text) := by
  have keyword : Text.IsWord "restore" := by decide
  unfold parse? render words
  rw [Text.words_unwords_texts, List.flatMap_cons, Text.words_of_isWord keyword]
  dsimp only [List.singleton_append]
  rw [restAfter?_unwords keyword filled trimmed]
  rfl

theorem parse?_setOption {name : String} {value : Option String} (phrase : Text.IsPhrase name)
    (kept : "value" ∉ Text.words name) (phrase' : ∀ text ∈ value, Text.IsPhrase text) :
    parse? (Command.setOption name value).render = some (.setOption name value) := by
  obtain ⟨filled, joined⟩ := Text.isPhrase_iff.mp phrase
  have keywords : Text.words "setoption" = ["setoption"] ∧ Text.words "name" = ["name"] ∧
      Text.words "value" = ["value"] := by decide
  obtain ⟨setoption, nameWord, valueWord⟩ := keywords
  apply parse?_of_ofWords?
  cases value with
  | none =>
      rw [render, words, Text.words_unwords_texts]
      simp only [List.flatMap_cons, List.flatMap_nil, setoption, nameWord, List.append_nil,
        List.singleton_append]
      exact (readOption?_name filled kept).trans (by rw [joined])
  | some text =>
      obtain ⟨filled', joined'⟩ := Text.isPhrase_iff.mp (phrase' text rfl)
      rw [render, words, Text.words_unwords_texts]
      simp only [List.flatMap_cons, List.flatMap_nil, setoption, nameWord, valueWord,
        List.append_nil, List.singleton_append]
      exact (readOption?_value filled kept filled').trans (by rw [joined, joined'])

theorem parse?_mask (source : UInt64) (filter : StanceFilter) :
    parse? (Command.mask source filter).render = some (.mask source filter) := by
  have filterWords : ∀ word ∈ filter.words, Text.IsWord word := by
    rcases filter with ⟨_ | _, _ | _, _ | _, _ | _⟩ <;> decide
  refine parse?_of_words ?_ ?_
  · rw [words, List.forall_mem_cons, List.forall_mem_cons]
    exact ⟨by decide, Text.isWord_writeNat _, filterWords⟩
  · change readMask? (Text.writeNat source.toNat :: filter.words) = _
    rw [readMask?, Text.readUInt64?_writeNat, StanceFilter.ofWords?_words]
    rfl

/-- Every well-formed command is read from its line. -/
theorem parse?_render {c : Command} (wellFormed : c.WellFormed) : parse? c.render = some c := by
  cases c with
  | setOption name value => exact parse?_setOption wellFormed.1 wellFormed.2.1 wellFormed.2.2
  | addSide text => exact parse?_addSide wellFormed.1 wellFormed.2
  | restore text => exact parse?_restore wellFormed.1 wellFormed.2
  | mask source filter => exact parse?_mask source filter
  | loadSides path | loadBlueprints path =>
      refine parse?_of_words ?_ rfl
      rw [words, List.forall_mem_cons, List.forall_mem_singleton]
      exact ⟨by decide, wellFormed⟩
  | stance | grant | revoke =>
      refine parse?_of_words ?_ rfl
      rw [words, List.forall_mem_cons, List.forall_mem_cons, List.forall_mem_singleton]
      exact ⟨by decide, wellFormed⟩
  | spawn owner object modules =>
      refine parse?_of_words ?_ rfl
      rw [words, List.forall_mem_cons, List.forall_mem_cons, List.forall_mem_cons]
      exact ⟨by decide, wellFormed⟩
  | handshake | ping | clearSides | listSides | newGame | listPlayers | save | quit =>
      exact parse?_of_words (by decide) rfl

/-! ## What is read -/

theorem readMask?_eq_some {args : List String} {c : Command} (read : readMask? args = some c) :
    ∃ source filter, c = .mask source filter := by
  cases args with
  | nil => cases read
  | cons word filterWords =>
      obtain ⟨source, -, read⟩ := Option.bind_eq_some_iff.mp read
      obtain ⟨filter, -, read⟩ := Option.bind_eq_some_iff.mp read
      exact ⟨source, filter, (Option.some.inj read).symm⟩

/-- Words that name a command are its parts, and nothing of the line is left. -/
theorem ofWords?_wellFormed {args : List String} {c : Command}
    (each : ∀ word ∈ args, Text.IsWord word) (named : ofWords? args = some c) :
    c.WellFormed ∧ c.rest? = none := by
  unfold ofWords? at named
  split at named
  case h_9 args => exact readOption?_wellFormed (fun word mem => each word (by simp [mem])) named
  case h_10 path | h_11 path =>
    obtain rfl := Option.some.inj named
    exact ⟨each path (by simp), rfl⟩
  case h_12 player other | h_15 player other | h_16 player other =>
    obtain rfl := Option.some.inj named
    exact ⟨⟨each player (by simp), each other (by simp)⟩, rfl⟩
  case h_13 =>
    obtain ⟨source, filter, rfl⟩ := readMask?_eq_some named
    exact ⟨trivial, rfl⟩
  case h_14 owner object modules =>
    obtain rfl := Option.some.inj named
    have built : ∀ word ∈ modules, Text.IsWord word := fun word mem => each word (by simp [mem])
    exact ⟨⟨each owner (by simp), each object (by simp), built⟩, rfl⟩
  case h_17 => cases named
  -- the commands without arguments
  all_goals
    obtain rfl := Option.some.inj named
    exact ⟨trivial, rfl⟩

/-- A command that is read is well formed, and the rest of the line is in the line. -/
theorem parts_of_parse? {line : String} {c : Command} (read : parse? line = some c) :
    c.WellFormed ∧ ∀ text ∈ c.rest?, ∀ letter ∈ text.toList, letter ∈ line.toList := by
  unfold parse? at read
  split at read
  · obtain ⟨rest, found, rfl⟩ := Option.map_eq_some_iff.mp read
    obtain ⟨wellFormed, inside⟩ := restAfter?_trimmed found
    exact ⟨wellFormed, fun text mem => Option.some.inj mem ▸ inside⟩
  · obtain ⟨rest, found, rfl⟩ := Option.map_eq_some_iff.mp read
    obtain ⟨wellFormed, inside⟩ := restAfter?_trimmed found
    exact ⟨wellFormed, fun text mem => Option.some.inj mem ▸ inside⟩
  · obtain ⟨wellFormed, none⟩ :=
      ofWords?_wellFormed (fun word mem => (Text.of_mem_words mem).1) read
    rw [none]
    exact ⟨wellFormed, fun text mem => nomatch mem⟩

theorem wellFormed_of_parse? {line : String} {c : Command} (read : parse? line = some c) :
    c.WellFormed :=
  (parts_of_parse? read).1

/--
The lines of commands are those that the grammar allows.  A command is read from
its own line exactly when it is well formed, whatever is read from a line is well
formed and is read from its own line again, and unless a line begins with `side`
or `restore` only its words matter.
-/
theorem parse?_iff_grammar :
    (∀ c : Command, parse? c.render = some c ↔ c.WellFormed) ∧
      (∀ (line : String) (c : Command), parse? line = some c →
        c.WellFormed ∧ parse? c.render = parse? line) ∧
      ∀ line line' : String, Text.words line = Text.words line' → ¬ TakesRest line →
        parse? line = parse? line' := by
  refine ⟨fun c => ⟨wellFormed_of_parse?, parse?_render⟩, ?_, ?_⟩
  · intro line c read
    have wellFormed := wellFormed_of_parse? read
    exact ⟨wellFormed, (parse?_render wellFormed).trans read.symm⟩
  · intro line line' same apart
    have apart' : ¬ TakesRest line' := by
      rw [TakesRest, ← same]
      exact apart
    rw [parse?_of_not_takesRest apart, parse?_of_not_takesRest apart', same]

/-- Blanks of any kind and number separate words, and a second `value` belongs to the value. -/
theorem parse?_setOption_line :
    ∃ c, c = .setOption "Campaign Force" (some "value on") ∧ c.WellFormed ∧
      parse? "setoption name Campaign Force value value on" = some c ∧
      parse? "setoption  name\tCampaign  Force value value   on" = some c := by
  have read : parse? "setoption name Campaign Force value value on" =
      some (.setOption "Campaign Force" (some "value on")) := by decide
  obtain ⟨wellFormed, again⟩ := parse?_iff_grammar.2.1 _ _ read
  have spaced := parse?_iff_grammar.2.2 "setoption name Campaign Force value value on"
    "setoption  name\tCampaign  Force value value   on" (by decide) (by decide)
  exact ⟨_, rfl, wellFormed, read, spaced.symm.trans read⟩

end BattleRoster.Command
