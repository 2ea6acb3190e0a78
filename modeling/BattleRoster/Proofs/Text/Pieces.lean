import BattleRoster.Text.Decimal
import BattleRoster.Text.Split
import Mathlib.Data.List.DropRight

/-!
# Trimming, cutting and joining

A text that is joined from pieces without the separator is cut into the same
pieces again, and what is cut or trimmed has none of what was cut away.
-/

namespace BattleRoster.Text

/-! ## Trimming -/

theorem mem_of_mem_trimmed {cs : List Char} {c : Char} (mem : c ∈ trimmed cs) : c ∈ cs := by
  have kept : trimmed cs <+: cs.dropWhile isBlank := List.rdropWhile_prefix isBlank _
  exact (List.dropWhile_suffix isBlank).mem (kept.mem mem)

/-- Trimming leaves no blank at either end. -/
theorem ends_trimmed (cs : List Char) :
    (∀ c ∈ (trimmed cs).head?, isBlank c = false) ∧
      ∀ c ∈ (trimmed cs).getLast?, isBlank c = false := by
  have first (l : List Char) : ∀ c ∈ (l.dropWhile isBlank).head?, isBlank c = false := by
    intro c mem
    have stopped := List.head?_dropWhile_not isBlank l
    rw [Option.mem_def.mp mem] at stopped
    exact stopped
  constructor
  · obtain ⟨back, whole⟩ : trimmed cs <+: cs.dropWhile isBlank :=
      List.rdropWhile_prefix isBlank _
    intro c mem
    refine first cs c ?_
    rw [← whole, List.head?_append, Option.mem_def.mp mem]
    rfl
  · intro c mem
    rw [trimmed, List.getLast?_reverse] at mem
    exact first _ c mem

/-- Nothing is trimmed exactly when neither end is blank. -/
theorem trimmed_eq_self_iff {cs : List Char} :
    trimmed cs = cs ↔
      (∀ c ∈ cs.head?, isBlank c = false) ∧ ∀ c ∈ cs.getLast?, isBlank c = false := by
  have kept {l : List Char} (first : ∀ c ∈ l.head?, isBlank c = false) :
      l.dropWhile isBlank = l := by
    cases l with
    | nil => rfl
    | cons c l => exact List.dropWhile_cons_of_neg (by simp [first c rfl])
  constructor
  · intro same
    exact same ▸ ends_trimmed cs
  · rintro ⟨first, last⟩
    rw [← List.head?_reverse] at last
    rw [trimmed, kept first, kept last, List.reverse_reverse]

theorem isTrimmed_iff {s : String} :
    IsTrimmed s ↔ (∀ c ∈ s.toList.head?, isBlank c = false) ∧
      ∀ c ∈ s.toList.getLast?, isBlank c = false := by
  rw [← trimmed_eq_self_iff, IsTrimmed, ← String.toList_inj, toList_trim]

theorem isTrimmed_trim (s : String) : IsTrimmed (trim s) := by
  rw [isTrimmed_iff, toList_trim]
  exact ends_trimmed s.toList

theorem mem_of_mem_trim {s : String} {c : Char} (mem : c ∈ (trim s).toList) : c ∈ s.toList :=
  mem_of_mem_trimmed (toList_trim s ▸ mem)

theorem toList_ne_nil {s : String} (nonempty : s ≠ "") : s.toList ≠ [] := by
  rw [Ne, String.toList_eq_nil_iff]
  exact nonempty

/-- Between two trimmed texts anything may stand. -/
theorem isTrimmed_between {front back : String} (filled : front ≠ "")
    (frontTrimmed : IsTrimmed front) (filled' : back ≠ "") (backTrimmed : IsTrimmed back)
    (middle : String) : IsTrimmed (front ++ middle ++ back) := by
  refine isTrimmed_iff.mpr ⟨?_, ?_⟩
  · intro c mem
    rw [String.toList_append, String.toList_append, List.append_assoc,
      List.head?_append_of_ne_nil _ (toList_ne_nil filled)] at mem
    exact (isTrimmed_iff.mp frontTrimmed).1 c mem
  · intro c mem
    rw [String.toList_append, List.getLast?_append_of_ne_nil _ (toList_ne_nil filled')] at mem
    exact (isTrimmed_iff.mp backTrimmed).2 c mem

/-- What is joined begins and ends as its parts do. -/
theorem isTrimmed_intercalate (joint : String) {parts : List String}
    (each : ∀ part ∈ parts, IsTrimmed part ∧ part ≠ "") :
    IsTrimmed (joint.intercalate parts) ∧ (parts ≠ [] → joint.intercalate parts ≠ "") := by
  induction parts with
  | nil => exact ⟨rfl, fun filled => absurd rfl filled⟩
  | cons part parts ih =>
      obtain ⟨trimmed, nonempty⟩ := each part List.mem_cons_self
      by_cases more : parts = []
      · rw [more, String.intercalate_singleton]
        exact ⟨trimmed, fun _ => nonempty⟩
      · obtain ⟨rest, filled⟩ := ih fun other mem => each other (List.mem_cons_of_mem _ mem)
        rw [String.intercalate_cons_of_ne_nil more]
        refine ⟨isTrimmed_between nonempty trimmed (filled more) rest joint, fun _ => ?_⟩
        simp [nonempty]

/-- Nothing is trimmed between two characters that are not blank. -/
theorem trimmed_of_ends {first last : Char} (start : isBlank first = false)
    (stop : isBlank last = false) (inside : List Char) :
    trimmed (first :: (inside ++ [last])) = first :: (inside ++ [last]) := by
  refine trimmed_eq_self_iff.mpr ⟨?_, ?_⟩
  · rintro c ⟨⟩
    exact start
  · intro c mem
    rw [← List.cons_append, List.getLast?_concat, Option.mem_some_iff] at mem
    exact mem ▸ stop

theorem trimmed_cons_blank {c : Char} (blank : isBlank c = true) (cs : List Char) :
    trimmed (c :: cs) = trimmed cs := by
  rw [trimmed, List.dropWhile_cons_of_pos blank]
  rfl

/-! ## Cutting -/

/-- No piece has an element that cuts. -/
theorem of_mem_pieces {α : Type} {cut : α → Bool} {xs piece : List α}
    (mem : piece ∈ pieces cut xs) :
    ∀ x ∈ piece, x ∈ xs ∧ cut x = false := by
  induction xs generalizing piece with
  | nil =>
      obtain rfl := List.mem_singleton.mp mem
      simp
  | cons head xs ih =>
      unfold pieces at mem
      split at mem
      · rcases List.mem_cons.mp mem with rfl | mem
        · simp
        · intro x among
          exact ⟨List.mem_cons_of_mem _ (ih mem x among).1, (ih mem x among).2⟩
      · next kept =>
          split at mem
          · next none => exact absurd none (pieces_ne_nil cut xs)
          · next first rest found =>
              rw [found] at ih
              rcases List.mem_cons.mp mem with rfl | mem
              · intro x among
                rcases List.mem_cons.mp among with rfl | among
                · exact ⟨List.mem_cons_self, by simpa using kept⟩
                · have inside := ih List.mem_cons_self x among
                  exact ⟨List.mem_cons_of_mem _ inside.1, inside.2⟩
              · intro x among
                have inside := ih (List.mem_cons_of_mem _ mem) x among
                exact ⟨List.mem_cons_of_mem _ inside.1, inside.2⟩

/-- What stands on both sides of a cut is cut by itself. -/
theorem pieces_append {α : Type} {cut : α → Bool} {x : α} (here : cut x = true)
    (before after : List α) :
    pieces cut (before ++ x :: after) = pieces cut before ++ pieces cut after := by
  induction before with
  | nil => simp [pieces, here]
  | cons y before ih =>
      rw [List.cons_append, pieces, pieces, ih]
      split
      · rfl
      · cases found : pieces cut before with
        | nil => exact absurd found (pieces_ne_nil cut before)
        | cons first rest => rfl

/-- What is joined by an element that cuts is cut into the same pieces. -/
theorem pieces_intercalate {α : Type} {cut : α → Bool} {x : α} (here : cut x = true)
    {parts : List (List α)} (solid : ∀ part ∈ parts, ∀ y ∈ part, cut y = false)
    (nonempty : parts ≠ []) : pieces cut ([x].intercalate parts) = parts := by
  induction parts with
  | nil => exact absurd rfl nonempty
  | cons part parts ih =>
      have first := solid part List.mem_cons_self
      cases parts with
      | nil =>
          rw [List.intercalate_singleton]
          exact pieces_of_no_cut first
      | cons next parts =>
          have rest := ih (fun other mem => solid other (List.mem_cons_of_mem _ mem)) (by simp)
          rw [List.intercalate_cons_cons, List.append_assoc, List.singleton_append,
            pieces_append_cut _ first here, rest]

theorem map_ofList_toList (parts : List String) :
    (parts.map String.toList).map String.ofList = parts := by
  induction parts with
  | nil => rfl
  | cons part parts ih => rw [List.map_cons, List.map_cons, String.ofList_toList, ih]

theorem of_mem_splitOn {separator : Char} {s part : String} (mem : part ∈ splitOn separator s) :
    ∀ c ∈ part.toList, c ∈ s.toList ∧ c ≠ separator := by
  obtain ⟨piece, among, rfl⟩ := List.mem_map.mp mem
  intro c inside
  rw [String.toList_ofList] at inside
  obtain ⟨source, kept⟩ := of_mem_pieces among c inside
  exact ⟨source, by simpa using kept⟩

theorem splitOn_intercalate {separator : Char} {joint : String} (one : joint.toList = [separator])
    {parts : List String} (solid : ∀ part ∈ parts, separator ∉ part.toList)
    (nonempty : parts ≠ []) :
    splitOn separator (joint.intercalate parts) = parts := by
  have whole :
      (joint.intercalate parts).toList = [separator].intercalate (parts.map String.toList) := by
    rw [String.toList_intercalate, one]
  have cut : pieces (· == separator) ([separator].intercalate (parts.map String.toList)) =
      parts.map String.toList := by
    refine @pieces_intercalate _ (· == separator) _ (beq_self_eq_true separator) _ ?_
      (List.map_eq_nil_iff.not.mpr nonempty)
    intro part mem c inside
    obtain ⟨text, among, rfl⟩ := List.mem_map.mp mem
    rw [beq_eq_false_iff_ne]
    rintro rfl
    exact solid text among inside
  rw [splitOn, whole, cut, map_ofList_toList]

/-- What is written with an end is that line and nothing after it. -/
theorem splitOn_line {line : String} (single : '\n' ∉ line.toList) :
    splitOn '\n' (line ++ "\n") = [line, ""] := by
  have joined : line ++ "\n" = "\n".intercalate [line, ""] := by
    simp
  rw [joined]
  refine splitOn_intercalate (by decide) ?_ (by simp)
  simp [single]

/-- A text is cut at the first separator, so there is none before the cut. -/
theorem splitFirst_eq_some_iff {separator : Char} {s before after : String} :
    splitFirst separator s = some (before, after) ↔
      separator ∉ before.toList ∧ s.toList = before.toList ++ separator :: after.toList := by
  have passed (l : List Char) : ∀ c ∈ l.takeWhile (· != separator), c ≠ separator := by
    intro c mem
    simpa using List.mem_takeWhile_imp mem
  unfold splitFirst
  constructor
  · intro found
    have whole := List.takeWhile_append_dropWhile (p := (· != separator)) (l := s.toList)
    split at found
    · cases found
    · next c rest stopped =>
        cases found
        have here : c = separator := by
          have stop := List.head?_dropWhile_not (· != separator) s.toList
          rw [stopped] at stop
          simpa using stop
        rw [String.toList_ofList, String.toList_ofList]
        refine ⟨fun mem => passed _ _ mem rfl, ?_⟩
        exact whole.symm.trans (by rw [stopped, here])
  · rintro ⟨clear, whole⟩
    have kept : ∀ c ∈ before.toList, (c != separator) = true := by
      intro c mem
      rw [bne_iff_ne]
      rintro rfl
      exact clear mem
    rw [whole, List.dropWhile_append_of_pos kept, List.takeWhile_append_of_pos kept]
    simp

theorem splitFirst_eq_none_iff {separator : Char} {s : String} :
    splitFirst separator s = none ↔ separator ∉ s.toList := by
  have missing : s.toList.dropWhile (· != separator) = [] ↔ separator ∉ s.toList := by
    simp only [List.dropWhile_eq_nil_iff, bne_iff_ne]
    exact List.forall_mem_ne'
  rw [splitFirst, ← missing]
  cases s.toList.dropWhile (· != separator) <;> simp

/-! ## Words -/

/-- A word has characters, and none of them is blank. -/
structure IsWord (s : String) : Prop where
  nonempty : s ≠ ""
  solid : ∀ c ∈ s.toList, isBlank c = false

instance (s : String) : Decidable (IsWord s) :=
  decidable_of_iff ((s != "" && s.toList.all fun c => !isBlank c) = true)
    ⟨fun h => by
      simp only [Bool.and_eq_true, bne_iff_ne, List.all_eq_true, Bool.not_eq_true'] at h
      exact ⟨h.1, h.2⟩, fun h => by simpa using ⟨h.nonempty, h.solid⟩⟩

theorem isTrimmed_of_solid {s : String} (solid : ∀ c ∈ s.toList, isBlank c = false) :
    IsTrimmed s := by
  refine isTrimmed_iff.mpr ⟨?_, ?_⟩
  · exact fun c mem => solid c (List.mem_of_head? mem)
  · exact fun c mem => solid c (List.mem_of_getLast? mem)

theorem isBlank_of_isDigit {c : Char} (digit : c.isDigit = true) : isBlank c = false := by
  have digits : 48 ≤ c.toNat ∧ c.toNat ≤ 57 := by
    simpa [Char.isDigit, UInt32.le_iff_toNat_le] using digit
  have elsewhere : ∀ range ∈ blankRanges, range.2 < 48 ∨ 57 < range.1 := by decide
  rw [Bool.eq_false_iff]
  intro blank
  obtain ⟨range, among, within⟩ := List.any_eq_true.mp blank
  simp only [Bool.and_eq_true, decide_eq_true_eq] at within
  have outside := elsewhere range among
  omega

/-- A number is written as a word. -/
theorem isWord_writeNat (n : Nat) : IsWord (writeNat n) := by
  refine ⟨?_, fun c mem => isBlank_of_isDigit (isDigit_of_mem_writeNat mem)⟩
  rw [Ne, ← String.toList_eq_nil_iff, toList_writeNat]
  exact Nat.toDigits_ne_nil

/-- The words of a text are words, from the characters of the text. -/
theorem of_mem_words {s word : String} (mem : word ∈ words s) :
    IsWord word ∧ ∀ c ∈ word.toList, c ∈ s.toList := by
  obtain ⟨piece, among, rfl⟩ := List.mem_map.mp mem
  obtain ⟨cut, filled⟩ := List.mem_filter.mp among
  have inside : ∀ c ∈ (String.ofList piece).toList, c ∈ s.toList ∧ isBlank c = false := by
    rw [String.toList_ofList]
    exact of_mem_pieces cut
  refine ⟨⟨?_, fun c mem => (inside c mem).2⟩, fun c mem => (inside c mem).1⟩
  rw [Ne, String.ofList_eq_empty_iff]
  simpa using filled

theorem words_of_isWord {word : String} (isWord : IsWord word) : words word = [word] := by
  have filled : (! word.toList.isEmpty) = true := by simpa using isWord.nonempty
  rw [words, wordLists, pieces_of_no_cut isWord.solid, List.filter_cons, filled, if_pos rfl,
    List.filter_nil, List.map_singleton, String.ofList_toList]

/-- The words around a space are those before it and those after it. -/
theorem words_append_space (front back : String) :
    words (front ++ " " ++ back) = words front ++ words back := by
  have chars : (front ++ " " ++ back).toList = front.toList ++ ' ' :: back.toList := by
    rw [String.toList_append, String.toList_append, List.append_assoc]
    rfl
  have blank : isBlank ' ' = true := by decide
  rw [words, wordLists, chars, pieces_append blank, List.filter_append, List.map_append]
  rfl

theorem unwords_cons {w : String} {ws : List String} (more : ws ≠ []) :
    unwords (w :: ws) = w ++ " " ++ unwords ws :=
  String.intercalate_cons_of_ne_nil more

/-- The words of texts that are joined by spaces are the words of each in turn. -/
theorem words_unwords_texts (texts : List String) :
    words (unwords texts) = texts.flatMap words := by
  induction texts with
  | nil => rfl
  | cons text texts ih =>
      by_cases more : texts = []
      · rw [more, List.flatMap_singleton, unwords, String.intercalate_singleton]
      · rw [unwords_cons more, words_append_space, ih, List.flatMap_cons]

/-- Words that are joined by spaces are the words of the whole. -/
theorem words_unwords {ws : List String} (each : ∀ w ∈ ws, IsWord w) :
    words (unwords ws) = ws := by
  rw [words_unwords_texts]
  induction ws with
  | nil => rfl
  | cons w ws ih =>
      rw [List.flatMap_cons, words_of_isWord (each w List.mem_cons_self),
        ih fun other mem => each other (List.mem_cons_of_mem _ mem)]
      rfl

theorem mem_unwords {ws : List String} {c : Char} (mem : c ∈ (unwords ws).toList) :
    c = ' ' ∨ ∃ w ∈ ws, c ∈ w.toList := by
  induction ws with
  | nil => cases mem
  | cons w ws ih =>
      by_cases more : ws = []
      · subst more
        exact .inr ⟨w, by simp, by simpa [unwords] using mem⟩
      · rw [unwords_cons more, String.toList_append, String.toList_append] at mem
        rcases List.mem_append.mp mem with mem | mem
        · rcases List.mem_append.mp mem with mem | mem
          · exact .inr ⟨w, by simp, mem⟩
          · exact .inl (List.mem_singleton.mp mem)
        · rcases ih mem with space | ⟨word, among, inside⟩
          · exact .inl space
          · exact .inr ⟨word, by simp [among], inside⟩

/-- Joined words begin and end with characters of words. -/
theorem isTrimmed_unwords {ws : List String} (each : ∀ w ∈ ws, IsWord w) :
    IsTrimmed (unwords ws) ∧ (ws ≠ [] → unwords ws ≠ "") :=
  isTrimmed_intercalate " " fun w mem =>
    ⟨isTrimmed_of_solid (each w mem).solid, (each w mem).nonempty⟩

/-- Some words joined by single spaces. -/
def IsPhrase (s : String) : Prop :=
  ∃ ws, ws ≠ [] ∧ (∀ w ∈ ws, IsWord w) ∧ unwords ws = s

/-- A phrase is made of its own words. -/
theorem isPhrase_iff {s : String} : IsPhrase s ↔ words s ≠ [] ∧ unwords (words s) = s := by
  constructor
  · rintro ⟨ws, filled, each, rfl⟩
    rw [words_unwords each]
    exact ⟨filled, rfl⟩
  · rintro ⟨filled, joined⟩
    exact ⟨words s, filled, fun w mem => (of_mem_words mem).1, joined⟩

instance (s : String) : Decidable (IsPhrase s) :=
  decidable_of_iff _ isPhrase_iff.symm

end BattleRoster.Text
