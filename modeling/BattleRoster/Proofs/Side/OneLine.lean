import BattleRoster.Proofs.Side.Lines
import BattleRoster.Proofs.Text.OneLine

/-!
# Line feeds in sides

A side line is broken exactly where a key, a text or a name in it is.  A side
that was read from one line has none to break it, unlike one of a side file.
-/

namespace BattleRoster

def AttributeValue.texts : AttributeValue → List String
  | .text s => [s]
  | .flag _ | .number _ => []

/-- A value of a text is that text or none. -/
theorem AttributeValue.Means.eq_of_mem_texts {s text : String} {value : AttributeValue}
    (means : Means s value) (mem : text ∈ value.texts) : text = s := by
  cases means with
  | text => exact List.mem_singleton.mp mem
  | yes | no | number => cases mem

namespace Side

open Text (IsLine)

def Entry.texts : Entry → List String
  | .slot _ => []
  | .teams names | .buildings names => names
  | .attribute key value => key :: value.texts

def texts (s : Side) : List String :=
  s.entries.flatMap Entry.texts

theorem isLine_toText (value : AttributeValue) :
    IsLine value.toText ↔ ∀ text ∈ value.texts, IsLine text := by
  cases value with
  | flag b => cases b <;> decide
  | number n => simp [AttributeValue.toText, AttributeValue.texts]
  | text s => simp [AttributeValue.toText, AttributeValue.texts]

theorem Entry.isLine_write (e : Entry) : IsLine e.write ↔ ∀ text ∈ e.texts, IsLine text := by
  have reserved : IsLine "slot" ∧ IsLine "teams" ∧ IsLine "build" ∧ IsLine "=" := by decide
  obtain ⟨slot, teams, build, equals⟩ := reserved
  rw [write, Text.isLine_append, Text.isLine_append]
  rcases e with n | names | names | ⟨key, value⟩
  · simp [key, valueText, texts, slot, equals]
  · simp [key, valueText, texts, teams, equals]
  · simp [key, valueText, texts, build, equals]
  · simp [Entry.key, valueText, texts, isLine_toText, equals]

/-- The line of a side is one line if all keys, texts and names in the side are. -/
theorem isLine_encode (s : Side) : IsLine s.encode ↔ ∀ text ∈ s.texts, IsLine text := by
  have parts : (∀ part ∈ s.entries.map Entry.write, IsLine part) ↔
      ∀ e ∈ s.entries, ∀ text ∈ e.texts, IsLine text := by
    rw [List.forall_mem_map]
    exact forall₂_congr fun e _ => e.isLine_write
  rw [encode_eq, Text.isLine_intercalate (by decide), parts, texts, List.forall_mem_flatMap]

/-! ## Reading -/

/-- What is read from a text of one line is in it. -/
theorem Entry.isLine_of_read {text : String} {e : Entry} (line : IsLine text)
    (accepted : read text = .ok e) : ∀ part ∈ e.texts, IsLine part := by
  obtain ⟨key, value, keyed, stands⟩ := read_eq_ok_iff.mp accepted
  obtain ⟨keyInside, valueInside⟩ := keyed.chars
  have valueLine : IsLine value := line.of_chars valueInside
  have words : ∀ word ∈ Text.words value, IsLine word := fun word mem =>
    valueLine.of_chars (Text.of_mem_words mem).2
  rcases stands with - | ⟨-, rfl⟩ | ⟨-, rfl⟩ | ⟨-, -, means⟩
  · simp [texts]
  · exact words
  · exact words
  · rw [texts, List.forall_mem_cons]
    refine ⟨line.of_chars fun c mem => (keyInside c mem).1, fun part mem => ?_⟩
    exact means.eq_of_mem_texts mem ▸ valueLine

theorem mem_texts_iff {s : Side} {text : String} :
    text ∈ s.texts ↔
      (∃ entry ∈ s.attributes.entries, text = entry.1 ∨ text ∈ entry.2.texts) ∨
      text ∈ s.teams ∨
        ∃ buildings ∈ s.buildings, ∃ b ∈ buildings, text = b.blueprint := by
  have teams :
    text ∈ (if s.teams.isEmpty then [] else [Entry.teams s.teams]).flatMap Entry.texts ↔
      text ∈ s.teams := by
    split
    · next none => simp_all
    · simp [Entry.texts]
  have slot : text ∉ (s.lobbySlot.map Entry.slot).toList.flatMap Entry.texts := by
    cases s.lobbySlot <;> simp [Entry.texts]
  have buildings : text ∈ (s.buildings.map fun buildings =>
        Entry.buildings (buildings.map (·.blueprint))).toList.flatMap Entry.texts ↔
      ∃ buildings ∈ s.buildings, ∃ b ∈ buildings, text = b.blueprint := by
    cases s.buildings <;> simp [Entry.texts, eq_comm]
  have attributes : text ∈ (s.attributes.entries.map fun entry =>
        Entry.attribute entry.1 entry.2).flatMap Entry.texts ↔
      ∃ entry ∈ s.attributes.entries, text = entry.1 ∨ text ∈ entry.2.texts := by
    simp [Entry.texts]
  rw [texts, entries, List.flatMap_append, List.flatMap_append, List.flatMap_append,
    List.mem_append, List.mem_append, List.mem_append, teams, buildings, attributes,
    or_iff_left slot, or_assoc]

/-- Nothing is new when the buildings are handed over. -/
theorem mem_texts_release {s : Side} {text : String} (mem : text ∈ s.release.2.texts) :
    text ∈ s.texts := by
  rw [mem_texts_iff] at mem
  rw [mem_texts_iff]
  rcases mem with inAttributes | inTeams | ⟨_, none, -⟩
  · exact .inl inAttributes
  · exact .inr (.inl inTeams)
  · cases none

theorem playerName_mem_texts {s : Side} (named : s.playerName ≠ "") :
    s.playerName ∈ s.texts := by
  unfold playerName Attributes.text at named ⊢
  split at named
  · next text found =>
      have entry := OrderedMap.mem_of_valueAt? found
      exact mem_texts_iff.mpr (.inl ⟨_, entry, .inr List.mem_cons_self⟩)
  · exact absurd rfl named

/-- Only the texts of an entry are new when it is entered. -/
theorem mem_texts_enter {s : Side} {e : Entry} {text : String}
    (mem : text ∈ (Entry.enter s e).texts) : text ∈ s.texts ∨ text ∈ e.texts := by
  rw [mem_texts_iff] at mem
  rw [mem_texts_iff (s := s)]
  rcases mem with ⟨entry, among, inside⟩ | mem | ⟨buildings, given, b, among, rfl⟩
  · rcases e with n | names | names | ⟨key, value⟩
    · exact .inl (.inl ⟨entry, among, inside⟩)
    · exact .inl (.inl ⟨entry, among, inside⟩)
    · exact .inl (.inl ⟨entry, among, inside⟩)
    · rcases OrderedMap.mem_put among with rfl | among
      · exact .inr (by simpa [Entry.texts] using inside)
      · exact .inl (.inl ⟨entry, among, inside⟩)
  · cases e with
    | teams names => exact .inr mem
    | _ => exact .inl (.inr (.inl mem))
  · cases e with
    | buildings names =>
        obtain rfl := Option.some.inj given
        obtain ⟨name, inside, rfl⟩ := List.mem_map.mp among
        exact .inr inside
    | _ => exact .inl (.inr (.inr ⟨buildings, given, b, among, rfl⟩))

/-- A side that is read from one line has no line feed in it. -/
theorem isLine_of_parse {line : String} {s : Side} (isLine : IsLine line)
    (parsed : parse line = .ok s) : ∀ text ∈ s.texts, IsLine text := by
  obtain ⟨entries, each, rfl⟩ := read_of_parse parsed
  have blank : ∀ text ∈ texts {}, IsLine text := List.forall_mem_nil _
  refine List.foldlRecOn entries Entry.enter (motive := fun s => ∀ text ∈ s.texts, IsLine text)
    blank fun s lines e mem text inside => ?_
  rcases mem_texts_enter inside with before | entered
  · exact lines text before
  · obtain ⟨source, among, accepted⟩ := each e mem
    have sourceLine := isLine.of_chars fun c mem => (mem_of_mem_entryTexts among c mem).1
    exact Entry.isLine_of_read sourceLine accepted text entered

end Side

end BattleRoster
