import BattleRoster.Proofs.Side.Entries
import Mathlib.Data.List.Forall2

/-!
# Side lines and the sides they stand for

Nothing is escaped in a side line, so not every side has one: a key, a text or a
name must survive cutting at semicolons and equals signs and the trimming of
blanks, a text must not read as a flag or a number, and a building is told by
its blueprint only.  The sides with a line are the ones that reading leads to.
-/

namespace BattleRoster

/-! ## What a line can express -/

namespace Side

/-- Cutting at semicolons and trimming leave a text alone. -/
structure Inert (s : String) : Prop where
  trimmed : Text.IsTrimmed s
  noSemicolon : ';' ∉ s.toList

/-- A key of an attribute that is read as it is written. -/
structure IsKey (key : String) : Prop extends Inert key where
  nonempty : key ≠ ""
  noEquals : '=' ∉ key.toList
  unreserved : key ∉ ["slot", "teams", "build"]

/-- A text that is read as itself, and not as a flag or a number. -/
structure IsPlainText (s : String) : Prop extends Inert s where
  notTrue : s ≠ "true"
  notFalse : s ≠ "false"
  notNumber : Text.readInt64? s = none

/-- A name in a list of words. -/
structure IsListed (name : String) : Prop extends Text.IsWord name where
  noSemicolon : ';' ∉ name.toList

/-- A building that is told by its blueprint: all its numbers are zero, and it is not built. -/
structure IsUnplaced (b : Building) : Prop where
  blueprint : IsListed b.blueprint
  x : b.x.sameValue {} = true
  y : b.y.sameValue {} = true
  z : b.z.sameValue {} = true
  angle : b.angle.sameValue {} = true
  notBuilt : b.built = false

/-- A side that a line can express. -/
structure WellFormed (s : Side) : Prop where
  keys : ∀ key ∈ s.attributes.keys, IsKey key
  texts : ∀ key text, (key, AttributeValue.text text) ∈ s.attributes.entries →
    IsPlainText text
  teams : ∀ name ∈ s.teams, IsListed name
  buildings : ∀ buildings, s.buildings = some buildings → ∀ b ∈ buildings, IsUnplaced b

end Side

/-! ## Texts of values -/

namespace Side

theorem Inert.of_solid {s : String}
    (solid : ∀ c ∈ s.toList, Text.isBlank c = false ∧ c ≠ ';') :
    Inert s :=
  ⟨Text.isTrimmed_of_solid fun c mem => (solid c mem).1, fun mem => (solid _ mem).2 rfl⟩

theorem solid_of_isDigit {c : Char} (digit : c.isDigit = true) :
    Text.isBlank c = false ∧ c ≠ ';' := by
  refine ⟨Text.isBlank_of_isDigit digit, ?_⟩
  rintro rfl
  exact absurd digit (by decide)

theorem inert_writeNat (n : Nat) : Inert (Text.writeNat n) :=
  .of_solid fun _ mem => solid_of_isDigit (Text.isDigit_of_mem_writeNat mem)

theorem inert_writeInt (n : Int) : Inert (Text.writeInt n) := by
  unfold Text.writeInt
  split
  · refine .of_solid fun c mem => ?_
    rw [String.toList_append] at mem
    rcases List.mem_append.mp mem with mem | mem
    · obtain rfl := List.mem_singleton.mp mem
      decide
    · exact solid_of_isDigit (Text.isDigit_of_mem_writeNat mem)
  · exact inert_writeNat _

theorem inert_unwords {names : List String} (listed : ∀ name ∈ names, IsListed name) :
    Inert (Text.unwords names) := by
  refine ⟨(Text.isTrimmed_unwords fun name mem => (listed name mem).toIsWord).1, fun mem => ?_⟩
  rcases Text.mem_unwords mem with space | ⟨name, among, inside⟩
  · exact absurd space (by decide)
  · exact (listed name among).noSemicolon inside

end Side

namespace AttributeValue

open Side (Inert IsPlainText)

theorem inert_toText {value : AttributeValue}
    (plain : ∀ text, value = .text text → IsPlainText text) : Inert value.toText := by
  cases value with
  | flag b => cases b <;> exact ⟨by decide, by decide⟩
  | number n => exact Side.inert_writeInt n.toInt
  | text s => exact (plain s rfl).toInert

/-- A value is read back from its text, unless the text means something else. -/
theorem ofText_toText {value : AttributeValue}
    (plain : ∀ text, value = .text text → IsPlainText text) : ofText value.toText = value := by
  rw [ofText_eq_iff]
  rcases value with b | n | s
  · cases b
    · exact .no rfl
    · exact .yes rfl
  · exact .number (Text.readInt64?_eq_some.mp (Text.readInt64?_writeInt n))
  · have itself := plain s rfl
    exact .text itself.notTrue itself.notFalse (Text.readInt64?_eq_none.mp itself.notNumber)

/-- Only a plain text is kept as a text. -/
theorem Means.isPlainText {value text : String} (means : Means value (.text text))
    (inert : Inert value) : IsPlainText text := by
  cases means with
  | text notTrue notFalse notNumber =>
      exact ⟨inert, notTrue, notFalse, Text.readInt64?_eq_none.mpr notNumber⟩

end AttributeValue

namespace Side

/-! ## Entries -/

namespace Entry

variable {e : Entry}

/-- An entry that is read as it is written. -/
def Fine : Entry → Prop
  | .slot _ => True
  | .teams names | .buildings names => ∀ name ∈ names, IsListed name
  | .attribute key value => IsKey key ∧ ∀ text, value = .text text → IsPlainText text

/-- The key under which an entry is written. -/
def key : Entry → String
  | .slot _ => "slot"
  | .teams _ => "teams"
  | .buildings _ => "build"
  | .attribute key _ => key

/-- The text of the value of an entry. -/
def valueText : Entry → String
  | .slot n => Text.writeNat n.toNat
  | .teams names | .buildings names => Text.unwords names
  | .attribute _ value => value.toText

/-- An entry in the form that a line has. -/
def write (e : Entry) : String :=
  e.key ++ "=" ++ e.valueText

theorem Fine.key_inert (fine : e.Fine) :
    e.key ≠ "" ∧ '=' ∉ e.key.toList ∧ Text.IsTrimmed e.key ∧ ';' ∉ e.key.toList := by
  have reserved : ∀ word ∈ ["slot", "teams", "build"],
      word ≠ "" ∧ '=' ∉ word.toList ∧ Text.IsTrimmed word ∧ ';' ∉ word.toList := by
    decide
  rcases e with n | names | names | ⟨key, value⟩
  · exact reserved "slot" (by decide)
  · exact reserved "teams" (by decide)
  · exact reserved "build" (by decide)
  · exact ⟨fine.1.nonempty, fine.1.noEquals, fine.1.trimmed, fine.1.noSemicolon⟩

theorem Fine.value_inert (fine : e.Fine) : Inert e.valueText := by
  rcases e with n | names | names | ⟨key, value⟩
  · exact inert_writeNat n.toNat
  · exact inert_unwords fine
  · exact inert_unwords fine
  · exact AttributeValue.inert_toText fine.2

/-- A written entry is one entry of a line, with nothing to trim. -/
theorem Fine.write_inert (fine : e.Fine) : Inert e.write ∧ e.write ≠ "" := by
  obtain ⟨nonempty, -, keyTrimmed, keyClear⟩ := fine.key_inert
  have value := fine.value_inert
  refine ⟨⟨?_, ?_⟩, by simp [write, nonempty]⟩
  · unfold write
    by_cases empty : e.valueText = ""
    · rw [empty, String.append_empty, ← String.append_empty (s := e.key)]
      exact Text.isTrimmed_between nonempty keyTrimmed (by decide) (by decide) ""
    · exact Text.isTrimmed_between nonempty keyTrimmed empty value.trimmed "="
  · intro mem
    rw [write, String.toList_append, String.toList_append] at mem
    rcases List.mem_append.mp mem with mem | mem
    · rcases List.mem_append.mp mem with mem | mem
      · exact keyClear mem
      · exact absurd mem (by decide)
    · exact value.noSemicolon mem

/-- What is written is read back. -/
theorem read_write (fine : e.Fine) : read e.write = .ok e := by
  obtain ⟨-, clear, keyTrimmed, -⟩ := fine.key_inert
  have keyed : Keyed e.write e.key e.valueText :=
    ⟨e.key, e.valueText, rfl, clear, keyTrimmed, fine.value_inert.trimmed⟩
  refine read_of_stands keyed ?_
  rcases e with n | names | names | ⟨key, value⟩
  · exact .slot rfl (Text.readUInt64?_eq_some.mp (Text.readUInt64?_writeNat n))
  · exact .teams rfl (Text.words_unwords fun name mem => (fine name mem).toIsWord)
  · exact .buildings rfl (Text.words_unwords fun name mem => (fine name mem).toIsWord)
  · refine .attribute fine.1.nonempty fine.1.unreserved ?_
    exact AttributeValue.ofText_eq_iff.mp (AttributeValue.ofText_toText fine.2)

theorem listed_of_mem_words {value : String} (clear : ';' ∉ value.toList) :
    ∀ name ∈ Text.words value, IsListed name := by
  intro name mem
  obtain ⟨word, inside⟩ := Text.of_mem_words mem
  exact ⟨word, fun semicolon => clear (inside _ semicolon)⟩

/-- Whatever is read between two semicolons could have been written. -/
theorem fine_of_read {text : String} (clear : ';' ∉ text.toList) (accepted : read text = .ok e) :
    e.Fine := by
  obtain ⟨key, value, keyed, stands⟩ := read_eq_ok_iff.mp accepted
  obtain ⟨keyTrimmed, valueTrimmed⟩ := keyed.trimmed
  obtain ⟨keyInside, valueInside⟩ := keyed.chars
  have inert : Inert value := ⟨valueTrimmed, fun mem => clear (valueInside _ mem)⟩
  rcases stands with - | ⟨-, rfl⟩ | ⟨-, rfl⟩ | ⟨nonempty, free, means⟩
  · trivial
  · exact listed_of_mem_words inert.noSemicolon
  · exact listed_of_mem_words inert.noSemicolon
  · refine ⟨⟨⟨keyTrimmed, ?_⟩, nonempty, ?_, free⟩, ?_⟩
    · exact fun mem => clear (keyInside _ mem).1
    · exact fun mem => (keyInside _ mem).2 rfl
    · rintro text rfl
      exact means.isPlainText inert

end Entry

/-! ## Lines -/

theorem entryTexts_intercalate {texts : List String}
    (inert : ∀ text ∈ texts, Inert text ∧ text ≠ "") :
    entryTexts (";".intercalate texts) = texts := by
  cases texts with
  | nil => rfl
  | cons first rest =>
      have cut : Text.splitOn ';' (";".intercalate (first :: rest)) = first :: rest :=
        Text.splitOn_intercalate (by decide) (fun text mem => (inert text mem).1.noSemicolon)
          (by simp)
      have trimmed : (first :: rest).map Text.trim = first :: rest :=
        (List.map_congr_left fun text mem => (inert text mem).1.trimmed).trans (List.map_id _)
      rw [entryTexts, cut, trimmed, List.filter_eq_self]
      exact fun text mem => bne_iff_ne.mpr (inert text mem).2

theorem mem_of_mem_entryTexts {line text : String} (mem : text ∈ entryTexts line) :
    ∀ c ∈ text.toList, c ∈ line.toList ∧ c ≠ ';' := by
  obtain ⟨among, -⟩ := List.mem_filter.mp mem
  obtain ⟨piece, cut, rfl⟩ := List.mem_map.mp among
  exact fun c inside => Text.of_mem_splitOn cut c (Text.mem_of_mem_trim inside)

theorem noSemicolon_of_mem_entryTexts {line text : String} (mem : text ∈ entryTexts line) :
    ';' ∉ text.toList :=
  fun semicolon => (mem_of_mem_entryTexts mem _ semicolon).2 rfl

/-- A line of fine entries leads to the side into which they are entered. -/
theorem parse_written {entries : List Entry} (fine : ∀ e ∈ entries, e.Fine) :
    parse (";".intercalate (entries.map Entry.write)) = .ok (entries.foldl Entry.enter {}) := by
  have read (s : Side) (each : ∀ e ∈ entries, e.Fine) :
      (entries.map Entry.write).foldlM
        (fun side text => (Entry.read text).map (Entry.enter side)) s =
          .ok (entries.foldl Entry.enter s) := by
    clear fine
    induction entries generalizing s with
    | nil => rfl
    | cons e entries ih =>
        rw [List.map_cons, List.foldlM_cons, Entry.read_write (each e (by simp))]
        exact ih (Entry.enter s e) fun other mem => each other (by simp [mem])
  rw [parse, entryTexts_intercalate]
  · exact read {} fine
  · intro text mem
    obtain ⟨e, among, rfl⟩ := List.mem_map.mp mem
    exact (fine e among).write_inert

/-- A line is read entry by entry. -/
theorem read_of_parse {line : String} {s : Side} (parsed : parse line = .ok s) :
    ∃ entries : List Entry,
      (∀ e ∈ entries, ∃ text ∈ entryTexts line, Entry.read text = .ok e) ∧
      s = entries.foldl Entry.enter {} := by
  have read {texts : List String} (start : Side)
      (accepted : texts.foldlM
        (fun side text => (Entry.read text).map (Entry.enter side)) start = .ok s) :
      ∃ entries : List Entry, (∀ e ∈ entries, ∃ text ∈ texts, Entry.read text = .ok e) ∧
        s = entries.foldl Entry.enter start := by
    induction texts generalizing start with
    | nil =>
        cases accepted
        exact ⟨[], by simp, rfl⟩
    | cons text texts ih =>
        rw [List.foldlM_cons] at accepted
        cases first : Entry.read text with
        | error e =>
            rw [first] at accepted
            cases accepted
        | ok e =>
            rw [first] at accepted
            obtain ⟨entries, each, rest⟩ := ih (Entry.enter start e) accepted
            refine ⟨e :: entries, ?_, rest⟩
            rw [List.forall_mem_cons]
            refine ⟨⟨text, List.mem_cons_self, first⟩, fun other mem => ?_⟩
            obtain ⟨text', among, same⟩ := each other mem
            exact ⟨text', List.mem_cons_of_mem _ among, same⟩
  exact read {} parsed

/-- Every line that is read is one of fine entries, as far as the side is concerned. -/
theorem entries_of_parse {line : String} {s : Side} (parsed : parse line = .ok s) :
    ∃ entries : List Entry, (∀ e ∈ entries, e.Fine) ∧ s = entries.foldl Entry.enter {} := by
  obtain ⟨entries, each, whole⟩ := read_of_parse parsed
  refine ⟨entries, fun e mem => ?_, whole⟩
  obtain ⟨text, among, accepted⟩ := each e mem
  exact Entry.fine_of_read (noSemicolon_of_mem_entryTexts among) accepted

/-! ## Entering -/

/-- Entering a fine entry keeps a side well-formed, and its buildings bare. -/
theorem WellFormed.enter {s : Side} (wellFormed : s.WellFormed) {e : Entry} (fine : e.Fine) :
    (Entry.enter s e).WellFormed := by
  rcases e with n | names | names | ⟨key, value⟩
  · exact { wellFormed with }
  · exact { wellFormed with teams := fine }
  · refine { wellFormed with buildings := ?_ }
    rintro _ ⟨⟩ b mem
    obtain ⟨name, among, rfl⟩ := List.mem_map.mp mem
    have zero : Binary32.sameValue {} {} = true := by decide
    exact ⟨fine name among, zero, zero, zero, zero, rfl⟩
  · refine { wellFormed with keys := ?_, texts := ?_ }
    · intro other mem
      obtain ⟨entry, among, rfl⟩ := List.mem_map.mp mem
      rcases OrderedMap.mem_put among with rfl | among
      · exact fine.1
      · exact wellFormed.keys _ (List.mem_map_of_mem among)
    · intro other text mem
      rcases OrderedMap.mem_put mem with same | among
      · cases same
        exact fine.2 text rfl
      · exact wellFormed.texts other text among

theorem wellFormed_entered {entries : List Entry} (fine : ∀ e ∈ entries, e.Fine) :
    (entries.foldl Entry.enter {}).WellFormed := by
  have blank : WellFormed {} := by
    constructor <;> intros <;> contradiction
  exact List.foldlRecOn entries Entry.enter blank fun _ wellFormed e mem =>
    wellFormed.enter (fine e mem)

/-- A building of which only the blueprint is told. -/
def bareBuilding (b : Building) : Building :=
  { blueprint := b.blueprint }

/-- A side whose buildings are told by their blueprints. -/
def bare (s : Side) : Side :=
  { s with buildings := s.buildings.map fun buildings => buildings.map bareBuilding }

/-- Lines tell no more of buildings than their blueprints. -/
theorem bare_entered (entries : List Entry) :
    (entries.foldl Entry.enter {}).bare = entries.foldl Entry.enter {} := by
  have whole {s : Side} (same : s.bare.buildings = s.buildings) : s.bare = s := by
    obtain ⟨attributes, buildings, lobbySlot, teams⟩ := s
    exact congrArg (Side.mk attributes · lobbySlot teams) same
  have kept (s : Side) (same : s.bare = s) (e : Entry) :
      (Entry.enter s e).bare = Entry.enter s e := by
    rcases e with n | names | names | ⟨key, value⟩
    · exact whole (congrArg Side.buildings same :)
    · exact whole (congrArg Side.buildings same :)
    · exact whole (by simp [Entry.enter, bare, bareBuilding])
    · exact whole (congrArg Side.buildings same :)
  have blank : bare {} = {} := whole rfl
  exact List.foldlRecOn entries Entry.enter (motive := fun s => s.bare = s) blank
    fun s same e _ => kept s same e

/-! ## Writing a side -/

/-- The entries of a side, in the order in which they are written. -/
def entries (s : Side) : List Entry :=
  (s.attributes.entries.map fun entry => .attribute entry.1 entry.2) ++
    (s.lobbySlot.map .slot).toList ++
    (if s.teams.isEmpty then [] else [.teams s.teams]) ++
    (s.buildings.map fun buildings => .buildings (buildings.map (·.blueprint))).toList

theorem encode_eq (s : Side) : s.encode = ";".intercalate (s.entries.map Entry.write) := by
  have attributes : s.attributes.entries.map (fun entry => entry.1 ++ "=" ++ entry.2.toText) =
      (s.attributes.entries.map fun entry => Entry.attribute entry.1 entry.2).map Entry.write := by
    rw [List.map_map]
    rfl
  have listed : s.encodedEntries = s.entries.map Entry.write := by
    unfold encodedEntries entries
    rw [List.map_append, List.map_append, List.map_append, ← attributes]
    congr 1
    · congr 1
      · congr 1
        cases s.lobbySlot <;> rfl
      · split <;> rfl
    · cases s.buildings <;> rfl
  rw [encode, listed]

/-- Only a side with nothing in it has an empty line. -/
theorem encode_eq_empty_iff {s : Side} : s.encode = "" ↔ s = {} := by
  constructor
  · intro empty
    have none : s.entries = [] := by
      cases listed : s.entries with
      | nil => rfl
      | cons e entries =>
          rw [encode_eq, listed, List.map_cons] at empty
          by_cases more : entries.map Entry.write = []
          · rw [more, String.intercalate_singleton] at empty
            simp [Entry.write] at empty
          · rw [String.intercalate_cons_of_ne_nil more] at empty
            simp at empty
    simp only [entries, List.append_eq_nil_iff, List.map_eq_nil_iff, Option.toList_eq_nil_iff,
      Option.map_eq_none_iff, ite_eq_left_iff, List.isEmpty_iff, List.cons_ne_nil, imp_false,
      not_not] at none
    obtain ⟨⟨⟨attributes, lobbySlot⟩, teams⟩, buildings⟩ := none
    obtain ⟨⟨list, ascending⟩, _, _, _⟩ := s
    cases attributes
    cases lobbySlot
    cases teams
    cases buildings
    rfl
  · rintro rfl
    rfl

/-- What is written of a side is entered again as the side, apart from its buildings. -/
theorem entered_entries (s : Side) : s.entries.foldl Entry.enter {} = s.bare := by
  have attributes (list : List (String × AttributeValue)) (side : Side) :
      (list.map fun entry => Entry.attribute entry.1 entry.2).foldl Entry.enter side =
        { side with attributes := side.attributes.insertAll list } := by
    induction list generalizing side with
    | nil => rfl
    | cons entry list ih => exact ih (Entry.enter side (.attribute entry.1 entry.2))
  have same : ({} : Attributes).insertAll s.attributes.entries = s.attributes :=
    OrderedMap.ofList_entries s.attributes
  unfold entries
  rw [List.foldl_append, List.foldl_append, List.foldl_append, attributes, same]
  rcases s with ⟨attributes, buildings, lobbySlot, teams⟩
  cases buildings <;> cases lobbySlot <;> cases teams <;>
    simp [Entry.enter, bare, bareBuilding]

theorem WellFormed.fine {s : Side} (wellFormed : s.WellFormed) : ∀ e ∈ s.entries, e.Fine := by
  intro e mem
  simp only [entries, List.mem_append] at mem
  rcases mem with ((mem | mem) | mem) | mem
  · obtain ⟨entry, among, rfl⟩ := List.mem_map.mp mem
    refine ⟨wellFormed.keys _ (List.mem_map_of_mem among), fun text same => ?_⟩
    exact wellFormed.texts entry.1 text (same ▸ among)
  · obtain ⟨n, -, rfl⟩ := Option.map_eq_some_iff.mp (Option.mem_toList.mp mem)
    trivial
  · split at mem
    · cases mem
    · obtain rfl := List.mem_singleton.mp mem
      exact wellFormed.teams
  · obtain ⟨buildings, given, rfl⟩ := Option.map_eq_some_iff.mp (Option.mem_toList.mp mem)
    intro name among
    obtain ⟨b, inside, rfl⟩ := List.mem_map.mp among
    exact (wellFormed.buildings buildings given b inside).blueprint

/-- Nothing of the line of a well-formed side would be trimmed. -/
theorem WellFormed.encode_trimmed {s : Side} (wellFormed : s.WellFormed) :
    Text.IsTrimmed s.encode := by
  rw [encode_eq]
  refine (Text.isTrimmed_intercalate ";" fun text mem => ?_).1
  obtain ⟨e, among, rfl⟩ := List.mem_map.mp mem
  obtain ⟨inert, nonempty⟩ := (wellFormed.fine e among).write_inert
  exact ⟨inert.trimmed, nonempty⟩

/-- The line of a well-formed side is read as that side with bare buildings. -/
theorem parse_encode {s : Side} (wellFormed : s.WellFormed) : parse s.encode = .ok s.bare := by
  rw [encode_eq, parse_written wellFormed.fine, entered_entries]

/-! ## Equality by values -/

theorem sameValue_zero_iff {x : Binary32} : x.sameValue {} = true ↔ x.magnitude = 0 := by
  constructor
  · intro same
    simp only [Binary32.sameValue, Bool.and_eq_true, Bool.or_eq_true, beq_iff_eq] at same
    rcases same.2 with rfl | ⟨zero, -⟩
    · rfl
    · exact zero
  · intro zero
    simp [Binary32.sameValue, Binary32.isNaN, zero, show ({} : Binary32).magnitude = 0 from rfl]

/-- Which of two numbers is the zero makes no difference. -/
theorem zero_sameValue_iff {x : Binary32} :
    ({} : Binary32).sameValue x = true ↔ x.sameValue {} = true := by
  rw [sameValue_zero_iff]
  constructor
  · intro same
    simp only [Binary32.sameValue, Bool.and_eq_true, Bool.or_eq_true, beq_iff_eq] at same
    rcases same.2 with rfl | ⟨-, zero⟩
    · rfl
    · exact zero
  · intro zero
    simp [Binary32.sameValue, Binary32.isNaN, zero, show ({} : Binary32).magnitude = 0 from rfl]

/-- A building is told by its blueprint if the blueprint alone makes the same building. -/
theorem isUnplaced_iff {b : Building} :
    IsUnplaced b ↔ IsListed b.blueprint ∧ (bareBuilding b).same b = true := by
  constructor
  · rintro ⟨listed, x, y, z, angle, notBuilt⟩
    refine ⟨listed, ?_⟩
    simp [Building.same, bareBuilding, zero_sameValue_iff, x, y, z, angle, notBuilt]
  · rintro ⟨listed, same⟩
    simp only [Building.same, bareBuilding, Bool.and_eq_true, beq_iff_eq,
      zero_sameValue_iff] at same
    obtain ⟨⟨⟨⟨⟨-, x⟩, y⟩, z⟩, angle⟩, notBuilt⟩ := same
    exact ⟨listed, x, y, z, angle, notBuilt.symm⟩

theorem sameBuildings_iff {as bs : List Building} :
    sameBuildings as bs = true ↔ List.Forall₂ (fun a b => a.same b = true) as bs := by
  induction as generalizing bs with
  | nil => cases bs <;> simp [sameBuildings]
  | cons a as ih => cases bs <;> simp [sameBuildings, ih]

theorem same_iff {a b : Side} :
    a.same b = true ↔ a.attributes = b.attributes ∧ a.lobbySlot = b.lobbySlot ∧
      a.teams = b.teams ∧
      Option.Rel (List.Forall₂ fun x y => x.same y = true) a.buildings b.buildings := by
  rcases a with ⟨attributes, as, lobbySlot, teams⟩
  rcases b with ⟨attributes', bs, lobbySlot', teams'⟩
  cases as <;> cases bs <;> simp [same, sameBuildings_iff, and_assoc]

/-- Leaving out what is zero anyway changes no value. -/
theorem WellFormed.same_bare {s : Side} (wellFormed : s.WellFormed) : s.bare.same s = true := by
  refine same_iff.mpr ⟨rfl, rfl, rfl, ?_⟩
  cases given : s.buildings with
  | none =>
      simp only [bare, given]
      exact .none
  | some buildings =>
      simp only [bare, given]
      refine .some (List.forall₂_map_left_iff.mpr (List.forall₂_same.mpr fun b mem => ?_))
      exact (isUnplaced_iff.mp (wellFormed.buildings buildings given b mem)).2

/-- A building is unplaced if it is the same in value as an unplaced one that is bare. -/
theorem IsUnplaced.of_same {a b : Building} (unplaced : IsUnplaced a) (isBare : bareBuilding a = a)
    (same : a.same b = true) : IsUnplaced b := by
  have blueprint : a.blueprint = b.blueprint := by
    simp only [Building.same, Bool.and_eq_true, beq_iff_eq] at same
    exact same.1.1.1.1.1
  have told : bareBuilding b = a := by
    rw [← isBare, bareBuilding, bareBuilding, blueprint]
  exact isUnplaced_iff.mpr ⟨blueprint ▸ unplaced.blueprint, told ▸ same⟩

/-- Only well-formed sides are the same in value as a side that was read. -/
theorem WellFormed.of_same {read s : Side} (wellFormed : read.WellFormed)
    (isBare : read.bare = read) (same : read.same s = true) : s.WellFormed := by
  have agreeing {told given : List Building}
      (agree : List.Forall₂ (fun a b => a.same b = true) told given)
      (unplaced : ∀ a ∈ told, IsUnplaced a) (bare : ∀ a ∈ told, bareBuilding a = a) :
      ∀ b ∈ given, IsUnplaced b := by
    induction agree with
    | nil => simp
    | cons first rest ih =>
        rw [List.forall_mem_cons] at unplaced bare ⊢
        exact ⟨unplaced.1.of_same bare.1 first, ih unplaced.2 bare.2⟩
  obtain ⟨attributes, -, teams, buildings⟩ := same_iff.mp same
  refine ⟨attributes ▸ wellFormed.keys, attributes ▸ wellFormed.texts,
    teams ▸ wellFormed.teams, ?_⟩
  intro given kept
  rw [kept] at buildings
  cases origin : read.buildings with
  | none =>
      rw [origin] at buildings
      cases buildings
  | some told =>
      have bare : told.map bareBuilding = told := by
        have whole := congrArg Side.buildings isBare
        rw [Side.bare, origin] at whole
        exact Option.some.inj whole
      rw [origin] at buildings
      cases buildings with
      | some agree =>
          exact agreeing agree (wellFormed.buildings told origin)
            (List.map_inj_left.mp (bare.trans (List.map_id told).symm))

/-! ## Lines and sides -/

/-- A side that was read is well-formed, and its buildings are bare. -/
theorem wellFormed_of_parse {line : String} {s : Side} (parsed : parse line = .ok s) :
    s.WellFormed ∧ s.bare = s := by
  obtain ⟨entries, fine, rfl⟩ := entries_of_parse parsed
  exact ⟨wellFormed_entered fine, bare_entered entries⟩

/--
Reading leads to well-formed sides only.  Those are the sides that come back
from their own lines, up to the sign of zeros that no line tells; a side that
was read comes back exactly.
-/
theorem parse_encode_iff :
    (∀ line s, parse line = .ok s → s.WellFormed) ∧
    (∀ s, (∃ read, parse s.encode = .ok read ∧ read.same s = true) ↔ s.WellFormed) ∧
    ∀ line s, parse line = .ok s → parse s.encode = .ok s := by
  refine ⟨fun line s parsed => (wellFormed_of_parse parsed).1, fun s => ?_,
    fun line s parsed => ?_⟩
  · constructor
    · rintro ⟨read, parsed, same⟩
      obtain ⟨wellFormed, isBare⟩ := wellFormed_of_parse parsed
      exact wellFormed.of_same isBare same
    · intro wellFormed
      exact ⟨s.bare, parse_encode wellFormed, wellFormed.same_bare⟩
  · obtain ⟨wellFormed, isBare⟩ := wellFormed_of_parse parsed
    rw [parse_encode wellFormed, isBare]

/-- Signs, leading zeros and blanks are gone when a line is written again. -/
theorem parse_encode_iff_normal :
    let s : Side :=
      { attributes := .ofList [("a", .number 7), ("b", .text "x y")]
        buildings := some []
        lobbySlot := some 3 }
    parse "b = x y ; a=+07;slot=3;build=" = .ok s ∧ s.encode = "a=7;b=x y;slot=3;build=" ∧
      s.WellFormed ∧ (∃ read, parse s.encode = .ok read ∧ read.same s = true) ∧
      parse s.encode = .ok s := by
  intro s
  obtain ⟨image, exact, stable⟩ := parse_encode_iff
  have parsed : parse "b = x y ; a=+07;slot=3;build=" = .ok s := by decide +kernel
  have wellFormed := image _ s parsed
  exact ⟨parsed, by decide +kernel, wellFormed, (exact s).mpr wellFormed, stable _ s parsed⟩

end Side

end BattleRoster
