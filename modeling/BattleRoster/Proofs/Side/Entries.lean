import BattleRoster.Proofs.Text.Numerals
import BattleRoster.Proofs.Text.Pieces
import BattleRoster.Side.Notation

/-!
# Entries of side lines

An entry has a key and a value, which its first equals sign separates.  The key
decides what the value stands for.  An entry is refused if it has no equals sign, if
its key is empty, or if it is to give a slot and its value is no number of one.
-/

namespace BattleRoster

open Text (Signed Unsigned)

/-! ## Values of attributes -/

namespace AttributeValue

/-- A text stands for a flag or a number, and else for itself. -/
inductive Means (s : String) : AttributeValue → Prop where
  | yes (shape : s = "true") : Means s (.flag true)
  | no (shape : s = "false") : Means s (.flag false)
  | number {n : Int64} (numeral : Signed s.toList n.toInt) : Means s (.number n)
  | text (notTrue : s ≠ "true") (notFalse : s ≠ "false")
      (notNumber : ¬ ∃ n : Int64, Signed s.toList n.toInt) : Means s (.text s)

theorem ofText_eq_iff {s : String} {value : AttributeValue} :
    ofText s = value ↔ Means s value := by
  constructor
  · rintro rfl
    unfold ofText
    split
    · next shape => exact .yes shape
    · next notTrue =>
        split
        · next shape => exact .no shape
        · next notFalse =>
            split
            · next read => exact .number (Text.readInt64?_eq_some.mp read)
            · next refused => exact .text notTrue notFalse (Text.readInt64?_eq_none.mp refused)
  · rintro (rfl | rfl | numeral | ⟨notTrue, notFalse, notNumber⟩)
    · rfl
    · rfl
    · have read := Text.readInt64?_eq_some.mpr numeral
      have differs {word : String} (unreadable : Text.readInt64? word = none) : s ≠ word := by
        rintro rfl
        cases unreadable.symm.trans read
      rw [ofText, if_neg (differs (by decide)), if_neg (differs (by decide)), read]
    · rw [ofText, if_neg notTrue, if_neg notFalse, Text.readInt64?_eq_none.mpr notNumber]

end AttributeValue

namespace Side

variable {entry key value : String} {e : Entry} {why : SideError}

/-! ## Keys and values -/

/-- An entry has a key before its first equals sign and a value after it, without blanks around. -/
def Keyed (entry key value : String) : Prop :=
  ∃ before after, entry = before ++ "=" ++ after ∧ '=' ∉ before.toList ∧
    Text.trim before = key ∧ Text.trim after = value

/-- The key of an entry, if there is an equals sign after it. -/
def key? (entry : String) : Option String :=
  (Text.splitFirst '=' entry).map fun parts => Text.trim parts.1

theorem keyed_iff : Keyed entry key value ↔ ∃ before after,
    Text.splitFirst '=' entry = some (before, after) ∧
      Text.trim before = key ∧ Text.trim after = value := by
  have whole (before after : String) : entry = before ++ "=" ++ after ↔
      entry.toList = before.toList ++ '=' :: after.toList := by
    rw [← String.toList_inj, String.toList_append, String.toList_append, List.append_assoc]
    rfl
  refine exists₂_congr fun before after => ?_
  rw [whole, Text.splitFirst_eq_some_iff, and_assoc, and_left_comm]

theorem key?_eq_some_iff : key? entry = some key ↔ ∃ value, Keyed entry key value := by
  simp only [keyed_iff, key?, Option.map_eq_some_iff, Prod.exists]
  constructor
  · rintro ⟨before, after, cut, same⟩
    exact ⟨_, before, after, cut, same, rfl⟩
  · rintro ⟨_, before, after, cut, same, -⟩
    exact ⟨before, after, cut, same⟩

/-- An entry has one key and one value. -/
theorem Keyed.unique {key' value' : String} (keyed : Keyed entry key value)
    (again : Keyed entry key' value') : key = key' ∧ value = value' := by
  obtain ⟨before, after, cut, rfl, rfl⟩ := keyed_iff.mp keyed
  obtain ⟨_, _, cut', rfl, rfl⟩ := keyed_iff.mp again
  cases cut.symm.trans cut'
  exact ⟨rfl, rfl⟩

theorem Keyed.trimmed (keyed : Keyed entry key value) :
    Text.IsTrimmed key ∧ Text.IsTrimmed value := by
  obtain ⟨before, after, -, -, rfl, rfl⟩ := keyed
  exact ⟨Text.isTrimmed_trim before, Text.isTrimmed_trim after⟩

/-- The key and the value are parts of the entry. -/
theorem Keyed.chars (keyed : Keyed entry key value) :
    (∀ c ∈ key.toList, c ∈ entry.toList ∧ c ≠ '=') ∧
      ∀ c ∈ value.toList, c ∈ entry.toList := by
  obtain ⟨before, after, rfl, clear, rfl, rfl⟩ := keyed
  refine ⟨fun c mem => ?_, fun c mem => ?_⟩
  · have inside := Text.mem_of_mem_trim mem
    exact ⟨by simp [inside], fun same => clear (same ▸ inside)⟩
  · simp [Text.mem_of_mem_trim mem]

/-- Only an entry without an equals sign has no key. -/
theorem keyed_of_mem (mem : '=' ∈ entry.toList) : ∃ key value, Keyed entry key value := by
  cases cut : Text.splitFirst '=' entry with
  | none => exact absurd mem (Text.splitFirst_eq_none_iff.mp cut)
  | some parts => exact ⟨_, _, keyed_iff.mpr ⟨parts.1, parts.2, cut, rfl, rfl⟩⟩

/-! ## Entries -/

/-- What is wrong with an entry: it has no equals sign, no key, or no number for its slot. -/
inductive Fault (entry : String) : SideError → Prop where
  | noEquals (uncut : '=' ∉ entry.toList) : Fault entry (.noEquals entry)
  | noKey {value : String} (keyed : Keyed entry "" value) : Fault entry (.noKey entry)
  | badSlot {value : String} (keyed : Keyed entry "slot" value)
      (refused : ¬ ∃ n, n < UInt64.size ∧ Unsigned value.toList n) :
        Fault entry (.badSlot value)

/-- What a value stands for under a key. -/
inductive Entry.Stands (key value : String) : Entry → Prop where
  | slot {n : UInt64} (here : key = "slot") (numeral : Unsigned value.toList n.toNat) :
      Stands key value (.slot n)
  | teams {names : List String} (here : key = "teams") (words : Text.words value = names) :
      Stands key value (.teams names)
  | buildings {names : List String} (here : key = "build") (words : Text.words value = names) :
      Stands key value (.buildings names)
  | attribute {v : AttributeValue} (nonempty : key ≠ "")
    (free : key ∉ ["slot", "teams", "build"])
      (means : v.Means value) : Stands key value (.attribute key v)

/-- An entry is at fault, or its value stands for something. -/
theorem fault_or_stands (entry : String) :
    (∃ why, Fault entry why) ∨
      ∃ key value e, Keyed entry key value ∧ Entry.Stands key value e := by
  by_cases mem : '=' ∈ entry.toList
  · obtain ⟨key, value, keyed⟩ := keyed_of_mem mem
    by_cases reserved : key ∈ ["", "slot", "teams", "build"]
    · simp only [List.mem_cons, List.not_mem_nil, or_false] at reserved
      rcases reserved with rfl | rfl | rfl | rfl
      · exact .inl ⟨_, .noKey keyed⟩
      · by_cases fits : ∃ n, n < UInt64.size ∧ Unsigned value.toList n
        · obtain ⟨n, small, numeral⟩ := fits
          refine .inr ⟨_, _, _, keyed, .slot (n := UInt64.ofNat n) rfl ?_⟩
          rwa [UInt64.toNat_ofNat_of_lt' small]
        · exact .inl ⟨_, .badSlot keyed fits⟩
      · exact .inr ⟨_, _, _, keyed, .teams rfl rfl⟩
      · exact .inr ⟨_, _, _, keyed, .buildings rfl rfl⟩
    · rw [List.mem_cons, not_or] at reserved
      obtain ⟨nonempty, free⟩ := reserved
      exact .inr
        ⟨_, _, _, keyed, .attribute nonempty free (AttributeValue.ofText_eq_iff.mp rfl)⟩
  · exact .inl ⟨_, .noEquals mem⟩

namespace Entry

theorem read_of_fault (fault : Fault entry why) : read entry = .error why := by
  rcases fault with uncut | keyed | ⟨keyed, refused⟩
  · simp only [read, Text.splitFirst_eq_none_iff.mpr uncut]
  · obtain ⟨before, after, cut, here, -⟩ := keyed_iff.mp keyed
    simp [read, cut, here]
  · obtain ⟨before, after, cut, here, rfl⟩ := keyed_iff.mp keyed
    simp [read, cut, here, Text.readUInt64?_eq_none.mpr refused]

theorem read_of_stands (keyed : Keyed entry key value) (stands : Stands key value e) :
    read entry = .ok e := by
  obtain ⟨before, after, cut, rfl, rfl⟩ := keyed_iff.mp keyed
  rcases stands with ⟨here, numeral⟩ | ⟨here, rfl⟩ | ⟨here, rfl⟩ |
    ⟨nonempty, free, means⟩
  · simp [read, cut, here, Text.readUInt64?_eq_some.mpr numeral]
  · simp [read, cut, here]
  · simp [read, cut, here]
  · simp only [List.mem_cons, List.not_mem_nil, or_false, not_or] at free
    simp only [read, cut]
    rw [if_neg nonempty, if_neg free.1, if_neg free.2.1, if_neg free.2.2,
      AttributeValue.ofText_eq_iff.mpr means]

theorem read_eq_error_iff : read entry = .error why ↔ Fault entry why := by
  refine ⟨fun refused => ?_, read_of_fault⟩
  rcases fault_or_stands entry with ⟨why', fault⟩ | ⟨key, value, e, keyed, stands⟩
  · cases refused.symm.trans (read_of_fault fault)
    exact fault
  · cases refused.symm.trans (read_of_stands keyed stands)

theorem read_eq_ok_iff :
    read entry = .ok e ↔ ∃ key value, Keyed entry key value ∧ Stands key value e := by
  constructor
  · intro accepted
    rcases fault_or_stands entry with ⟨why, fault⟩ | ⟨key, value, e', keyed, stands⟩
    · cases accepted.symm.trans (read_of_fault fault)
    · cases accepted.symm.trans (read_of_stands keyed stands)
      exact ⟨key, value, keyed, stands⟩
  · rintro ⟨key, value, keyed, stands⟩
    exact read_of_stands keyed stands

end Entry

end Side

end BattleRoster
