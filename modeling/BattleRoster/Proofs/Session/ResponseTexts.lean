import BattleRoster.Proofs.Session.Lines
import BattleRoster.Proofs.Session.RecordText
import BattleRoster.Proofs.Side.OneLine

/-!
# Texts in responses

A response has names and other texts in it as they are, the words of a library
among them, and nothing of them is escaped.  So it is written as one line exactly
if each of these texts is one.
-/

namespace BattleRoster

open Text (IsLine)

/-! ## Fixed parts and numerals -/

namespace Text

@[simp] theorem isLine_toString (s : String) : IsLine (toString s) ↔ IsLine s :=
  Iff.rfl

@[simp] theorem isLine_repr (n : Nat) : IsLine n.repr :=
  isLine_writeNat n

theorem digitChar_ne_lineFeed (n : Nat) : Nat.digitChar n ≠ '\n' := by
  by_cases small : n < 16
  · have each : ∀ n < 16, Nat.digitChar n ≠ '\n' := by decide
    exact each n small
  · have other : Nat.digitChar n = '*' := by
      unfold Nat.digitChar
      repeat rw [if_neg (by omega)]
    rw [other]
    decide

theorem lineFeed_not_mem_toDigits {base : Nat} (large : 1 < base) (n : Nat) :
    '\n' ∉ Nat.toDigits base n := by
  induction n using Nat.strongRecOn with
  | ind n ih =>
      by_cases small : n < base
      · rw [Nat.toDigits_of_lt_base small, List.mem_singleton]
        exact (digitChar_ne_lineFeed n).symm
      · rw [Nat.toDigits_of_base_le large (Nat.not_lt.mp small), List.mem_append,
          List.mem_singleton, not_or]
        refine ⟨ih (n / base) (Nat.div_lt_self ?_ large), (digitChar_ne_lineFeed _).symm⟩
        omega

@[simp] theorem isLine_writeHex (least n : Nat) : IsLine (writeHex least n) := by
  rw [IsLine, writeHex, String.toList_ofList]
  simp [lineFeed_not_mem_toDigits, List.mem_replicate]

end Text

/-! ## Refusals -/

/-- The words of the system in a failure to read a file. -/
def FileFailure.texts : FileFailure → List String
  | .refused reason => [reason]
  | _ => []

/-- The texts in a refusal of options. -/
def OptionsError.texts (e : OptionsError) (words : String := "") : List String :=
  match e with
  | .unreadable path why => path :: why.texts
  | .malformed => [words]
  | .unknown name => [name]
  | .invalid name value => [name, value]

/-- The texts in a refusal of a roster. -/
def RosterError.texts : RosterError → List String
  | .unknownName name => [name]
  | .capacityExceeded _ | .noSlot _ | .noPlayerFor _ => []

/-- The texts in a refusal of a side. -/
def SideError.texts (e : SideError) (words : String := "") : List String :=
  match e with
  | .unreadable path why => path :: why.texts
  | .malformed => [words]
  | .noEquals entry | .noKey entry => [entry]
  | .badSlot value => [value]

/-- The texts in a refusal of an upgrade. -/
def UpgradeError.texts (e : UpgradeError) (words : String := "") : List String :=
  match e with
  | .unknown name => [name]
  | .malformedBlueprints => [words]
  | .tooMany | .gateVersion _ | .moduleCount .. => []

/-- The texts in a refusal of a session; where a library refuses, its words are the text. -/
def GameError.texts (e : GameError) (words : String := "") : List String :=
  match e with
  | .options e => e.texts words
  | .roster e => e.texts
  | .side e => e.texts words
  | .upgrade e => e.texts words
  | .unreadable path why => path :: why.texts
  | .unknownBlueprint name => [name]
  | .objectName found expected => [found, expected]
  | .malformedRecord => [words]
  | .record _ | .objectCount .. => []

/--
The texts in a response, as they are.  A saved game is not among them: in it texts
are escaped.
-/
def Response.texts : Response → List String
  | .option name _ => [name]
  | .gameStarted _ localName => [localName]
  | .player _ p => [p.name]
  | .side s => s.texts
  | .activated object module | .undone object module => [object, module]
  | .spawned object => [object]
  | .refused e words => e.texts words
  | _ => []

/-- A text between two fixed parts. -/
theorem isLine_between {before after : String} (fixed : IsLine before ∧ IsLine after)
    (text : String) : IsLine (before ++ text ++ after) ↔ ∀ part ∈ [text], IsLine part := by
  simp [fixed]

/-- A text after a fixed part. -/
theorem isLine_after {before : String} (fixed : IsLine before) (text : String) :
    IsLine (before ++ text) ↔ IsLine text := by
  rw [Text.isLine_append, and_iff_right fixed]

/-- The words of a library after a fixed part. -/
theorem isLine_words {before : String} (fixed : IsLine before) (words : String) :
    IsLine (before ++ words) ↔ ∀ part ∈ [words], IsLine part :=
  (isLine_after fixed words).trans List.forall_mem_singleton.symm

/-- Two texts, each after a fixed part. -/
theorem isLine_pair {before between : String} (fixed : IsLine before ∧ IsLine between)
    (first second : String) :
    IsLine (before ++ first ++ between ++ second) ↔
      ∀ part ∈ [first, second], IsLine part := by
  simp [fixed]

/-- Numerals have no line feed. -/
theorem isLine_counts (n m : Nat) : ∀ part ∈ [n.repr, m.repr], IsLine part := by
  simp

theorem FileFailure.isLine_message (e : FileFailure) :
    IsLine e.message ↔ ∀ text ∈ e.texts, IsLine text := by
  have fixed : ∀ e ∈ [missing, directory, notDirectory, tooLong, zeroCharacter, notText],
      IsLine e.message := by decide
  cases e with
  | refused reason => exact List.forall_mem_singleton.symm
  | _ => exact iff_of_true (fixed _ (by decide)) (List.forall_mem_nil _)

theorem isLine_unreadableMessage (path : String) (why : FileFailure) :
    IsLine (unreadableMessage path why) ↔ ∀ text ∈ path :: why.texts, IsLine text := by
  have fixed : IsLine "failed to read " ∧ IsLine ": " := by decide
  change IsLine ("failed to read " ++ path ++ ": " ++ why.message) ↔ _
  simp [why.isLine_message, fixed]

theorem RecordError.isLine_message (e : RecordError) : IsLine e.message := by
  cases e with
  | version found =>
      exact (isLine_between (by decide) _).mpr
        (List.forall_mem_singleton.mpr (Text.isLine_repr found.toNat))
  | playerCount found expected =>
      exact (isLine_pair (by decide) _ _).mpr (isLine_counts found.toNat expected)
  | recordCount declared records =>
      refine Text.isLine_append.mpr ⟨?_, by decide⟩
      exact (isLine_pair (by decide) _ _).mpr (isLine_counts declared.toNat records)

theorem OptionsError.isLine_message (e : OptionsError) (words : String) :
    IsLine (e.message words) ↔ ∀ text ∈ e.texts words, IsLine text := by
  cases e with
  | unreadable path why => exact isLine_unreadableMessage path why
  | malformed => exact isLine_words (by decide) words
  | unknown name => exact isLine_between (by decide) name
  | invalid name value =>
      change IsLine ("invalid value '" ++ value ++ "' for option '" ++ name ++ "'") ↔
        ∀ text ∈ [name, value], IsLine text
      rw [Text.isLine_append, isLine_pair (by decide), and_iff_left (by decide)]
      simp [and_comm]

theorem RosterError.isLine_message (e : RosterError) :
    IsLine e.message ↔ ∀ text ∈ e.texts, IsLine text := by
  cases e with
  | capacityExceeded requested =>
      refine iff_of_true ?_ (List.forall_mem_nil _)
      change IsLine (requested.repr ++ " players requested but the roster holds at most 16")
      exact Text.isLine_append.mpr ⟨Text.isLine_repr requested, by decide⟩
  | noSlot n =>
      refine iff_of_true ?_ (List.forall_mem_nil _)
      change IsLine ("no player at index " ++ n.repr)
      exact Text.isLine_append.mpr ⟨by decide, Text.isLine_repr n⟩
  | noPlayerFor mask =>
      refine iff_of_true ?_ (List.forall_mem_nil _)
      change IsLine ("no player matches mask " ++ Text.writeHex 4 mask.bits.toNat)
      exact Text.isLine_append.mpr ⟨by decide, Text.isLine_writeHex _ _⟩
  | unknownName name => exact isLine_between (by decide) name

theorem SideError.isLine_message (e : SideError) (words : String) :
    IsLine (e.message words) ↔ ∀ text ∈ e.texts words, IsLine text := by
  cases e with
  | unreadable path why => exact isLine_unreadableMessage path why
  | malformed => exact isLine_words (by decide) words
  | noEquals entry | noKey entry => exact isLine_between (by decide) entry
  | badSlot value => exact isLine_between (by decide) value

theorem UpgradeError.isLine_message (e : UpgradeError) (words : String) :
    IsLine (e.message words) ↔ ∀ text ∈ e.texts words, IsLine text := by
  cases e with
  | tooMany =>
      refine iff_of_true ?_ (List.forall_mem_nil _)
      change IsLine "too many upgrades registered (max 128)"
      decide
  | malformedBlueprints => exact isLine_words (by decide) words
  | unknown name => exact isLine_between (by decide) name
  | gateVersion found =>
      refine iff_of_true ?_ (List.forall_mem_nil _)
      exact (isLine_between (by decide) _).mpr
        (List.forall_mem_singleton.mpr (Text.isLine_repr found.toNat))
  | moduleCount found expected =>
      refine iff_of_true ?_ (List.forall_mem_nil _)
      exact (isLine_pair (by decide) _ _).mpr (isLine_counts found expected)

/-- The wording of a refusal is one line if the texts in it are. -/
theorem GameError.isLine_message (e : GameError) (words : String) :
    IsLine (e.message words) ↔ ∀ text ∈ e.texts words, IsLine text := by
  cases e with
  | options e => exact e.isLine_message words
  | roster e => exact e.isLine_message
  | record e => exact iff_of_true e.isLine_message (List.forall_mem_nil _)
  | side e => exact e.isLine_message words
  | upgrade e => exact e.isLine_message words
  | unreadable path why => exact isLine_unreadableMessage path why
  | unknownBlueprint name => exact isLine_between (by decide) name
  | objectCount found expected =>
      refine iff_of_true ?_ (List.forall_mem_nil _)
      exact (isLine_pair (by decide) _ _).mpr (isLine_counts found expected)
  | objectName found expected =>
      refine Text.isLine_append.trans ?_
      rw [and_iff_left (by decide)]
      exact isLine_pair (by decide) found expected
  | malformedRecord => exact isLine_words (by decide) words

/-! ## Responses -/

theorem isLine_shownName (name : String) : IsLine (shownName name) ↔ IsLine name := by
  unfold shownName
  split
  · next empty => exact empty ▸ iff_of_true (by decide) (by decide)
  · rfl

theorem isLine_playerLine (slot : Slot) (p : Player) :
    IsLine (playerLine slot p) ↔ IsLine p.name := by
  have fixed : IsLine "player " ∧ IsLine " " ∧ IsLine " mask " ∧ IsLine " team " ∧
      IsLine "-" := by decide
  have controller : IsLine p.controller.word := by cases p.controller <;> decide
  have mark : IsLine (if p.isLocal then " local" else "") := by split <;> decide
  unfold playerLine SlotSet.text
  cases p.defaultTeam with
  | none => simp [isLine_shownName, fixed, controller, mark]
  | some team => simp [isLine_shownName, fixed, controller, mark]

/-- A response is written as one line exactly if every text in it is one line. -/
theorem Response.isLine_line (r : Response) :
    IsLine r.line ↔ ∀ text ∈ r.texts, IsLine text := by
  cases r with
  | programName | programAuthor | protocolVersion | handshakeDone | pong | playersDone | restored
  | sidesDone | granted | revoked => exact iff_of_true (by decide) (List.forall_mem_nil _)
  | option name default =>
      have flag : IsLine (" type check default " ++ flagWord default) := by
        cases default <;> decide
      change IsLine ("option name " ++ name ++ " type check default " ++ flagWord default) ↔ _
      rw [String.append_assoc]
      exact isLine_between ⟨by decide, flag⟩ name
  | blueprintsLoaded count =>
      refine iff_of_true ?_ (List.forall_mem_nil _)
      exact (isLine_after (by decide) _).mpr (Text.isLine_writeNat count)
  | gameStarted players localName =>
      have count : IsLine ("newgame players " ++ Text.writeNat players ++ " local ") := by
        rw [Text.isLine_append, isLine_after (by decide)]
        exact ⟨Text.isLine_writeNat players, by decide⟩
      refine (isLine_after count _).trans ?_
      rw [isLine_shownName]
      exact List.forall_mem_singleton.symm
  | player slot p => exact (isLine_playerLine slot p).trans List.forall_mem_singleton.symm
  | stance s =>
      refine iff_of_true ((isLine_after (by decide) _).mpr ?_) (List.forall_mem_nil _)
      cases s <;> decide
  | mask s =>
      refine iff_of_true ((isLine_after (by decide) _).mpr ?_) (List.forall_mem_nil _)
      exact Text.isLine_writeHex 4 _
  | saved record =>
      refine iff_of_true ((isLine_after (by decide) _).mpr ?_) (List.forall_mem_nil _)
      intro mem
      exact absurd (record.encode_printable '\n' mem) (by decide)
  | side s => exact (isLine_after (by decide) _).trans s.isLine_encode
  | activated object module | undone object module => exact isLine_pair (by decide) object module
  | spawned object => exact (isLine_after (by decide) _).trans List.forall_mem_singleton.symm
  | refused e words => exact (isLine_after (by decide) _).trans (e.isLine_message words)

/-! ## Output -/

/-- The number of lines that end in a text. -/
def Text.lineCount (s : String) : Nat :=
  s.toList.count '\n'

/-- Every response ends a line, and a line feed in a response ends another one. -/
theorem Response.lineCount_write (rs : List Response) :
    Text.lineCount (write rs) = rs.length + (rs.flatMap (·.line.toList)).count '\n' := by
  rw [Text.lineCount, toList_write]
  induction rs with
  | nil => rfl
  | cons r rs ih =>
      rw [List.flatMap_cons, List.flatMap_cons, List.count_append, List.count_append,
        List.count_append, ih, List.length_cons, List.count_singleton_self]
      omega

/-- There are as many lines as responses exactly if all texts in them are lines. -/
theorem Response.lineCount_write_iff (rs : List Response) :
    Text.lineCount (write rs) = rs.length ↔ ∀ r ∈ rs, ∀ text ∈ r.texts, IsLine text := by
  have none : (rs.flatMap (·.line.toList)).count '\n' = 0 ↔
      ∀ r ∈ rs, ∀ text ∈ r.texts, IsLine text := by
    rw [List.count_eq_zero, List.mem_flatMap]
    simp only [not_exists, not_and]
    exact forall₂_congr fun r _ => r.isLine_line
  rw [lineCount_write, Nat.add_eq_left, none]

end BattleRoster
