import BattleRoster.Proofs.Collection.Occurrences
import BattleRoster.Proofs.Side.Lines

/-!
# What side lines mean

A line is refused for the first of its entries that is at fault.  Otherwise the last
entry of a key decides what the key says, and so the order of entries with different
keys makes no difference.
-/

namespace BattleRoster

open Text (Unsigned)

namespace Side

variable {entry key value other : String} {entries : List String} {s : Side} {e : Entry}
  {why : SideError}

/-! ## Last values -/

/-- The value of the last entry with a key. -/
def LastValue (entries : List String) (key value : String) : Prop :=
  LastSuch (Keyed · key value) (fun later => ∀ other, ¬ Keyed later key other) entries

theorem LastValue.unique {value' : String} (last : LastValue entries key value)
    (again : LastValue entries key value') : value = value' := by
  induction entries using List.reverseRecOn with
  | nil => exact absurd last not_lastSuch_nil
  | append_singleton entries entry ih =>
      rcases lastSuch_concat.mp last with here | ⟨earlier, clear⟩
      · rcases lastSuch_concat.mp again with here' | ⟨-, clear'⟩
        · exact (here.unique here').2
        · exact absurd here (clear' value)
      · rcases lastSuch_concat.mp again with here' | ⟨earlier', -⟩
        · exact absurd here' (clear value')
        · exact ih earlier earlier'

/-- What the last value of a key means, if there is an entry with the key. -/
inductive LastMeans {α : Type} (entries : List String) (key : String)
    (Means : String → α → Prop) : Option α → Prop where
  | absent (missing : ∀ entry ∈ entries, ∀ value, ¬ Keyed entry key value) :
      LastMeans entries key Means none
  | present {value : String} {a : α} (last : LastValue entries key value) (means : Means value a) :
      LastMeans entries key Means (some a)

namespace LastMeans

variable {α : Type} {Means : String → α → Prop} {told : Option α}

theorem nil : LastMeans [] key Means none :=
  .absent (List.forall_mem_nil _)

/-- An entry replaces what was told under its key. -/
theorem here {a : α} (keyed : Keyed entry key value) (means : Means value a) :
    LastMeans (entries ++ [entry]) key Means (some a) :=
  .present (lastSuch_concat.mpr (.inl keyed)) means

/-- An entry says nothing under another key. -/
theorem elsewhere (keyed : Keyed entry key value) (differs : other ≠ key)
    (earlier : LastMeans entries other Means told) :
    LastMeans (entries ++ [entry]) other Means told := by
  have clear : ∀ text, ¬ Keyed entry other text := fun _ again =>
    differs (again.unique keyed).1
  cases earlier with
  | absent missing =>
      exact .absent (List.forall_mem_append.mpr ⟨missing, List.forall_mem_singleton.mpr clear⟩)
  | present last means => exact .present (lastSuch_concat.mpr (.inr ⟨last, clear⟩)) means

/-- No more than one thing is told if no text means two. -/
theorem unique (functional : ∀ value a b, Means value a → Means value b → a = b)
    {told' : Option α} (this : LastMeans entries key Means told)
    (that : LastMeans entries key Means told') : told = told' := by
  have present {value : String} (last : LastValue entries key value) :
      ¬ ∀ entry ∈ entries, ∀ value, ¬ Keyed entry key value := by
    obtain ⟨before, entry, after, rfl, keyed, -⟩ := last
    exact fun missing => missing entry (by simp) value keyed
  cases this with
  | absent missing =>
      cases that with
      | absent => rfl
      | present last => exact absurd missing (present last)
  | present last means =>
      cases that with
      | absent missing => exact absurd missing (present last)
      | present last' means' =>
          cases last.unique last'
          exact congrArg some (functional _ _ _ means means')

end LastMeans

/-! ## Sides -/

/-- A side has what the last values of the keys tell; the three reserved keys are no attributes. -/
structure Describes (entries : List String) (s : Side) : Prop where
  attributes : ∀ key, key ∉ ["slot", "teams", "build"] →
    LastMeans entries key (fun text value => value.Means text) (s.attributes.get? key)
  reserved : ∀ key ∈ ["slot", "teams", "build"], s.attributes.get? key = none
  lobbySlot : LastMeans entries "slot" (fun text n => Unsigned text.toList n.toNat) s.lobbySlot
  teams : ∃ told, LastMeans entries "teams" (fun text names => Text.words text = names) told ∧
    s.teams = told.getD []
  buildings : LastMeans entries "build" (fun text buildings =>
    ((Text.words text).map fun name => { blueprint := name }) = buildings) s.buildings

namespace Describes

theorem nil : Describes [] {} where
  attributes _ _ := .nil
  reserved _ _ := rfl
  lobbySlot := .nil
  teams := ⟨none, .nil, rfl⟩
  buildings := .nil

/-- An entry that is entered changes what is told under its key, and nothing else. -/
theorem enter (describes : Describes entries s) (keyed : Keyed entry key value)
    (stands : Entry.Stands key value e) : Describes (entries ++ [entry]) (Entry.enter s e) := by
  obtain ⟨attributes, reserved, lobbySlot, ⟨told, teams, same⟩, buildings⟩ := describes
  have unchanged (here : key ∈ ["slot", "teams", "build"]) (other : String)
      (free : other ∉ ["slot", "teams", "build"]) :
      LastMeans (entries ++ [entry]) other (fun text v => v.Means text) (s.attributes.get? other) :=
    (attributes other free).elsewhere keyed (ne_of_mem_of_not_mem here free).symm
  rcases stands with ⟨rfl, numeral⟩ | ⟨rfl, words⟩ | ⟨rfl, words⟩ | ⟨-, free, means⟩
  · refine ⟨unchanged (by decide), reserved, .here keyed numeral, ⟨told, ?_, same⟩, ?_⟩
    · exact teams.elsewhere keyed (by decide)
    · exact buildings.elsewhere keyed (by decide)
  · refine ⟨unchanged (by decide), reserved, ?_, ⟨_, .here keyed words, rfl⟩, ?_⟩
    · exact lobbySlot.elsewhere keyed (by decide)
    · exact buildings.elsewhere keyed (by decide)
  · refine ⟨unchanged (by decide), reserved, ?_, ⟨told, ?_, same⟩, ?_⟩
    · exact lobbySlot.elsewhere keyed (by decide)
    · exact teams.elsewhere keyed (by decide)
    · exact .here keyed (congrArg _ words)
  · have apart {word : String} (mem : word ∈ ["slot", "teams", "build"]) : word ≠ key :=
      ne_of_mem_of_not_mem mem free
    refine ⟨fun other free => ?_, fun other mem => ?_, ?_, ⟨told, ?_, same⟩, ?_⟩
    · by_cases here : other = key
      · subst here
        rw [Entry.enter, OrderedMap.get?_insert, if_pos rfl]
        exact .here keyed means
      · rw [Entry.enter, OrderedMap.get?_insert, if_neg here]
        exact (attributes other free).elsewhere keyed here
    · exact (OrderedMap.get?_insert ..).trans ((if_neg (apart mem)).trans (reserved other mem))
    · exact lobbySlot.elsewhere keyed (apart (by decide))
    · exact teams.elsewhere keyed (apart (by decide))
    · exact buildings.elsewhere keyed (apart (by decide))

/-- There is one side that has what the entries tell. -/
theorem unique {s' : Side} (this : Describes entries s) (that : Describes entries s') : s = s' := by
  have attributes : s.attributes = s'.attributes := OrderedMap.eq_of_get? fun key => by
    by_cases mem : key ∈ ["slot", "teams", "build"]
    · rw [this.reserved key mem, that.reserved key mem]
    · refine (this.attributes key mem).unique (fun text a b first second => ?_)
        (that.attributes key mem)
      exact (AttributeValue.ofText_eq_iff.mpr first).symm.trans
        (AttributeValue.ofText_eq_iff.mpr second)
  have lobbySlot : s.lobbySlot = s'.lobbySlot := by
    refine this.lobbySlot.unique (fun text a b first second => ?_) that.lobbySlot
    exact Option.some.inj ((Text.readUInt64?_eq_some.mpr first).symm.trans
      (Text.readUInt64?_eq_some.mpr second))
  have buildings : s.buildings = s'.buildings :=
    this.buildings.unique (fun _ _ _ first second => first.symm.trans second) that.buildings
  have teams : s.teams = s'.teams := by
    obtain ⟨told, teams, same⟩ := this.teams
    obtain ⟨told', teams', same'⟩ := that.teams
    rw [same, same', teams.unique (fun _ _ _ first second => first.symm.trans second) teams']
  cases s
  cases s'
  cases attributes
  cases lobbySlot
  cases buildings
  cases teams
  rfl

end Describes

/-! ## Reading entry by entry -/

/-- Read an entry and enter it into a side. -/
def enterText (s : Side) (entry : String) : Except SideError Side :=
  (Entry.read entry).map (Entry.enter s)

theorem parse_eq (line : String) : parse line = (entryTexts line).foldlM enterText {} :=
  rfl

theorem enterText_eq_ok_iff {s' : Side} :
    enterText s entry = .ok s' ↔ ∃ e, Entry.read entry = .ok e ∧ Entry.enter s e = s' := by
  unfold enterText
  cases Entry.read entry <;> simp [Except.map]

theorem enterText_eq_error_iff : enterText s entry = .error why ↔ Fault entry why := by
  rw [← Entry.read_eq_error_iff, enterText]
  cases Entry.read entry <;> simp [Except.map]

/-- The fault of the first entry that has one. -/
def FirstFault (entries : List String) (why : SideError) : Prop :=
  FirstSuch (Fault · why) (fun earlier => ∀ why, ¬ Fault earlier why) entries

theorem foldlM_enterText_eq_error_iff :
    entries.foldlM enterText s = .error why ↔ FirstFault entries why := by
  -- From the front, where reading stops; the side so far does not matter.
  induction entries generalizing s with
  | nil => exact iff_of_false nofun not_firstSuch_nil
  | cons entry entries ih =>
      rw [List.foldlM_cons, FirstFault, firstSuch_cons]
      cases outcome : enterText s entry with
      | error why' =>
          have fault := enterText_eq_error_iff.mp outcome
          constructor
          · rintro ⟨⟩
            exact .inl fault
          · rintro (here | ⟨sound, -⟩)
            · exact outcome.symm.trans (enterText_eq_error_iff.mpr here)
            · exact absurd fault (sound why')
      | ok s' =>
          have sound : ∀ why, ¬ Fault entry why := fun why fault => by
            cases outcome.symm.trans (enterText_eq_error_iff.mpr fault)
          rw [or_iff_right (sound why), and_iff_right sound]
          exact ih

theorem exists_firstFault :
    (∃ why, FirstFault entries why) ↔ ∃ entry ∈ entries, ∃ why, Fault entry why := by
  induction entries with
  | nil =>
      refine iff_of_false (fun ⟨why, first⟩ => not_firstSuch_nil first) ?_
      rintro ⟨entry, mem, -⟩
      cases mem
  | cons entry entries ih =>
      simp only [List.mem_cons, exists_eq_or_imp]
      rw [← ih]
      constructor
      · rintro ⟨why, first⟩
        rcases firstSuch_cons.mp first with here | ⟨-, later⟩
        · exact .inl ⟨why, here⟩
        · exact .inr ⟨why, later⟩
      · rintro (⟨why, here⟩ | ⟨why, later⟩)
        · exact ⟨why, firstSuch_cons.mpr (.inl here)⟩
        · by_cases fault : ∃ why, Fault entry why
          · exact fault.imp fun why here => firstSuch_cons.mpr (.inl here)
          · exact ⟨why, firstSuch_cons.mpr (.inr ⟨not_exists.mp fault, later⟩)⟩

/-- What has been read so far is described by the entries so far. -/
theorem describes_of_foldlM (accepted : entries.foldlM enterText {} = .ok s) :
    Describes entries s := by
  -- From the end, as the last entry of a key decides.
  induction entries using List.reverseRecOn generalizing s with
  | nil =>
      cases accepted
      exact .nil
  | append_singleton entries entry ih =>
      rw [List.foldlM_append] at accepted
      cases earlier : entries.foldlM enterText {} with
      | error why =>
          rw [earlier] at accepted
          cases accepted
      | ok before =>
          simp only [earlier, List.foldlM_cons, List.foldlM_nil, bind_pure] at accepted
          obtain ⟨e, read, rfl⟩ := enterText_eq_ok_iff.mp accepted
          obtain ⟨key, value, keyed, stands⟩ := Entry.read_eq_ok_iff.mp read
          exact (ih earlier).enter keyed stands

theorem foldlM_enterText_eq_ok_iff : entries.foldlM enterText {} = .ok s ↔
    (∀ entry ∈ entries, ∀ why, ¬ Fault entry why) ∧ Describes entries s := by
  constructor
  · intro accepted
    refine ⟨fun entry mem why fault => ?_, describes_of_foldlM accepted⟩
    obtain ⟨why, first⟩ := exists_firstFault.mpr ⟨entry, mem, why, fault⟩
    cases accepted.symm.trans (foldlM_enterText_eq_error_iff.mpr first)
  · rintro ⟨sound, describes⟩
    cases outcome : entries.foldlM enterText {} with
    | error why =>
        obtain ⟨entry, mem, why, fault⟩ :=
          exists_firstFault.mp ⟨why, foldlM_enterText_eq_error_iff.mp outcome⟩
        exact absurd fault (sound entry mem why)
    | ok s' => rw [(describes_of_foldlM outcome).unique describes]

/-! ## Other orders -/

/-- The same entries in an order that is the same for those of each key. -/
structure Rearranged (entries others : List String) : Prop where
  perm : others.Perm entries
  order : ∀ key, others.filter (fun entry => key? entry = some key) =
    entries.filter fun entry => key? entry = some key

variable {others : List String}

/-- The entries with a key decide its last value. -/
theorem lastValue_filter :
    LastValue (entries.filter fun entry => key? entry = some key) key value ↔
      LastValue entries key value := by
  refine lastSuch_filter (fun entry keyed => ?_) (fun entry elsewhere other keyed => ?_)
  · exact decide_eq_true (key?_eq_some_iff.mpr ⟨value, keyed⟩)
  · exact of_decide_eq_false elsewhere (key?_eq_some_iff.mpr ⟨other, keyed⟩)

theorem Rearranged.lastValue (rearranged : Rearranged entries others) :
    LastValue others key value ↔ LastValue entries key value := by
  rw [← lastValue_filter, rearranged.order key, lastValue_filter]

theorem LastMeans.rearranged {α : Type} {Means : String → α → Prop} {told : Option α}
    (rearranged : Rearranged entries others) (this : LastMeans entries key Means told) :
    LastMeans others key Means told := by
  cases this with
  | absent missing =>
      exact .absent fun entry mem => missing entry (rearranged.perm.mem_iff.mp mem)
  | present last means => exact .present (rearranged.lastValue.mpr last) means

theorem Describes.rearranged (rearranged : Rearranged entries others)
    (describes : Describes entries s) : Describes others s where
  attributes key free := (describes.attributes key free).rearranged rearranged
  reserved := describes.reserved
  lobbySlot := describes.lobbySlot.rearranged rearranged
  teams := describes.teams.imp fun _ teams => ⟨teams.1.rearranged rearranged, teams.2⟩
  buildings := describes.buildings.rearranged rearranged

/-- Entries of a line are the entries of a line in any order. -/
theorem entryTexts_intercalate_of_perm {line : String} (perm : others.Perm (entryTexts line)) :
    entryTexts (";".intercalate others) = others := by
  refine entryTexts_intercalate fun text mem => ?_
  have among := perm.mem_iff.mp mem
  obtain ⟨piece, nonempty⟩ := List.mem_filter.mp among
  obtain ⟨untrimmed, -, rfl⟩ := List.mem_map.mp piece
  exact ⟨⟨Text.isTrimmed_trim untrimmed, noSemicolon_of_mem_entryTexts among⟩,
    bne_iff_ne.mp nonempty⟩

/--
A line is refused if one of its entries is at fault, and the first such entry says
why.  Else the side is what the last entry of every key tells, and it is the same
for any line with the same entries in another order, as long as entries with equal
keys keep theirs.  The entries of a line make a line in any order.
-/
theorem parse_meaning (line : String) :
    (∀ why, parse line = .error why ↔ FirstFault (entryTexts line) why) ∧
    ((∃ why, parse line = .error why) ↔
      ∃ entry ∈ entryTexts line, ∃ why, Fault entry why) ∧
    (∀ s, parse line = .ok s ↔
      (∀ entry ∈ entryTexts line, ∀ why, ¬ Fault entry why) ∧
        Describes (entryTexts line) s) ∧
    (∀ s line', parse line = .ok s → Rearranged (entryTexts line) (entryTexts line') →
      parse line' = .ok s) ∧
    ∀ others, others.Perm (entryTexts line) → entryTexts (";".intercalate others) = others := by
  simp only [parse_eq]
  refine ⟨fun why => foldlM_enterText_eq_error_iff, ?_, fun s => foldlM_enterText_eq_ok_iff,
    fun s line' accepted rearranged => ?_, fun others => entryTexts_intercalate_of_perm⟩
  · simp only [foldlM_enterText_eq_error_iff, exists_firstFault]
  · obtain ⟨sound, describes⟩ := foldlM_enterText_eq_ok_iff.mp accepted
    refine foldlM_enterText_eq_ok_iff.mpr ⟨fun entry mem => ?_, describes.rearranged rearranged⟩
    exact sound entry (rearranged.perm.mem_iff.mp mem)

/-- The number may stand anywhere, but the slots are not the same the other way around. -/
theorem parse_meaning_moved :
    let s : Side := { attributes := .ofList [("n", .number 7)], lobbySlot := some 3 }
    parse "n=+07;slot=5; slot = 3" = .ok s ∧ parse "slot=5;n=+07;slot = 3" = .ok s ∧
      parse "slot = 3;slot=5;n=+07" ≠ .ok s := by
  intro s
  have accepted : parse "n=+07;slot=5; slot = 3" = .ok s := by decide +kernel
  have rearranged : Rearranged (entryTexts "n=+07;slot=5; slot = 3")
      (entryTexts "slot=5;n=+07;slot = 3") := by
    have entries : entryTexts "n=+07;slot=5; slot = 3" = ["n=+07", "slot=5", "slot = 3"] ∧
        entryTexts "slot=5;n=+07;slot = 3" = ["slot=5", "n=+07", "slot = 3"] := by
      decide +kernel
    have keys : key? "n=+07" = some "n" ∧ key? "slot=5" = some "slot" := by decide +kernel
    rw [entries.1, entries.2]
    refine ⟨.swap .., fun key => ?_⟩
    by_cases number : key = "n"
    · simp [number, keys]
    · simp [List.filter_cons, keys, Ne.symm number]
  obtain ⟨-, -, -, anyOrder, -⟩ := parse_meaning "n=+07;slot=5; slot = 3"
  exact ⟨accepted, anyOrder s _ accepted rearranged, by decide +kernel⟩

end Side

end BattleRoster
