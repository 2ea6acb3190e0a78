import BattleRoster.Proofs.Upgrade.Admission
import Mathlib.Data.List.Perm.Basic

/-!
# Names and the sets of their places

Looking up names leads to the set of their places, and the names in a set are those
that are registered at its places.  Each undoes the other, as far as names are
registered and places have names, whatever requests have filled the registry.
-/

namespace BattleRoster

namespace Registry

/-- A request to register. -/
inductive Request where
  | one (name : String)
  | all (names : List String)

/-- The registry after a request; one that is refused may have registered some names. -/
def serve (r : Registry) : Request → Registry
  | .one name => (r.register name).2
  | .all names => (r.registerAll names).2

/-- The registry after some requests. -/
def serveAll (r : Registry) (requests : List Request) : Registry :=
  requests.foldl serve r

theorem Sound.serveAll {r : Registry} (sound : r.Sound) (requests : List Request) :
    (r.serveAll requests).Sound := by
  refine List.foldlRecOn requests serve sound fun r sound request _ => ?_
  cases request with
  | one name => exact (growth_register rfl).sound sound
  | all names => exact (growth_registerAll rfl).sound sound

/-! ## One name -/

section Single

variable {r : Registry} {set other : UpgradeSet} {name : String}

theorem Sound.place_unique (sound : r.Sound) {place other : Nat}
    (here : r.names[place]? = some name) (there : r.names[other]? = some name) : place = other := by
  have inside := (List.getElem?_eq_some_iff.mp here).1
  exact (List.getElem?_inj inside sound.distinct).mp (here.trans there.symm)

theorem Sound.marks_unique (sound : r.Sound) (marks : r.Marks set name)
    (marks' : r.Marks other name) : set = other := by
  obtain ⟨place, here, only⟩ := marks
  obtain ⟨place', there, only'⟩ := marks'
  obtain rfl := sound.place_unique here there
  ext place'
  rw [only, only']

theorem Sound.find?_eq_some_iff (sound : r.Sound) :
    r.find? name = some set ↔ r.Marks set name := by
  refine ⟨marks_of_find?, fun marks => ?_⟩
  obtain ⟨place, here, -⟩ := id marks
  obtain ⟨set', found⟩ := sound.find?_of_mem (List.mem_of_getElem? here)
  rw [found, sound.marks_unique (marks_of_find? found) marks]

/-- The set of a name has the one bit of its place. -/
theorem Sound.marks_iff (sound : r.Sound) : r.Marks set name ↔
    ∃ place, r.names[place]? = some name ∧ set = ⟨BitVec.twoPow 128 place⟩ := by
  have only {place : Nat} (here : r.names[place]? = some name) (other : Nat) :
      other ∈ (⟨BitVec.twoPow 128 place⟩ : UpgradeSet) ↔ other = place := by
    have inside := (List.getElem?_eq_some_iff.mp here).1
    exact UpgradeSet.mem_of_single?_eq_some
      (if_pos (Nat.lt_of_lt_of_le inside sound.bounded)) other
  constructor
  · rintro ⟨place, here, marked⟩
    refine ⟨place, here, UpgradeSet.ext fun other => ?_⟩
    rw [marked, only here]
  · rintro ⟨place, here, rfl⟩
    exact ⟨place, here, only here⟩

/-- A name that is registered is found at once. -/
theorem Sound.find?_of_register (sound : r.Sound) {r' : Registry}
    (registered : r.register name = (.ok set, r')) : r'.find? name = some set :=
  ((growth_register registered).sound sound).find?_eq_some_iff.mpr (marks_of_register registered)

end Single

/-! ## Several names -/

/-- A set that has exactly the places of some names. -/
def Gathers (r : Registry) (set : UpgradeSet) (names : List String) : Prop :=
  ∀ place, place ∈ set ↔ ∃ name ∈ names, r.names[place]? = some name

section Several

variable {r : Registry} {set sets : UpgradeSet} {name : String} {names : List String}

theorem Gathers.unique (gathers : r.Gathers set names) (gathers' : r.Gathers sets names) :
    set = sets :=
  UpgradeSet.ext fun place => (gathers place).trans (gathers' place).symm

theorem gathers_nil (r : Registry) : r.Gathers ∅ [] :=
  fun place => iff_of_false (UpgradeSet.not_mem_empty place) (by simp)

theorem Sound.gathers_cons (sound : r.Sound) (marks : r.Marks set name)
    (gathers : r.Gathers sets names) : r.Gathers (set ∪ sets) (name :: names) := by
  obtain ⟨marked, here, only⟩ := marks
  intro place
  rw [UpgradeSet.mem_union, only, gathers]
  simp only [List.mem_cons, exists_eq_or_imp]
  refine or_congr_left ⟨?_, fun there => sound.place_unique there here⟩
  rintro rfl
  exact here

theorem lookupAll_cons_eq_ok : r.lookupAll (name :: names) = .ok set ↔
    ∃ first rest, r.find? name = some first ∧ r.lookupAll names = .ok rest ∧
      set = first ∪ rest := by
  rw [lookupAll]
  cases r.find? name with
  | none => exact iff_of_false nofun (by rintro ⟨first, rest, ⟨⟩, -⟩)
  | some first =>
      cases r.lookupAll names with
      | error e => exact iff_of_false nofun (by rintro ⟨first, rest, -, ⟨⟩, -⟩)
      | ok rest =>
          constructor
          · rintro ⟨⟩
            exact ⟨first, rest, rfl, rfl, rfl⟩
          · rintro ⟨_, _, ⟨⟩, ⟨⟩, rfl⟩
            rfl

/-- Names are looked up if they are all registered, and this leads to their places. -/
theorem Sound.lookupAll_of_mem (sound : r.Sound) (known : ∀ name ∈ names, name ∈ r.names) :
    ∃ set, r.lookupAll names = .ok set ∧ r.Gathers set names := by
  induction names with
  | nil => exact ⟨∅, rfl, gathers_nil r⟩
  | cons name names ih =>
      rw [List.forall_mem_cons] at known
      obtain ⟨set, found⟩ := sound.find?_of_mem known.1
      obtain ⟨sets, rest, gathers⟩ := ih known.2
      refine ⟨set ∪ sets, ?_, sound.gathers_cons (marks_of_find? found) gathers⟩
      exact lookupAll_cons_eq_ok.mpr ⟨set, sets, found, rest, rfl⟩

theorem mem_of_lookupAll (found : r.lookupAll names = .ok set) :
    ∀ name ∈ names, name ∈ r.names := by
  induction names generalizing set with
  | nil => exact List.forall_mem_nil _
  | cons name names ih =>
      obtain ⟨first, rest, here, others, -⟩ := lookupAll_cons_eq_ok.mp found
      obtain ⟨place, there, -⟩ := marks_of_find? here
      exact List.forall_mem_cons.mpr ⟨List.mem_of_getElem? there, ih others⟩

/-- Registered names keep their places, so they are looked up with the same result. -/
theorem Extends.lookupAll {earlier : Registry} (later : r.Extends earlier)
    (found : earlier.lookupAll names = .ok set) : r.lookupAll names = .ok set := by
  induction names generalizing set with
  | nil => exact found
  | cons name names ih =>
      obtain ⟨first, rest, here, others, union⟩ := lookupAll_cons_eq_ok.mp found
      exact lookupAll_cons_eq_ok.mpr ⟨first, rest, later.find? here, ih others, union⟩

theorem Sound.lookupAll_eq_ok_iff (sound : r.Sound) : r.lookupAll names = .ok set ↔
    (∀ name ∈ names, name ∈ r.names) ∧ r.Gathers set names := by
  constructor
  · intro found
    have known := mem_of_lookupAll found
    obtain ⟨set', found', gathers⟩ := sound.lookupAll_of_mem known
    obtain rfl := Except.ok.inj (found.symm.trans found')
    exact ⟨known, gathers⟩
  · rintro ⟨known, gathers⟩
    obtain ⟨set', found, gathers'⟩ := sound.lookupAll_of_mem known
    rw [found, gathers'.unique gathers]

/-- Reading a list place by place. -/
theorem filterMap_range_getElem? {α : Type} (xs : List α) (n : Nat) :
    (List.range n).filterMap (xs[·]?) = xs.take n := by
  induction n with
  | zero => rfl
  | succ n ih =>
      rw [List.range_succ, List.filterMap_append, ih, List.take_add_one]
      cases here : xs[n]? <;> simp [here]

/-- The names of a set stand in the order of the registry. -/
theorem Sound.namesIn_sublist (sound : r.Sound) (s : UpgradeSet) :
    (r.namesIn s).Sublist r.names := by
  have inOrder :=
    (List.filter_sublist (p := (· ∈ s)) (l := List.range UpgradeSet.capacity)).filterMap
    (r.names[·]?)
  rwa [filterMap_range_getElem?, List.take_of_length_le sound.bounded] at inOrder

/-- The names of the places of some names are those names. -/
theorem Sound.namesIn_gathered (sound : r.Sound) (gathers : r.Gathers set names) :
    r.namesIn set = r.names.filter (· ∈ names) := by
  have inOrder := sound.namesIn_sublist set
  have kept : (r.names.filter (· ∈ names)).Sublist r.names := List.filter_sublist
  refine (sound.distinct.perm_iff_eq_of_sublist inOrder kept).mp ?_
  refine (List.perm_ext_iff_of_nodup (sound.distinct.sublist inOrder)
    (sound.distinct.sublist kept)).mpr fun name => ?_
  rw [mem_namesIn, List.mem_filter, decide_eq_true_eq]
  constructor
  · rintro ⟨place, mem, here⟩
    obtain ⟨other, among, there⟩ := (gathers place).mp mem
    obtain rfl := Option.some.inj (here.symm.trans there)
    exact ⟨List.mem_of_getElem? here, among⟩
  · rintro ⟨registered, among⟩
    obtain ⟨place, here⟩ := List.getElem?_of_mem registered
    exact ⟨place, (gathers place).mpr ⟨name, among, here⟩, here⟩

/-- The places of the names of a set are the places of the set that have names. -/
theorem Sound.lookupAll_namesIn (sound : r.Sound) (s : UpgradeSet) :
    ∃ named, r.lookupAll (r.namesIn s) = .ok named ∧
      ∀ place, place ∈ named ↔ place ∈ s ∧ place < r.names.length := by
  obtain ⟨named, found, gathers⟩ :=
    sound.lookupAll_of_mem fun name mem => (sound.namesIn_sublist s).subset mem
  refine ⟨named, found, fun place => (gathers place).trans ?_⟩
  constructor
  · rintro ⟨name, mem, here⟩
    obtain ⟨other, among, there⟩ := mem_namesIn.mp mem
    obtain rfl := sound.place_unique there here
    exact ⟨among, (List.getElem?_eq_some_iff.mp here).1⟩
  · rintro ⟨among, inside⟩
    have here := List.getElem?_eq_getElem inside
    exact ⟨r.names[place], mem_namesIn.mpr ⟨place, among, here⟩, here⟩

/-- Names that have been registered are looked up with the same result. -/
theorem Sound.lookupAll_of_registerAll (sound : r.Sound) {r' : Registry}
    (registered : r.registerAll names = (.ok set, r')) : r'.lookupAll names = .ok set := by
  induction names generalizing r set with
  | nil =>
      cases registered
      rfl
  | cons name names ih =>
      unfold registerAll at registered
      split at registered
      · cases registered
      · next first =>
          split at registered
          · cases registered
          · next rest =>
              cases registered
              have found := (growth_registerAll rest).later.find? (sound.find?_of_register first)
              have others := ih ((growth_register first).sound sound) rest
              exact lookupAll_cons_eq_ok.mpr ⟨_, _, found, others, rfl⟩

end Several

/--
A registry that has served any requests has at most 128 names, all different, and the
name at a place has the bit of that place.  Names are looked up if all of them are
registered, and the names in the result are those, each once and in the order of
registration; the names of any set are looked up, and lead to its places that have
names.  A request is refused if the names that are new in it are more than the free
places; otherwise its result is what the names are looked up with from then on, and in
either case every name that was registered keeps its bit.
-/
theorem names_inverse_to_sets (requests : List Request) :
    let r := serveAll {} requests
    r.names.length ≤ 128 ∧ r.names.Nodup ∧
    (∀ name set, r.find? name = some set ↔
      ∃ place, r.names[place]? = some name ∧ set = ⟨BitVec.twoPow 128 place⟩) ∧
    (∀ names, (∃ set, r.lookupAll names = .ok set) ↔ ∀ name ∈ names, name ∈ r.names) ∧
    (∀ names set, r.lookupAll names = .ok set →
      r.namesIn set = r.names.filter (· ∈ names)) ∧
    (∀ set, ∃ named, r.lookupAll (r.namesIn set) = .ok named ∧
      ∀ place, place ∈ named ↔ place ∈ set ∧ place < r.names.length) ∧
    ∀ names,
      ((∃ e, (r.registerAll names).1 = .error e) ↔
        128 < r.names.length + (names.removeAll r.names).eraseDups.length) ∧
      (∀ set, (r.registerAll names).1 = .ok set →
        (r.registerAll names).2.lookupAll names = .ok set) ∧
      ∀ name set, r.find? name = some set → (r.registerAll names).2.find? name = some set := by
  intro r
  have sound : r.Sound := sound_empty.serveAll requests
  refine ⟨sound.bounded, sound.distinct, fun name set => ?_, fun names => ?_,
    fun names set found => ?_,
    sound.lookupAll_namesIn,
    fun names => ⟨?_, fun set accepted => ?_, fun name set found => ?_⟩⟩
  · rw [sound.find?_eq_some_iff, sound.marks_iff]
  · constructor
    · rintro ⟨set, found⟩
      exact mem_of_lookupAll found
    · intro known
      obtain ⟨set, found, -⟩ := sound.lookupAll_of_mem known
      exact ⟨set, found⟩
  · exact sound.namesIn_gathered (sound.lookupAll_eq_ok_iff.mp found).2
  · exact (sound.registerAll_admission names).error_iff.trans sound.overflows_iff
  · exact sound.lookupAll_of_registerAll (Prod.ext accepted rfl)
  · exact (growth_registerAll rfl).later.find? found

end Registry

end BattleRoster
