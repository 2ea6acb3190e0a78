import BattleRoster.Session.Game
import Mathlib.Data.List.Nodup

/-!
# Registered names

A registry keeps each name once, at the place where it was first registered, and
never more names than an upgrade set has places.  Names are added at the end
only, also by a request that is refused half-way, so a name keeps its place and
a set keeps its names.
-/

namespace BattleRoster

namespace Registry

/-- A registry with a single place for each name, and a bit for each place. -/
structure Sound (r : Registry) : Prop where
  bounded : r.names.length ≤ UpgradeSet.capacity
  distinct : r.names.Nodup

theorem sound_empty : Sound {} :=
  ⟨Nat.zero_le _, List.nodup_nil⟩

/-- The set of the one place at which a name is registered. -/
def Marks (r : Registry) (set : UpgradeSet) (name : String) : Prop :=
  ∃ place, r.names[place]? = some name ∧ ∀ other, other ∈ set ↔ other = place

/-- A registry that has the names of an earlier one at the same places. -/
def Extends (r earlier : Registry) : Prop :=
  earlier.names <+: r.names

/-- A set all of whose places have a name. -/
def Names (r : Registry) (s : UpgradeSet) : Prop :=
  ∀ place ∈ s, place < r.size

section Extension

variable {r earlier : Registry}

theorem Extends.refl (r : Registry) : r.Extends r :=
  List.prefix_rfl

theorem Extends.getElem? (later : r.Extends earlier) {place : Nat} {name : String}
    (found : earlier.names[place]? = some name) : r.names[place]? = some name := by
  obtain ⟨added, same⟩ := later
  obtain ⟨lt, -⟩ := List.getElem?_eq_some_iff.mp found
  rw [← same, List.getElem?_append_left lt, found]

/-- A registered name keeps its set. -/
theorem Extends.find? (later : r.Extends earlier) {name : String} {set : UpgradeSet}
    (found : earlier.find? name = some set) : r.find? name = some set := by
  obtain ⟨added, same⟩ := later
  obtain ⟨place, first, single⟩ := Option.bind_eq_some_iff.mp found
  rw [Registry.find?, ← same, List.findIdx?_append, first, Option.some_or,
    Option.bind_some, single]

theorem Extends.names (later : r.Extends earlier) {s : UpgradeSet} (named : earlier.Names s) :
    r.Names s :=
  fun place mem => Nat.lt_of_lt_of_le (named place mem) later.length_le

end Extension

/-! ## Looking up -/

section Lookup

variable {r : Registry}

theorem marks_of_find? {name : String} {set : UpgradeSet} (found : r.find? name = some set) :
    r.Marks set name := by
  obtain ⟨place, first, single⟩ := Option.bind_eq_some_iff.mp found
  obtain ⟨lt, here, -⟩ := List.findIdx?_eq_some_iff_getElem.mp first
  refine ⟨place, ?_, UpgradeSet.mem_of_single?_eq_some single⟩
  rw [List.getElem?_eq_getElem lt, beq_iff_eq.mp here]

/-- A name has no set only if it is not registered, since every place has a bit. -/
theorem Sound.find?_eq_none (sound : r.Sound) {name : String} :
    r.find? name = none ↔ name ∉ r.names := by
  unfold find?
  constructor
  · intro missing mem
    obtain ⟨place, lt, here⟩ := List.getElem_of_mem mem
    have known : (r.names.findIdx? (· == name)).isSome = true := by
      rw [List.findIdx?_isSome, List.any_eq_true]
      exact ⟨name, mem, beq_self_eq_true name⟩
    obtain ⟨first, found⟩ := Option.isSome_iff_exists.mp known
    obtain ⟨inside, -⟩ := List.findIdx?_eq_some_iff_getElem.mp found
    rw [found, Option.bind_some, UpgradeSet.single?,
      if_pos (Nat.lt_of_lt_of_le inside sound.bounded)] at missing
    cases missing
  · intro absent
    have none : r.names.findIdx? (· == name) = none := by
      rw [List.findIdx?_eq_none_iff]
      intro other mem
      rw [beq_eq_false_iff_ne]
      rintro rfl
      exact absent mem
    rw [none, Option.bind_none]

theorem Sound.find?_of_mem (sound : r.Sound) {name : String} (known : name ∈ r.names) :
    ∃ set, r.find? name = some set := by
  cases found : r.find? name with
  | none => exact absurd known (sound.find?_eq_none.mp found)
  | some set => exact ⟨set, rfl⟩

end Lookup

/-! ## Registering -/

/-- What registering does to a registry: it adds names at the end, and keeps it sound. -/
structure Growth (earlier r : Registry) : Prop where
  later : r.Extends earlier
  sound : earlier.Sound → r.Sound

theorem Growth.refl (r : Registry) : Growth r r :=
  ⟨Extends.refl r, id⟩

theorem Growth.trans {a b c : Registry} (ab : Growth a b) (bc : Growth b c) : Growth a c :=
  ⟨ab.later.trans bc.later, bc.sound ∘ ab.sound⟩

/-- A name is registered at the end, if it is new and there is room. -/
theorem growth_register {r r' : Registry} {name : String} {result : Except UpgradeError UpgradeSet}
    (registered : r.register name = (result, r')) : Growth r r' := by
  unfold register at registered
  split at registered
  · cases registered
    exact .refl r
  · next missing =>
      split at registered
      · next set single =>
          cases registered
          refine ⟨List.prefix_append _ _, fun sound => ?_⟩
          have room : r.size < UpgradeSet.capacity := by
            refine Nat.lt_of_not_le fun full => ?_
            rw [UpgradeSet.single?, if_neg (Nat.not_lt.mpr full)] at single
            cases single
          constructor
          · rw [List.length_append]
            exact room
          · rw [← List.concat_eq_append]
            exact sound.distinct.concat (sound.find?_eq_none.mp missing)
      · cases registered
        exact .refl r

theorem register_error {r r' : Registry} {name : String} {e : UpgradeError}
    (refused : r.register name = (.error e, r')) : r' = r := by
  unfold register at refused
  split at refused
  · cases refused
  · split at refused <;> cases refused
    rfl

theorem marks_of_register {r r' : Registry} {name : String} {set : UpgradeSet}
    (registered : r.register name = (.ok set, r')) : r'.Marks set name := by
  unfold register at registered
  split at registered
  · next found =>
      cases registered
      exact marks_of_find? found
  · split at registered <;> cases registered
    next single =>
      refine ⟨r.size, ?_, UpgradeSet.mem_of_single?_eq_some single⟩
      exact List.getElem?_concat_length

/-- The names before one that is refused are registered. -/
theorem growth_registerAll {r r' : Registry} {names : List String}
    {result : Except UpgradeError UpgradeSet} (registered : r.registerAll names = (result, r')) :
    Growth r r' := by
  induction names generalizing r r' result with
  | nil =>
      cases registered
      exact .refl r
  | cons name names ih =>
      unfold registerAll at registered
      split at registered
      · next first =>
          cases registered
          exact growth_register first
      · next first =>
          split at registered <;> next rest =>
            cases registered
            exact (growth_register first).trans (ih rest)

/-! ## The names in a set -/

section Names

variable {r : Registry} {s set : UpgradeSet} {name other : String}

theorem mem_namesIn : name ∈ r.namesIn s ↔ ∃ place ∈ s, r.names[place]? = some name := by
  simp [namesIn]

/-- The names of a set depend only on what is registered at its places. -/
theorem namesIn_congr {r' : Registry} (same : ∀ place ∈ s, r'.names[place]? = r.names[place]?) :
    r'.namesIn s = r.namesIn s :=
  List.filterMap_congr fun place mem => same place (UpgradeSet.mem_places.mp mem)

/-- A set keeps its names when others are registered. -/
theorem Extends.namesIn {later : Registry} (extension : later.Extends r) (named : r.Names s) :
    later.namesIn s = r.namesIn s := by
  refine namesIn_congr fun place mem => ?_
  have found := List.getElem?_eq_getElem (named place mem)
  rw [found]
  exact extension.getElem? found

theorem Names.union (named : r.Names s) (marks : r.Marks set name) : r.Names (s ∪ set) := by
  obtain ⟨marked, here, only⟩ := marks
  intro place mem
  rcases UpgradeSet.mem_union.mp mem with mem | mem
  · exact named place mem
  · obtain rfl := (only place).mp mem
    exact (List.getElem?_eq_some_iff.mp here).1

theorem Names.sdiff (named : r.Names s) (lost : UpgradeSet) : r.Names (s \ lost) :=
  fun place mem => named place (UpgradeSet.mem_sdiff.mp mem).1

/-- Adding the place of a name adds that name. -/
theorem Marks.mem_namesIn_union (marks : r.Marks set name) :
    other ∈ r.namesIn (s ∪ set) ↔ other = name ∨ other ∈ r.namesIn s := by
  obtain ⟨marked, here, only⟩ := marks
  simp only [mem_namesIn, UpgradeSet.mem_union, only]
  constructor
  · rintro ⟨place, mem | rfl, found⟩
    · exact .inr ⟨place, mem, found⟩
    · exact .inl (Option.some.inj (found.symm.trans here))
  · rintro (rfl | ⟨place, mem, found⟩)
    · exact ⟨marked, .inr rfl, here⟩
    · exact ⟨place, .inl mem, found⟩

/-- Taking the place of a name away takes that name, since it has no other place. -/
theorem Marks.mem_namesIn_sdiff (marks : r.Marks set name) (sound : r.Sound) :
    other ∈ r.namesIn (s \ set) ↔ other ≠ name ∧ other ∈ r.namesIn s := by
  obtain ⟨marked, here, only⟩ := marks
  simp only [mem_namesIn, UpgradeSet.mem_sdiff, only]
  constructor
  · rintro ⟨place, ⟨mem, apart⟩, found⟩
    refine ⟨?_, place, mem, found⟩
    rintro rfl
    have inside := (List.getElem?_eq_some_iff.mp found).1
    exact apart ((List.getElem?_inj inside sound.distinct).mp (found.trans here.symm))
  · rintro ⟨differs, place, mem, found⟩
    refine ⟨place, ⟨mem, ?_⟩, found⟩
    rintro rfl
    exact differs (Option.some.inj (found.symm.trans here))

end Names

end Registry

/-! ## Building modules -/

open Registry

theorem Module.growth_build {b : Blueprint} {r r' : Registry}
    {result : Except UpgradeError Module} (built : build b r = (result, r')) : Growth r r' := by
  unfold build at built
  split at built
  · next triggers =>
      cases built
      exact growth_registerAll triggers
  · next triggers =>
      split at built
      · next conflicts =>
          cases built
          exact (growth_registerAll triggers).trans (growth_registerAll conflicts)
      · next conflicts =>
          split at built <;> next removes =>
            cases built
            exact (growth_registerAll triggers).trans
              ((growth_registerAll conflicts).trans (growth_registerAll removes))

/-- A request that is refused for an unknown blueprint has registered the names before it. -/
theorem Game.growth_buildModules {known : List Blueprint} {names : List String} {r r' : Registry}
    {result : Except GameError (List Module)} (built : buildModules known names r = (result, r')) :
    Growth r r' := by
  induction names generalizing r r' result with
  | nil =>
      cases built
      exact .refl r
  | cons name names ih =>
      unfold buildModules at built
      split at built
      · cases built
        exact .refl r
      · split at built
        · next first =>
            cases built
            exact Module.growth_build first
        · next first =>
            split at built <;> next rest =>
              cases built
              exact (Module.growth_build first).trans (ih rest)

end BattleRoster
