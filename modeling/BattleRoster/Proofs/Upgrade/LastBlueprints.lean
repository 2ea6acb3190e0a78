import BattleRoster.Proofs.Collection.Occurrences
import BattleRoster.Proofs.Upgrade.NamesAndSets

/-!
# Blueprints and their successors

A blueprint that is registered goes to the end, and an earlier one of its name is given up.
So the registered blueprints are the last ones of their names, in the order in which these
were read, and a name leads to the last one.  A module that is built from a blueprint has
the sets of the names in it, and these stay the sets of those names for good.
-/

namespace BattleRoster

namespace Blueprint

variable {read known : List Blueprint} {name : String} {b b' c : Blueprint}

/-! ## The last blueprint of a name -/

/-- The last blueprint of a name among those that were read. -/
def LastNamed (read : List Blueprint) (name : String) (b : Blueprint) : Prop :=
  LastSuch (fun other => other = b ∧ b.name = name) (fun later => later.name ≠ name) read

theorem lastNamed_concat : LastNamed (read ++ [c]) name b ↔
    (c = b ∧ b.name = name) ∨ (LastNamed read name b ∧ c.name ≠ name) :=
  lastSuch_concat

theorem LastNamed.named (last : LastNamed read name b) : b.name = name := by
  obtain ⟨before, other, after, -, ⟨-, named⟩, -⟩ := last
  exact named

theorem LastNamed.mem (last : LastNamed read name b) : b ∈ read := by
  obtain ⟨before, other, after, rfl, ⟨rfl, -⟩, -⟩ := last
  exact List.mem_append_right before List.mem_cons_self

theorem LastNamed.unique (last : LastNamed read name b) (again : LastNamed read name b') :
    b = b' := by
  induction read using List.reverseRecOn with
  | nil => exact absurd last not_lastSuch_nil
  | append_singleton read c ih =>
      rcases lastNamed_concat.mp last with ⟨rfl, named⟩ | ⟨earlier, other⟩
      · rcases lastNamed_concat.mp again with ⟨same, -⟩ | ⟨-, other⟩
        · exact same
        · exact absurd named other
      · rcases lastNamed_concat.mp again with ⟨rfl, named⟩ | ⟨earlier', -⟩
        · exact absurd named other
        · exact ih earlier earlier'

/-- Of the blueprints of a name there is a last one. -/
theorem exists_lastNamed (mem : b ∈ read) : ∃ last, LastNamed read b.name last := by
  induction read using List.reverseRecOn with
  | nil => cases mem
  | append_singleton read c ih =>
      by_cases same : c.name = b.name
      · exact ⟨c, lastNamed_concat.mpr (.inl ⟨rfl, same⟩)⟩
      · have among : b ∈ read := by
          rcases List.mem_append.mp mem with among | here
          · exact among
          · exact absurd (congrArg Blueprint.name (List.mem_singleton.mp here)).symm same
        obtain ⟨last, earlier⟩ := ih among
        exact ⟨last, lastNamed_concat.mpr (.inr ⟨earlier, same⟩)⟩

/-- Two blueprints that are the last ones of their names were read in this order. -/
def LastBefore (read : List Blueprint) (b c : Blueprint) : Prop :=
  ∃ earlier later, read = earlier ++ later ∧ LastNamed earlier b.name b ∧
    (∀ other ∈ later, other.name ≠ b.name) ∧ LastNamed later c.name c

theorem LastBefore.name_ne (before : LastBefore read b c) : b.name ≠ c.name := by
  obtain ⟨earlier, later, -, -, others, last⟩ := before
  exact (others c last.mem).symm

/-- The order does not change when a blueprint of another name is read. -/
theorem LastBefore.concat (before : LastBefore read b c) {new : Blueprint}
    (other : b.name ≠ new.name) (other' : c.name ≠ new.name) :
    LastBefore (read ++ [new]) b c := by
  obtain ⟨earlier, later, rfl, first, others, last⟩ := before
  refine ⟨earlier, later ++ [new], List.append_assoc _ _ _, first, ?_, ?_⟩
  · exact List.forall_mem_append.mpr ⟨others, List.forall_mem_singleton.mpr other.symm⟩
  · exact lastNamed_concat.mpr (.inr ⟨last, other'.symm⟩)

/-- What is read now comes after everything else. -/
theorem LastNamed.before_new (last : LastNamed read b.name b) (other : b.name ≠ c.name) :
    LastBefore (read ++ [c]) b c := by
  refine ⟨read, [c], rfl, last, List.forall_mem_singleton.mpr other.symm, ?_⟩
  exact ⟨[], c, [], rfl, ⟨rfl, rfl⟩, List.forall_mem_nil _⟩

/-! ## Registering -/

/-- The last blueprints of all names, in the order in which these were read. -/
structure LastOfEach (read known : List Blueprint) : Prop where
  last : ∀ b, b ∈ known ↔ LastNamed read b.name b
  order : known.Pairwise (LastBefore read)

namespace LastOfEach

theorem nil : LastOfEach [] [] where
  last _ := iff_of_false List.not_mem_nil not_lastSuch_nil
  order := .nil

/-- Registering takes account of one more blueprint that was read. -/
theorem register (each : LastOfEach read known) (c : Blueprint) :
    LastOfEach (read ++ [c]) (Game.registerBlueprint known c) := by
  have kept : ∀ b ∈ known.filter (·.name ≠ c.name), b ∈ known ∧ b.name ≠ c.name := by
    intro b mem
    simpa using mem
  refine ⟨fun b => ?_, ?_⟩
  · rw [lastNamed_concat, ← each.last, Game.registerBlueprint, List.mem_append, List.mem_filter,
      List.mem_singleton, decide_eq_true_eq, or_comm, and_iff_left rfl, eq_comm (a := c),
      ne_comm]
  · refine List.pairwise_append.mpr ⟨?_, List.pairwise_singleton _ _, fun b mem new here => ?_⟩
    · refine (each.order.filter _).imp_of_mem fun mem mem' before => ?_
      exact before.concat (kept _ mem).2 (kept _ mem').2
    · obtain rfl := List.mem_singleton.mp here
      obtain ⟨among, other⟩ := kept b mem
      exact ((each.last b).mp among).before_new other

theorem registerAll (each : LastOfEach read known) (blueprints : List Blueprint) :
    LastOfEach (read ++ blueprints) (blueprints.foldl Game.registerBlueprint known) := by
  induction blueprints generalizing read known with
  | nil => rwa [List.append_nil]
  | cons b blueprints ih =>
      rw [List.append_cons]
      exact ih (each.register b)

theorem distinct (each : LastOfEach read known) : (known.map Blueprint.name).Nodup := by
  apply List.pairwise_map.mpr
  exact each.order.imp LastBefore.name_ne

/-- A name leads to its last blueprint. -/
theorem find?_eq_some_iff (each : LastOfEach read known) :
    known.find? (·.name == name) = some b ↔ LastNamed read name b := by
  have sound {b : Blueprint} (found : known.find? (·.name == name) = some b) :
      LastNamed read name b := by
    have named : b.name = name := by simpa using List.find?_some found
    exact named ▸ (each.last b).mp (List.mem_of_find?_eq_some found)
  refine ⟨sound, fun last => ?_⟩
  have among : b ∈ known := (each.last b).mpr (last.named.symm ▸ last)
  have some : (known.find? (·.name == name)).isSome = true :=
    List.find?_isSome.mpr ⟨b, among, beq_iff_eq.mpr last.named⟩
  obtain ⟨other, found⟩ := Option.isSome_iff_exists.mp some
  rw [found, (sound found).unique last]

/-- A name is unknown if no blueprint of that name was read. -/
theorem isKnown_eq_false (each : LastOfEach read known) :
    Game.isKnown known name = false ↔ ∀ b ∈ read, b.name ≠ name := by
  rw [Game.isKnown, Option.isSome_eq_false_iff, Option.isNone_iff_eq_none]
  constructor
  · rintro missing b mem rfl
    obtain ⟨last, named⟩ := exists_lastNamed mem
    rw [each.find?_eq_some_iff.mpr named] at missing
    cases missing
  · intro absent
    refine Option.eq_none_iff_forall_ne_some.mpr fun b found => ?_
    have last := each.find?_eq_some_iff.mp found
    exact absent b last.mem last.named

end LastOfEach

end Blueprint

/-! ## Building -/

open Registry

/-- A module as a blueprint describes it, with the sets that a registry has for the names. -/
structure Module.Realizes (r : Registry) (b : Blueprint) (m : Module) : Prop where
  name : m.name = b.name
  triggers : r.lookupAll b.triggers = .ok m.gate.triggers
  conflicts : r.lookupAll b.conflicts = .ok m.gate.conflicts
  removes : r.lookupAll b.removes = .ok m.gate.removes
  needsAll : m.gate.needsAll = b.needsAll
  cue : m.cue = b.cue
  status : m.status = b.status

namespace Module

variable {r r' : Registry} {b : Blueprint} {m m' : Module}

/-- The sets of a module remain those of its names. -/
theorem Realizes.later (realizes : m.Realizes r b) (extension : r'.Extends r) :
    m.Realizes r' b where
  name := realizes.name
  triggers := extension.lookupAll realizes.triggers
  conflicts := extension.lookupAll realizes.conflicts
  removes := extension.lookupAll realizes.removes
  needsAll := realizes.needsAll
  cue := realizes.cue
  status := realizes.status

theorem realizes_build (sound : r.Sound) (built : build b r = (.ok m, r')) : m.Realizes r' b := by
  unfold build at built
  split at built
  · cases built
  · next triggers =>
      split at built
      · cases built
      · next conflicts =>
          split at built
          · cases built
          · next removes =>
              cases built
              have first := growth_registerAll triggers
              have second := growth_registerAll conflicts
              have third := growth_registerAll removes
              exact {
                name := rfl
                triggers := (second.trans third).later.lookupAll
                  (sound.lookupAll_of_registerAll triggers)
                conflicts := third.later.lookupAll
                  ((first.sound sound).lookupAll_of_registerAll conflicts)
                removes := (second.sound (first.sound sound)).lookupAll_of_registerAll removes
                needsAll := rfl
                cue := rfl
                status := rfl }

end Module

/-- Modules are built from the blueprints of their names, one by one. -/
theorem Game.realizes_buildModules {known : List Blueprint} {names : List String}
    {r r' : Registry} {modules : List Module} (sound : r.Sound)
    (built : buildModules known names r = (.ok modules, r')) :
    List.Forall₂ (fun name m => ∃ b, known.find? (·.name == name) = some b ∧ m.Realizes r' b)
      names modules := by
  induction names generalizing r modules with
  | nil =>
      cases built
      exact .nil
  | cons name names ih =>
      unfold buildModules at built
      split at built
      · cases built
      · next blueprint found =>
          split at built
          · cases built
          · next first =>
              split at built
              · cases built
              · next rest =>
                  cases built
                  have realizes := (Module.realizes_build sound first).later
                    (growth_buildModules rest).later
                  exact .cons ⟨blueprint, found, realizes⟩
                    (ih ((Module.growth_build first).sound sound) rest)

end BattleRoster
