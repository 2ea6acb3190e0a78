import BattleRoster.Proofs.Session.Holdings
import BattleRoster.Proofs.Session.Replies
import BattleRoster.Proofs.Upgrade.Admission

/-!
# Spawns that are refused

A spawn registers the upgrades of its blueprints one after the other, and is refused
when it comes to a name without a blueprint or when the registry is full.  It leaves
the names behind that it has registered until then, and nothing else.
-/

namespace BattleRoster

namespace Game

/-- The upgrades that a spawn asks for: none, if its owner is unknown. -/
def askedFor (g : Game) (owner : String) (names : List String) : List String :=
  match g.resolve owner with
  | .ok _ => mentioned g.blueprints names
  | .error _ => []

theorem isKnown_eq_false {known : List Blueprint} {name : String} :
    isKnown known name = false ↔ ∀ b ∈ known, b.name ≠ name := by
  rw [isKnown, Option.isSome_eq_false_iff, Option.isNone_iff_eq_none, List.find?_eq_none]
  simp

/-- A spawn is refused or not, and in either case it registers what it asks for. -/
theorem spawn_outcome {g : Game} (sound : g.registry.Sound) (owner object : String)
    (names : List String) :
    (∃ e, g.spawn owner object names =
        (.error e, { g with registry := g.registry.enrol (g.askedFor owner names) }) ∧
      ((∃ e, g.resolve owner = .error e) ∨ g.registry.Overflows (g.askedFor owner names) ∨
        ∃ name ∈ names, isKnown g.blueprints name = false)) ∨
    ∃ fired g', g.spawn owner object names = (.ok fired, g') ∧
      (∃ slot, g.resolve owner = .ok slot) ∧
      ¬ g.registry.Overflows (g.askedFor owner names) ∧
      ∀ name ∈ names, isKnown g.blueprints name = true := by
  unfold spawn askedFor
  cases g.resolve owner with
  | error e =>
      have same := (sound.enrol_of_mem (List.forall_mem_nil _)).1
      dsimp only
      rw [same]
      exact .inl ⟨e, rfl, .inl ⟨e, rfl⟩⟩
  | ok slot =>
      have construction := buildModules_construction g.blueprints names sound
      dsimp only
      generalize buildModules g.blueprints names g.registry = outcome at construction
      cases construction with
      | built modules fits all => exact .inr ⟨_, _, rfl, ⟨slot, rfl⟩, fits, all⟩
      | full beyond => exact .inl ⟨_, rfl, .inr (.inl beyond)⟩
      | unknown name fits first =>
          have missing : isKnown g.blueprints name = false := by
            simpa using List.find?_some first
          exact .inl ⟨_, rfl, .inr (.inr ⟨name, List.mem_of_find?_eq_some first, missing⟩)⟩

section Spawn

variable {g : Game} {owner object : String} {names : List String}

theorem spawn_eq_error_iff (sound : g.registry.Sound) (owner object : String)
    (names : List String) :
    (∃ e, (g.spawn owner object names).1 = .error e) ↔
      (∃ e, g.resolve owner = .error e) ∨ g.registry.Overflows (g.askedFor owner names) ∨
        ∃ name ∈ names, isKnown g.blueprints name = false := by
  rcases spawn_outcome sound owner object names with
    ⟨e, refused, why⟩ | ⟨fired, g', done, ⟨slot, resolved⟩, fits, all⟩
  · exact iff_of_true ⟨e, by rw [refused]⟩ why
  · rw [done]
    refine iff_of_false nofun ?_
    rintro (⟨e, unresolved⟩ | beyond | ⟨name, mem, missing⟩)
    · rw [resolved] at unresolved
      cases unresolved
    · exact fits beyond
    · rw [all name mem] at missing
      cases missing

theorem spawn_of_error (sound : g.registry.Sound) {e : GameError}
    (refused : (g.spawn owner object names).1 = .error e) :
    (g.spawn owner object names).2 =
      { g with registry := g.registry.enrol (g.askedFor owner names) } := by
  rcases spawn_outcome sound owner object names with
    ⟨e, outcome, -⟩ | ⟨fired, g', done, -⟩
  · rw [outcome]
  · rw [done] at refused
    cases refused

theorem step_spawn_refused {files : Files} {e : GameError} :
    (g.step files (.spawn owner object names)).1 = .responses [.refused e] ↔
      (g.spawn owner object names).1 = .error e :=
  answer_eq_refused fun fired => by simp

end Spawn

/--
A spawn is refused if its owner is unknown, if there is no room for the upgrades that it
asks for, or if a module has no blueprint.  Then these upgrades have been registered all
the same, as far as there is room, and everything else is as before, also the bits of all
earlier upgrades.  So nothing at all has changed only if none of them was new, or the
registry was full already.
-/
theorem spawn_refused_leaves {g : Game} (reachable : g.Reachable) (files : Files)
    (owner object : String) (names : List String) :
    let outcome := g.step files (.spawn owner object names)
    let asked := g.askedFor owner names
    ((∃ e, outcome.1 = .responses [.refused e]) ↔
      (∃ e, g.resolve owner = .error e) ∨ g.registry.Overflows asked ∨
        ∃ name ∈ names, ∀ b ∈ g.blueprints, b.name ≠ name) ∧
    ∀ e, outcome.1 = .responses [.refused e] →
      outcome.2 = { g with registry := g.registry.enrol asked } ∧
      (outcome.2 = g ↔
        g.registry.names.length = 128 ∨ ∀ name ∈ asked, name ∈ g.registry.names) ∧
      ∀ name set, g.registry.find? name = some set →
        outcome.2.registry.find? name = some set := by
  intro outcome asked
  have sound := reachable.registry
  refine ⟨?_, fun e refused => ?_⟩
  · simp only [← isKnown_eq_false]
    refine Iff.trans ?_ (spawn_eq_error_iff sound owner object names)
    exact exists_congr fun e => step_spawn_refused
  · have after : outcome.2 = { g with registry := g.registry.enrol asked } :=
      spawn_of_error sound (step_spawn_refused.mp refused)
    refine ⟨after, ?_, fun name set => (growth_step files g _).later.find?⟩
    rw [after, ← UpgradeSet.capacity, ← Registry.size, ← sound.enrol_eq_self_iff]
    exact ⟨fun same => congrArg Game.registry same, fun same => by rw [same]⟩

/-- The files of a mill, whose saw is driven by steel. -/
def mill : Files := { find := fun _ => .ok "[[\"Saw\",[\"Steel\"]]]".toUTF8 }

/-- A game in which the blueprint of the saw is known. -/
def withSaw : Game :=
  run {} [(mill, .loadBlueprints "mill")]

theorem reachable_withSaw : withSaw.Reachable :=
  (Reachable.start {}).run _

/-- A spawn of a saw and of a wheel, which has no blueprint, leaves steel behind. -/
theorem spawn_refused_leaves_steel :
    let outcome := withSaw.step mill (.spawn "-" "Mill" ["Saw", "Wheel"])
    outcome.1 = .responses [.refused (.unknownBlueprint "Wheel")] ∧
      outcome.2 = { withSaw with registry := { names := ["Steel"] } } ∧
        outcome.2 ≠ withSaw := by
  intro outcome
  have refused : outcome.1 = .responses [.refused (.unknownBlueprint "Wheel")] := by decide +kernel
  obtain ⟨after, same, -⟩ :=
    (spawn_refused_leaves reachable_withSaw mill "-" "Mill" ["Saw", "Wheel"]).2 _ refused
  have names : withSaw.registry.enrol (withSaw.askedFor "-" ["Saw", "Wheel"]) =
      { names := ["Steel"] } := by
    decide +kernel
  rw [names] at after
  refine ⟨refused, after, mt same.mp ?_⟩
  decide +kernel

/-- A spawn that is refused may be noticed later. -/
theorem spawn_refused_noticed :
    ¬ ∀ g : Game, g.Reachable → ∀ files owner object names e,
      (g.step files (.spawn owner object names)).1 = .responses [.refused e] →
      ∀ c, ((g.step files (.spawn owner object names)).2.step files c).1 =
        (g.step files c).1 := by
  intro unnoticed
  have same := unnoticed withSaw reachable_withSaw mill "-" "Mill" ["Saw", "Wheel"]
    (.unknownBlueprint "Wheel") (by decide +kernel) (.revoke "-" "Steel")
  exact absurd same (by decide +kernel)

end Game

end BattleRoster
