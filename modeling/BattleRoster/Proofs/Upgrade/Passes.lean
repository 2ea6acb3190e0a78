import BattleRoster.Proofs.Upgrade.Evaluation

/-!
# Evaluation passes

A pass attempts every module with the upgrades that are held before it, and what
the modules ask for waits until all of them have been attempted.  So no module
sees what another one does in the same pass, and a pass is described module by
module.  The upgrades that it strips are taken away at its end: a module that has
one of them as a trigger is reset, even if it fired a moment earlier.
-/

namespace BattleRoster

namespace Bearer

/-- What a pass does to an object, module by module. -/
structure Pass (b : Bearer) (player : UpgradeSet) (names : List String) (after : Bearer) :
    Prop where
  identity : after.name = b.name ∧ after.owner = b.owner
  names : names = (b.firing player).map (·.name)
  upgrades : after.upgrades = b.upgrades \ b.stripped player
  statuses : ∀ status, after.statuses.contains status = true ↔
    b.statuses.contains status = true ∨ ∃ m ∈ b.firing player, m.status = some status
  cues : after.cues = b.cues ++ (b.firing player).flatMap (·.cue.toList)
  modules : after.modules = b.modules.map (·.passed (player ∪ b.upgrades) (b.stripped player))

theorem pass (b : Bearer) (player : UpgradeSet) :
    b.Pass player (b.update player).1 (b.update player).2 where
  identity := by rw [update_eq]; exact ⟨rfl, rfl⟩
  names := names_update b player
  upgrades := by rw [update_eq]
  statuses status := by
    rw [contains_statuses_update]
    simp [firing, and_assoc]
  cues := by rw [update_eq]
  modules := by rw [update_eq]

/-! ## Order -/

/-- The same modules fire in every order. -/
theorem mem_firing_reorder {b : Bearer} {reordered : List Module} (order : reordered.Perm b.modules)
    (player : UpgradeSet) (m : Module) :
    m ∈ { b with modules := reordered }.firing player ↔ m ∈ b.firing player :=
  (order.filter _).mem_iff

/-- The same upgrades are stripped in every order. -/
theorem stripped_reorder {b : Bearer} {reordered : List Module} (order : reordered.Perm b.modules)
    (player : UpgradeSet) :
    { b with modules := reordered }.stripped player = b.stripped player := by
  ext place
  simp only [mem_stripped, mem_firing_reorder order]

theorem statuses_update_reorder {b : Bearer} {reordered : List Module}
    (order : reordered.Perm b.modules) (player : UpgradeSet) :
    ({ b with modules := reordered }.update player).2.statuses = (b.update player).2.statuses := by
  refine OrderedMap.eq_of_contains fun status => ?_
  rw [Bool.eq_iff_iff, (pass _ player).statuses, (pass b player).statuses]
  simp only [mem_firing_reorder order]

/-! ## A second pass -/

/-- A pass in which no module fires changes nothing. -/
theorem update_of_firing_nil {b : Bearer} {player : UpgradeSet} (still : b.firing player = []) :
    b.update player = ([], b) := by
  have stripped : b.stripped player = ∅ := by
    ext place
    simp [mem_stripped, still]
  have modules : b.modules.map (·.passed (player ∪ b.upgrades) ∅) = b.modules := by
    refine (List.map_congr_left fun m mem => ?_).trans (List.map_id b.modules)
    have quiet : m.gate.wouldFire (player ∪ b.upgrades) = false := by
      simpa using List.filter_eq_nil_iff.mp still m mem
    rw [m.passed_empty, Module.attempted, Gate.attempted_of_still quiet]
    rfl
  refine Prod.ext ((names_update b player).trans ?_) ?_
  · rw [← firing, still]; rfl
  · rw [update_eq, still, stripped, modules, UpgradeSet.sdiff_empty]
    simp [OrderedMap.insertAll]

/-- After a pass that strips nothing no module is left that would fire. -/
theorem firing_update {b : Bearer} {player : UpgradeSet} (kept : b.stripped player = ∅) :
    (b.update player).2.firing player = [] := by
  rw [firing, update_eq]
  simp only [kept, UpgradeSet.sdiff_empty, Module.passed_empty]
  rw [List.filter_eq_nil_iff]
  intro m mem
  obtain ⟨earlier, -, rfl⟩ := List.mem_map.mp mem
  simp [Module.attempted, Gate.wouldFire_attempted]

/--
A pass is described module by module.  So the order of the modules makes no
difference to the upgrades, the statuses and the state in which it leaves each
module, and if nothing is stripped a second pass does nothing at all.
-/
theorem pass_update (b : Bearer) (player : UpgradeSet) :
    b.Pass player (b.update player).1 (b.update player).2 ∧
      (∀ reordered, reordered.Perm b.modules →
        ({ b with modules := reordered }.update player).2.upgrades =
            (b.update player).2.upgrades ∧
          ({ b with modules := reordered }.update player).2.statuses =
            (b.update player).2.statuses ∧
          ({ b with modules := reordered }.update player).2.modules =
            reordered.map (·.passed (player ∪ b.upgrades) (b.stripped player))) ∧
      (b.stripped player = ∅ →
        (b.update player).2.update player = ([], (b.update player).2)) := by
  refine ⟨b.pass player, fun reordered order => ⟨?_, ?_, ?_⟩, fun kept => ?_⟩
  · rw [(pass _ player).upgrades, (pass b player).upgrades, stripped_reorder order]
  · exact statuses_update_reorder order player
  · rw [(pass _ player).modules, stripped_reorder order]
  · exact update_of_firing_nil (firing_update kept)

/-- A tank: the second module removes the trigger of the first one, the third one its own. -/
def tank : Bearer where
  name := "Tank"
  owner := Slot.neutral
  upgrades := ⟨0b101⟩
  statuses := .ofList [("Veteran", ())]
  modules := [
    { name := "Basic", gate := { triggers := ⟨0b001⟩ }, status := some "Armored" },
    { name := "Advanced", gate := { triggers := ⟨0b010⟩, removes := ⟨0b001⟩ },
      cue := some "FX" },
    { name := "Spent", gate := { triggers := ⟨0b100⟩, removes := ⟨0b100⟩ } }]

theorem pass_update_tank :
    tank.stripped ⟨0b010⟩ = ⟨0b101⟩ ∧
      (tank.update ⟨0b010⟩).1 = ["Basic", "Advanced", "Spent"] ∧
      (tank.update ⟨0b010⟩).2.moduleStates =
        [("Basic", false), ("Advanced", true), ("Spent", false)] ∧
      tank.Pass ⟨0b010⟩ (tank.update ⟨0b010⟩).1 (tank.update ⟨0b010⟩).2 ∧
      ({ tank with modules := tank.modules.reverse }.update ⟨0b010⟩).2.statuses =
        (tank.update ⟨0b010⟩).2.statuses ∧
      { tank with upgrades := ∅ }.stripped ⟨0b111⟩ = ∅ ∧
      (({ tank with upgrades := ∅ }.update ⟨0b111⟩).2.update ⟨0b111⟩).1 = [] := by
  obtain ⟨passes, reorder, -⟩ := pass_update tank ⟨0b010⟩
  obtain ⟨-, -, again⟩ := pass_update { tank with upgrades := ∅ } ⟨0b111⟩
  have kept : { tank with upgrades := ∅ }.stripped ⟨0b111⟩ = ∅ := by decide
  refine ⟨by decide, by decide, by decide, passes, ?_, kept, ?_⟩
  · exact (reorder tank.modules.reverse (List.reverse_perm _)).2.1
  · rw [again kept]

end Bearer

end BattleRoster
