import BattleRoster.Upgrade.Bearer

/-!
# Evaluating modules

An effect of a module asks for things and leaves the gate alone, so what an
attempt does to a module depends on its gate and the held upgrades only, and an
evaluation is described by one equation, module by module.  A gate that has fired
is justified as long as the upgrades that are held now meet its triggers; giving
upgrades keeps that, and so does taking upgrades away, since the gates with a lost
trigger are reset.
-/

namespace BattleRoster

/-! ## Sets -/

namespace UpgradeSet

@[simp] theorem union_empty (s : UpgradeSet) : s ∪ ∅ = s := by
  ext place
  simp

@[simp] theorem empty_inter (s : UpgradeSet) : ∅ ∩ s = (∅ : UpgradeSet) := by
  ext place
  simp

@[simp] theorem sdiff_empty (s : UpgradeSet) : s \ ∅ = s := by
  ext place
  simp

@[simp] theorem nonempty_empty : (∅ : UpgradeSet).nonempty = false := by
  decide

theorem nonempty_eq_false_iff {s : UpgradeSet} : s.nonempty = false ↔ s = ∅ := by
  constructor
  · intro none
    ext place
    have absent : ¬ place ∈ s := by
      intro mem
      have some := nonempty_iff.mpr ⟨place, mem⟩
      rw [none] at some
      cases some
    simp [absent]
  · rintro rfl
    exact nonempty_empty

theorem nonempty_mono {s more : UpgradeSet} (kept : ∀ place ∈ s, place ∈ more)
    (nonempty : s.nonempty = true) : more.nonempty = true := by
  obtain ⟨place, mem⟩ := nonempty_iff.mp nonempty
  exact nonempty_iff.mpr ⟨place, kept place mem⟩

@[simp] theorem empty_meets (s : UpgradeSet) : (∅ : UpgradeSet).meets s = false := by
  simp [meets]

theorem meets_eq_false_iff {a b : UpgradeSet} :
    a.meets b = false ↔ ∀ place ∈ b, ¬ place ∈ a := by
  rw [← Bool.not_eq_true, meets_iff]
  constructor
  · intro apart place inB inA
    exact apart ⟨place, inA, inB⟩
  · rintro apart ⟨place, inA, inB⟩
    exact apart place inB inA

end UpgradeSet

/-! ## Attempts -/

namespace Firing

variable {f : Firing}

/-- The moment at which the effect of a gate is entered. -/
def entered (b : Behaviour) (f : Firing) : Firing :=
  requestRemovals { gate := { f.gate with upgrading := true }, requests := b.cue f.requests }

theorem gate_entered (b : Behaviour) (f : Firing) :
    (f.entered b).gate = { f.gate with upgrading := true } := by
  unfold entered requestRemovals
  split <;> rfl

/-- The removals of a gate are asked for whether there are any or not. -/
theorem requests_entered (b : Behaviour) (f : Firing) :
    (f.entered b).requests = (b.cue f.requests).remove f.gate.removes := by
  unfold entered requestRemovals
  dsimp only
  split
  · rfl
  · next none =>
      rw [Bool.not_eq_true, UpgradeSet.nonempty_eq_false_iff] at none
      simp [Requests.remove, none]

/-- A gate that is neither executed nor firing enters its effect and is executed after it. -/
theorem give_of_idle (b : Behaviour) (unfired : f.gate.executed = false)
    (resting : f.gate.upgrading = false) :
    f.give b = (true, { b.effect (f.entered b) with
      gate := (b.effect (f.entered b)).gate.finish }) := by
  simp [give, Gate.begin?, unfired, resting, entered]

end Firing

/-- A gate after an attempt: it has fired if the held upgrades say so. -/
def Gate.attempted (g : Gate) (held : UpgradeSet) : Gate :=
  { g with executed := g.executed || g.wouldFire held }

theorem Gate.wouldFire_eq_true {g : Gate} {held : UpgradeSet} : g.wouldFire held = true ↔
    g.executed = false ∧ g.upgrading = false ∧ g.triggers.nonempty = true ∧
      held.nonempty = true ∧ held.meets g.conflicts = false ∧ g.triggered held = true := by
  simp [wouldFire, and_assoc]

theorem Gate.idle_of_wouldFire {g : Gate} {held : UpgradeSet} (fires : g.wouldFire held = true) :
    g.executed = false ∧ g.upgrading = false := by
  obtain ⟨unfired, resting, -⟩ := wouldFire_eq_true.mp fires
  exact ⟨unfired, resting⟩

/-- An attempt with upgrades that do not fire a gate makes no difference. -/
theorem Gate.attempted_of_still {g : Gate} {held : UpgradeSet} (still : g.wouldFire held = false) :
    g.attempted held = g := by
  simp [attempted, still]

/-- A gate that has been attempted does not fire with the same upgrades. -/
theorem Gate.wouldFire_attempted (g : Gate) (held : UpgradeSet) :
    (g.attempted held).wouldFire held = false := by
  rw [← Bool.not_eq_true]
  intro fires
  obtain ⟨unfired, -⟩ := wouldFire_eq_true.mp fires
  obtain ⟨-, still⟩ := Bool.or_eq_false_iff.mp unfired
  rw [attempted_of_still still, still] at fires
  cases fires

/-- The held upgrades fire a gate. -/
theorem Firing.attempt_of_wouldFire (b : Behaviour) {f : Firing} {held : UpgradeSet}
    (fires : f.gate.wouldFire held = true) :
    f.attempt b held = (true, { b.effect (f.entered b) with
      gate := (b.effect (f.entered b)).gate.finish }) := by
  obtain ⟨unfired, resting⟩ := Gate.idle_of_wouldFire fires
  rw [attempt, if_pos fires, give_of_idle b unfired resting]

theorem Firing.attempt_of_still (b : Behaviour) {f : Firing} {held : UpgradeSet}
    (still : f.gate.wouldFire held = false) : f.attempt b held = (false, f) := by
  simp [attempt, still]

namespace Module

/-- A module after an attempt. -/
def attempted (m : Module) (held : UpgradeSet) : Module :=
  { m with gate := m.gate.attempted held }

/-- The effect of a module concerns the requests only. -/
theorem gate_effect (m : Module) (f : Firing) : (m.behaviour.effect f).gate = f.gate := by
  simp only [behaviour]
  split <;> rfl

/-- An attempt fires a gate exactly when the held upgrades say so. -/
theorem attempt_gate (m : Module) (held : UpgradeSet) (f : Firing) :
    (f.attempt m.behaviour held).1 = f.gate.wouldFire held ∧
      (f.attempt m.behaviour held).2.gate = f.gate.attempted held := by
  cases fires : f.gate.wouldFire held with
  | true =>
      have resting := (Gate.idle_of_wouldFire fires).2
      rw [Firing.attempt_of_wouldFire _ fires, gate_effect, Firing.gate_entered]
      exact ⟨rfl, by simp [Gate.finish, Gate.attempted, fires, resting]⟩
  | false =>
      rw [Firing.attempt_of_still _ fires, Gate.attempted_of_still fires]
      exact ⟨rfl, rfl⟩

theorem attempt_eq (m : Module) (held : UpgradeSet) (requests : Requests) :
    (m.attempt held requests).1 = m.gate.wouldFire held ∧
      (m.attempt held requests).2.1 = m.attempted held := by
  obtain ⟨fired, gate⟩ := m.attempt_gate held { gate := m.gate, requests }
  exact ⟨fired, congrArg (fun gate => { m with gate }) gate⟩

/-- The upgrades that modules remove between them. -/
def removals (modules : List Module) : UpgradeSet :=
  modules.foldr (fun m removed => m.gate.removes ∪ removed) ∅

theorem mem_removals {modules : List Module} {place : Nat} :
    place ∈ removals modules ↔ ∃ m ∈ modules, place ∈ m.gate.removes := by
  induction modules with
  | nil => simp [removals]
  | cons m modules ih =>
      simp only [removals, List.foldr_cons, UpgradeSet.mem_union, List.mem_cons,
        exists_eq_or_imp]
      exact or_congr_right ih

end Module

/-- The requests when modules that fire have added theirs in order. -/
def Requests.join (r : Requests) (fired : List Module) : Requests where
  removals := r.removals ∪ Module.removals fired
  statuses := r.statuses ++ fired.flatMap (·.status.toList)
  cues := r.cues ++ fired.flatMap (·.cue.toList)

@[simp] theorem Requests.join_nil (r : Requests) : r.join [] = r := by
  simp [join, Module.removals]

theorem Requests.join_cons (r : Requests) (m : Module) (fired : List Module) :
    r.join (m :: fired) = (r.join [m]).join fired := by
  have removals : r.removals ∪ Module.removals (m :: fired) =
      r.removals ∪ Module.removals [m] ∪ Module.removals fired := by
    ext place
    simp [Module.removals, or_assoc]
  simp only [join, removals, List.flatMap_cons, List.flatMap_nil, List.append_nil,
    List.append_assoc]

/-- A module that fires asks for its cue, its removals and its status. -/
theorem Module.requests_attempt (m : Module) (held : UpgradeSet) (requests : Requests) :
    (m.attempt held requests).2.2 =
      if m.gate.wouldFire held then requests.join [m] else requests := by
  have asked (f : Firing) : (m.behaviour.effect f).requests =
      { f.requests with statuses := f.requests.statuses ++ m.status.toList } := by
    simp only [behaviour]
    split
    · next status granted => simp [granted, Requests.grant]
    · next granted => simp [granted]
  have cued : m.behaviour.cue requests =
      { requests with cues := requests.cues ++ m.cue.toList } := by
    simp only [behaviour]
    split
    · next cue played => simp [played, Requests.play]
    · next silent => simp [silent]
  unfold attempt
  cases fires : m.gate.wouldFire held with
  | true =>
      rw [Firing.attempt_of_wouldFire m.behaviour fires]
      simp [asked, cued, Firing.requests_entered, Requests.remove, Requests.join, removals]
  | false =>
      rw [Firing.attempt_of_still m.behaviour fires]
      simp

/-! ## Resets -/

/-- A reset leaves a gate as it is, apart from whether it has been executed. -/
theorem Gate.gate_reset (g : Gate) (lost : UpgradeSet) :
    (g.reset lost).2 = { g with executed := g.executed && !lost.meets g.triggers } := by
  unfold reset
  split
  · next undone =>
      obtain ⟨-, shared⟩ := Bool.and_eq_true_iff.mp undone
      simp [shared]
  · next kept =>
      have same : (g.executed && !lost.meets g.triggers) = g.executed := by
        cases executed : g.executed
        · rfl
        · simpa [executed] using kept
      rw [same]

theorem Gate.reset_empty (g : Gate) : (g.reset ∅).2 = g := by
  simp [gate_reset]

/--
A module after a pass with the held upgrades that stripped some of them: it is
executed if it was or fired, unless a trigger of it has been stripped.
-/
def Module.passed (m : Module) (held stripped : UpgradeSet) : Module :=
  { m with gate := { m.gate with
      executed := (m.gate.executed || m.gate.wouldFire held) && !stripped.meets m.gate.triggers } }

namespace Module

/-- A pass is an attempt and a reset. -/
theorem reset_attempted (m : Module) (held stripped : UpgradeSet) :
    ((m.attempted held).reset stripped).2 = m.passed held stripped :=
  congrArg (fun gate => { m with gate }) (Gate.gate_reset (m.gate.attempted held) stripped)

/-- What a pass that strips nothing does is an attempt. -/
theorem passed_empty (m : Module) (held : UpgradeSet) : m.passed held ∅ = m.attempted held := by
  simp [passed, attempted, Gate.attempted]

end Module

/-! ## Passes -/

namespace Bearer

/-- Every module is attempted with the same upgrades, whatever the others ask for. -/
theorem modules_attemptAll (held : UpgradeSet) (modules : List Module) (requests : Requests) :
    (attemptAll held modules requests).1 = modules.map (·.attempted held) := by
  induction modules generalizing requests with
  | nil => rfl
  | cons m modules ih =>
      obtain ⟨-, attempted⟩ := m.attempt_eq held requests
      simp only [attemptAll, List.map_cons, attempted, ih]

/-- The modules that fire are named in order. -/
theorem names_attemptAll (held : UpgradeSet) (modules : List Module) (requests : Requests) :
    (attemptAll held modules requests).2.1 =
      (modules.filter (·.gate.wouldFire held)).map (·.name) := by
  induction modules generalizing requests with
  | nil => rfl
  | cons m modules ih =>
      obtain ⟨fired, attempted⟩ := m.attempt_eq held requests
      simp only [attemptAll, ih, fired, attempted, List.filter_cons]
      split <;> rfl

/-- What the modules that fire ask for. -/
theorem requests_attemptAll (held : UpgradeSet) (modules : List Module) (requests : Requests) :
    (attemptAll held modules requests).2.2 =
      requests.join (modules.filter (·.gate.wouldFire held)) := by
  induction modules generalizing requests with
  | nil => exact requests.join_nil.symm
  | cons m modules ih =>
      simp only [attemptAll, ih, m.requests_attempt held requests, List.filter_cons]
      split
      · exact (requests.join_cons m _).symm
      · rfl

/-- The modules that fire in a pass, in order. -/
def firing (b : Bearer) (player : UpgradeSet) : List Module :=
  b.modules.filter (·.gate.wouldFire (player ∪ b.upgrades))

/-- The upgrades of the object that the modules which fire in a pass remove. -/
def stripped (b : Bearer) (player : UpgradeSet) : UpgradeSet :=
  b.upgrades ∩ Module.removals (b.firing player)

theorem mem_stripped {b : Bearer} {player : UpgradeSet} {place : Nat} :
    place ∈ b.stripped player ↔
      place ∈ b.upgrades ∧ ∃ m ∈ b.firing player, place ∈ m.gate.removes := by
  rw [stripped, UpgradeSet.mem_inter, Module.mem_removals]

/-- Removals that do not concern the object need no case of their own. -/
theorem apply_eq (b : Bearer) (requests : Requests) :
    b.apply requests =
      { b with
        upgrades := b.upgrades \ (b.upgrades ∩ requests.removals)
        modules := b.modules.map fun m => (m.reset (b.upgrades ∩ requests.removals)).2
        statuses := b.statuses.insertAll (requests.statuses.map fun status => (status, ()))
        cues := b.cues ++ requests.cues } := by
  unfold apply
  dsimp only
  split
  · simp [removeUpgrades, resetModules]
  · next none =>
      rw [Bool.not_eq_true, UpgradeSet.nonempty_eq_false_iff] at none
      have unreset (m : Module) : (m.reset ∅).2 = m :=
        congrArg (fun gate => { m with gate }) m.gate.reset_empty
      simp [none, unreset]

/-- A pass, field by field. -/
theorem update_eq (b : Bearer) (player : UpgradeSet) :
    (b.update player).2 =
      { b with
        upgrades := b.upgrades \ b.stripped player
        modules := b.modules.map (·.passed (player ∪ b.upgrades) (b.stripped player))
        statuses := b.statuses.insertAll
          (((b.firing player).flatMap (·.status.toList)).map fun status => (status, ()))
        cues := b.cues ++ (b.firing player).flatMap (·.cue.toList) } := by
  have modules := modules_attemptAll (player ∪ b.upgrades) b.modules {}
  have requests : (attemptAll (player ∪ b.upgrades) b.modules {}).2.2 =
      Requests.join {} (b.firing player) :=
    requests_attemptAll _ _ _
  have lost : b.upgrades ∩ (Requests.join {} (b.firing player)).removals =
      b.stripped player := by
    ext place
    simp [stripped, Requests.join]
  have passed : (b.update player).2 =
      apply { b with modules := (attemptAll (player ∪ b.upgrades) b.modules {}).1 }
        (attemptAll (player ∪ b.upgrades) b.modules {}).2.2 := rfl
  rw [passed, requests, modules, apply_eq, lost]
  simp only [Requests.join, List.nil_append, List.map_map, Function.comp_def,
    Module.reset_attempted]

/-- An object without upgrades of its own is evaluated with those of its player. -/
theorem update_of_empty {b : Bearer} (unarmed : b.upgrades = ∅) (player : UpgradeSet) :
    (b.update player).2.upgrades = ∅ ∧
      (b.update player).2.modules = b.modules.map (·.attempted player) := by
  have kept : b.stripped player = ∅ := by
    simp [stripped, unarmed]
  rw [update_eq, kept, unarmed, UpgradeSet.union_empty]
  simp [Module.passed_empty]

/-- An evaluation names the modules that fire. -/
theorem names_update (b : Bearer) (player : UpgradeSet) :
    (b.update player).1 =
      (b.modules.filter (·.gate.wouldFire (player ∪ b.upgrades))).map (·.name) := by
  unfold update
  exact names_attemptAll _ _ _

/-- An evaluation adds the statuses of the modules that fire, and takes none away. -/
theorem contains_statuses_update (b : Bearer) (player : UpgradeSet) (status : String) :
    (b.update player).2.statuses.contains status = true ↔
      b.statuses.contains status = true ∨
        ∃ m ∈ b.modules, m.gate.wouldFire (player ∪ b.upgrades) = true ∧
          m.status = some status := by
  rw [update_eq, OrderedMap.contains_insertAll]
  simp [firing, and_assoc]

theorem modules_resetModules (b : Bearer) (lost : UpgradeSet) :
    (b.resetModules lost).2.modules = b.modules.map fun m => (m.reset lost).2 := by
  simp [resetModules]

/-- The modules that are reset are named in order. -/
theorem names_resetModules (b : Bearer) (lost : UpgradeSet) :
    (b.resetModules lost).1 =
      (b.modules.filter fun m => (m.gate.reset lost).1).map (·.name) := by
  unfold resetModules
  dsimp only
  rw [List.filter_map, List.map_map]
  rfl

end Bearer

/-! ## Justified gates -/

/-- A gate that has fired rightly: the held upgrades meet its triggers, which it has. -/
structure Gate.Justified (g : Gate) (held : UpgradeSet) : Prop where
  nonempty : ∃ place, place ∈ g.triggers
  all : g.needsAll = true → ∀ place ∈ g.triggers, place ∈ held
  any : g.needsAll = false → ∃ place ∈ g.triggers, place ∈ held

/-- Every module that has fired is justified. -/
def Bearer.Justified (b : Bearer) (held : UpgradeSet) : Prop :=
  ∀ m ∈ b.modules, m.gate.executed = true → m.gate.Justified held

namespace Gate

variable {g : Gate} {held : UpgradeSet}

theorem justified_of_wouldFire (fires : g.wouldFire held = true) : g.Justified held := by
  obtain ⟨-, -, nonempty, -, -, triggered⟩ := wouldFire_eq_true.mp fires
  refine ⟨UpgradeSet.nonempty_iff.mp nonempty, fun needsAll => ?_, fun needsAny => ?_⟩
  · rw [Gate.triggered, if_pos needsAll] at triggered
    exact UpgradeSet.covers_iff.mp triggered
  · rw [Gate.triggered, needsAny] at triggered
    obtain ⟨place, holds, triggers⟩ := UpgradeSet.meets_iff.mp triggered
    exact ⟨place, triggers, holds⟩

/-- Holding more justifies no less. -/
theorem Justified.mono (justified : g.Justified held) {more : UpgradeSet}
    (kept : ∀ place ∈ held, place ∈ more) : g.Justified more := by
  refine ⟨justified.nonempty, fun needsAll place triggers => ?_, fun needsAny => ?_⟩
  · exact kept place (justified.all needsAll place triggers)
  · obtain ⟨place, triggers, holds⟩ := justified.any needsAny
    exact ⟨place, triggers, kept place holds⟩

/-- Losing what is no trigger makes no difference. -/
theorem Justified.lose (justified : g.Justified held) {lost : UpgradeSet}
    (apart : lost.meets g.triggers = false) : g.Justified (held \ lost) := by
  have spared := UpgradeSet.meets_eq_false_iff.mp apart
  refine ⟨justified.nonempty, fun needsAll place triggers => ?_, fun needsAny => ?_⟩
  · exact UpgradeSet.mem_sdiff.mpr
      ⟨justified.all needsAll place triggers, spared place triggers⟩
  · obtain ⟨place, triggers, holds⟩ := justified.any needsAny
    exact ⟨place, triggers, UpgradeSet.mem_sdiff.mpr ⟨holds, spared place triggers⟩⟩

/-- A gate that is executed after a loss was so before, and has lost no trigger. -/
theorem executed_of_reset {lost : UpgradeSet} (executed : (g.reset lost).2.executed = true) :
    g.executed = true ∧ lost.meets g.triggers = false ∧ (g.reset lost).2 = g := by
  rw [gate_reset] at executed ⊢
  obtain ⟨before, apart⟩ := Bool.and_eq_true_iff.mp executed
  rw [Bool.not_eq_true'] at apart
  refine ⟨before, apart, ?_⟩
  rw [apart, Bool.not_false, Bool.and_true]

end Gate

namespace Bearer.Justified

variable {b : Bearer} {held : UpgradeSet}

theorem mono (justified : b.Justified held) {more : UpgradeSet}
    (kept : ∀ place ∈ held, place ∈ more) : b.Justified more :=
  fun m mem executed => (justified m mem executed).mono kept

/-- A module that fires is justified by the upgrades with which it does. -/
theorem update (justified : b.Justified held) (unarmed : b.upgrades = ∅) :
    (b.update held).2.Justified held := by
  intro m mem executed
  rw [(update_of_empty unarmed held).2] at mem
  obtain ⟨earlier, among, rfl⟩ := List.mem_map.mp mem
  rcases Bool.or_eq_true_iff.mp executed with before | fires
  · obtain ⟨nonempty, all, any⟩ := justified earlier among before
    exact ⟨nonempty, all, any⟩
  · obtain ⟨nonempty, all, any⟩ := Gate.justified_of_wouldFire fires
    exact ⟨nonempty, all, any⟩

/-- The modules that depend on what is lost are reset. -/
theorem resetModules (justified : b.Justified held) (lost : UpgradeSet) :
    (b.resetModules lost).2.Justified (held \ lost) := by
  intro m mem executed
  rw [modules_resetModules] at mem
  obtain ⟨earlier, among, rfl⟩ := List.mem_map.mp mem
  obtain ⟨before, apart, same⟩ := Gate.executed_of_reset executed
  change ((earlier.gate.reset lost).2).Justified (held \ lost)
  rw [same]
  exact (justified earlier among before).lose apart

end Bearer.Justified

end BattleRoster
