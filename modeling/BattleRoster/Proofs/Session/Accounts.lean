import BattleRoster.Proofs.Session.History
import BattleRoster.Proofs.Session.Replies
import Mathlib.Data.List.Infix

/-!
# Reports account for modules

A response reports a module that has fired, or one that has been reset.  As long
as no saved game is restored, the reports of a turn are the differences between
the modules before it and those after it, in order, so the reports of a history
add up to the modules that have been executed.
-/

namespace BattleRoster

/-! ## Fittings -/

/-- A module together with the name of its object. -/
structure Fitting where
  object : String
  module : Module

def Bearer.fittings (b : Bearer) : List Fitting :=
  b.modules.map fun module => { object := b.name, module }

/-- The modules of all objects: the objects as they were created, each with its modules in order. -/
def Game.fittings (g : Game) : List Fitting :=
  g.objects.flatMap Bearer.fittings

def Fitting.label (f : Fitting) : String × String :=
  (f.object, f.module.name)

/-- The number of executed modules of one name in the objects of one name. -/
def Fitting.executedCount (object module : String) (fittings : List Fitting) : Nat :=
  fittings.countP fun f => f.label = (object, module) ∧ f.module.gate.executed

theorem Bearer.label_fittings (b : Bearer) :
    b.fittings.map Fitting.label = b.frame.fittings.map Fitting.label := by
  simp [fittings, frame, Fitting.label, Module.unfired]

theorem Bearer.length_fittings {b b' : Bearer} (same : b'.frame = b.frame) :
    b'.fittings.length = b.fittings.length := by
  have labels := congrArg (fun b => (b.fittings.map Fitting.label).length) same
  simpa only [← label_fittings, List.length_map] using labels

theorem Game.label_fittings (g : Game) : g.fittings.map Fitting.label =
    (g.objects.map Bearer.frame).flatMap fun b => b.fittings.map Fitting.label := by
  rw [fittings, List.map_flatMap, List.flatMap_map]
  exact List.flatMap_congr fun b _ => b.label_fittings

theorem Game.fittings_begun (files : Files) (g : Game) :
    (g.step files .newGame).2.fittings = [] := by
  rw [fittings, objects_begun, List.flatMap_nil]

/-- The modules of a game are the first ones of a game that goes on from it. -/
theorem Game.GoesOnFrom.labels {g earlier : Game} (goesOn : g.GoesOnFrom earlier) :
    earlier.fittings.map Fitting.label <+: g.fittings.map Fitting.label := by
  rw [earlier.label_fittings, g.label_fittings]
  exact List.IsPrefix.flatMap goesOn _

/-! ## Reports -/

def Response.isReport : Response → Bool
  | .activated .. | .undone .. => true
  | _ => false

namespace Fitting

/-- The report on a module, given whether it had been executed before. -/
def report (before : Bool) (f : Fitting) : List Response :=
  match before, f.module.gate.executed with
  | false, true => [.activated f.object f.module.name]
  | true, false => [.undone f.object f.module.name]
  | _, _ => []

/-- The reports on modules, given those before; one that was not there had not been executed. -/
def reports : List Fitting → List Fitting → List Response
  | earlier :: before, f :: after => f.report earlier.module.gate.executed ++ reports before after
  | _, after => after.flatMap (report false)

theorem report_same (f : Fitting) : f.report f.module.gate.executed = [] := by
  unfold report
  cases f.module.gate.executed <;> rfl

/-- Nothing is reported of modules that stay as they were. -/
theorem reports_self (fittings : List Fitting) : reports fittings fittings = [] := by
  induction fittings with
  | nil => rfl
  | cons f fittings ih =>
      rw [reports, f.report_same, ih]
      rfl

theorem reports_append {before after : List Fitting} (length : before.length = after.length)
    (before' after' : List Fitting) :
    reports (before ++ before') (after ++ after') =
      reports before after ++ reports before' after' := by
  induction before generalizing after with
  | nil =>
      obtain rfl := List.length_eq_zero_iff.mp length.symm
      rfl
  | cons earlier before ih =>
      cases after with
      | nil => cases length
      | cons f after =>
          simp only [List.cons_append, reports, ih (Nat.succ.inj length), List.append_assoc]

/-- Modules that are added are reported as new ones. -/
theorem reports_added (before added : List Fitting) :
    reports before (before ++ added) = reports [] added := by
  have parts := reports_append (rfl : before.length = before.length) [] added
  rwa [List.append_nil, reports_self, List.nil_append] at parts

/-- Modules that had not been executed are reported like new ones. -/
theorem reports_unfired {before after : List Fitting} (length : before.length = after.length)
    (unfired : ∀ f ∈ before, f.module.gate.executed = false) :
    reports before after = reports [] after := by
  induction before generalizing after with
  | nil => rfl
  | cons earlier before ih =>
      cases after with
      | nil => cases length
      | cons f after =>
          rw [List.forall_mem_cons] at unfired
          rw [reports, unfired.1, ih (Nat.succ.inj length) unfired.2]
          rfl

theorem of_mem_reports {before after : List Fitting} {r : Response}
    (mem : r ∈ reports before after) :
    ∃ f ∈ after, r = .activated f.object f.module.name ∨
      r = .undone f.object f.module.name := by
  have one {f : Fitting} {before : Bool} (mem : r ∈ f.report before) :
      r = .activated f.object f.module.name ∨ r = .undone f.object f.module.name := by
    unfold report at mem
    split at mem
    · exact .inl (List.mem_singleton.mp mem)
    · exact .inr (List.mem_singleton.mp mem)
    · cases mem
  induction after generalizing before with
  | nil => cases before <;> cases mem
  | cons f after ih =>
      cases before with
      | nil =>
          obtain ⟨f', among, reported⟩ := List.mem_flatMap.mp mem
          exact ⟨f', among, one reported⟩
      | cons earlier before =>
          rcases List.mem_append.mp mem with first | rest
          · exact ⟨f, by simp, one first⟩
          · obtain ⟨f', among, reported⟩ := ih rest
            exact ⟨f', by simp [among], reported⟩

/-- Each module of an object by itself. -/
theorem reports_map {object : String} {change : Module → Module} {changes : Module → Bool}
    {response : Module → Response}
    (each : ∀ m : Module, report m.gate.executed { object, module := change m } =
      if changes m then [response m] else [])
    (modules : List Module) :
    reports (modules.map fun module => { object, module })
        ((modules.map change).map fun module => { object, module }) =
      (modules.filter changes).map response := by
  induction modules with
  | nil => rfl
  | cons m modules ih =>
      rw [List.map_cons, List.map_cons, List.map_cons, reports, each, ih, List.filter_cons]
      split <;> rfl

/-! ## Counting -/

/-- A report makes up for the difference that a module makes to the count. -/
theorem count_report (f : Fitting) (before : Bool) (object module : String) :
    (f.report before).count (.activated object module) +
        (if f.label = (object, module) ∧ before then 1 else 0) =
      (f.report before).count (.undone object module) +
        (if f.label = (object, module) ∧ f.module.gate.executed then 1 else 0) := by
  cases before <;> cases executed : f.module.gate.executed <;>
    simp [report, executed, label, List.count_singleton]

/-- Reports make up for the difference between two counts. -/
theorem count_reports (object module : String) {before after : List Fitting}
    (goesOn : before.map label <+: after.map label) :
    (reports before after).count (.activated object module) +
        executedCount object module before =
      (reports before after).count (.undone object module) +
        executedCount object module after := by
  induction after generalizing before with
  | nil =>
      obtain rfl := List.map_eq_nil_iff.mp (List.prefix_nil.mp goesOn)
      rfl
  | cons f after ih =>
      cases before with
      | nil =>
          have first := f.count_report false object module
          have rest := @ih [] List.nil_prefix
          have reported : reports [] (f :: after) = f.report false ++ reports [] after := rfl
          simp only [reported, List.count_append, executedCount, List.countP_cons,
            List.countP_nil, decide_eq_true_eq, Bool.false_eq_true, and_false, if_false]
              at first rest ⊢
          omega
      | cons earlier before =>
          obtain ⟨same, goesOn⟩ := List.cons_prefix_cons.mp goesOn
          have first := f.count_report earlier.module.gate.executed object module
          have rest := ih goesOn
          simp only [reports, List.count_append, executedCount, List.countP_cons,
            decide_eq_true_eq, same] at first rest ⊢
          omega

end Fitting

/-! ## Objects -/

namespace Bearer

/-- An evaluation reports the modules that fire. -/
theorem reports_update {b : Bearer} (unarmed : b.upgrades = ∅) (held : UpgradeSet) :
    Fitting.reports b.fittings (b.update held).2.fittings =
      (b.update held).1.map (.activated (b.update held).2.name) := by
  have each (m : Module) :
      Fitting.report m.gate.executed { object := b.name, module := m.attempted held } =
        if m.gate.wouldFire held then [.activated b.name m.name] else [] := by
    cases fires : m.gate.wouldFire held with
    | false =>
        have same : (m.attempted held).gate.executed = m.gate.executed := by
          simp [Module.attempted, Gate.attempted, fires]
        exact same ▸ Fitting.report_same { object := b.name, module := m.attempted held }
    | true =>
        obtain ⟨unfired, -⟩ := Gate.idle_of_wouldFire fires
        simp [Fitting.report, Module.attempted, Gate.attempted, unfired, fires]
  rw [fittings, fittings, b.name_update, (update_of_empty unarmed held).2,
    Fitting.reports_map each, b.names_update, unarmed, UpgradeSet.union_empty, List.map_map]
  rfl

theorem reports_resetModules (b : Bearer) (lost : UpgradeSet) :
    Fitting.reports b.fittings (b.resetModules lost).2.fittings =
      (b.resetModules lost).1.map (.undone (b.resetModules lost).2.name) := by
  have each (m : Module) :
      Fitting.report m.gate.executed { object := b.name, module := (m.reset lost).2 } =
        if (m.gate.reset lost).1 then [.undone b.name m.name] else [] := by
    unfold Module.reset Gate.reset
    by_cases undone : (m.gate.executed && lost.meets m.gate.triggers) = true
    · rw [if_pos undone, if_pos rfl, (Bool.and_eq_true_iff.mp undone).1]
      rfl
    · rw [if_neg undone]
      exact Fitting.report_same { object := b.name, module := m }
  have name : (b.resetModules lost).2.name = b.name := rfl
  rw [fittings, fittings, name, b.modules_resetModules, Fitting.reports_map each,
    b.names_resetModules, List.map_map]
  rfl

end Bearer

/-! ## Turns -/

/-- A passive command has nothing to report. -/
theorem Response.not_report_of_passive {c : Command} (passive : c.isPassive = true) {r : Response}
    (belongs : r.answers c = true) : r.isReport = false := by
  cases r with
  | activated | undone =>
      cases c with
      | spawn | grant | revoke => cases passive
      | _ => cases belongs
  | _ => rfl

namespace Game

/-- Objects that are changed within their frames report one after the other. -/
theorem reports_changed {change : Bearer → Bearer} {bearers : List Bearer}
    (frames : ∀ b ∈ bearers, (change b).frame = b.frame) :
    Fitting.reports (bearers.flatMap Bearer.fittings)
        ((bearers.map change).flatMap Bearer.fittings) =
      bearers.flatMap fun b => Fitting.reports b.fittings (change b).fittings := by
  induction bearers with
  | nil => rfl
  | cons b bearers ih =>
      rw [List.forall_mem_cons] at frames
      rw [List.map_cons, List.flatMap_cons, List.flatMap_cons, List.flatMap_cons,
        Fitting.reports_append (Bearer.length_fittings frames.1).symm, ih frames.2]

/-- The objects of one owner are changed and report, and the others stay as they were. -/
theorem reports_owned {change : Bearer → List String × Bearer}
    {response : String → String → Response} {bearers : List Bearer} (owner : Slot)
    (frames : ∀ b, (change b).2.frame = b.frame)
    (each : ∀ b ∈ bearers, Fitting.reports b.fittings (change b).2.fittings =
      (change b).1.map (response (change b).2.name)) :
    Fitting.reports (bearers.flatMap Bearer.fittings)
        ((bearers.map fun b => if b.owner = owner then (change b).2 else b).flatMap
          Bearer.fittings) =
      (bearers.flatMap fun b =>
        if b.owner = owner then (change b).1.map ((change b).2.name, ·) else []).map
          fun (object, module) => response object module := by
  rw [reports_changed]
  · rw [List.map_flatMap]
    refine List.flatMap_congr fun b mem => ?_
    dsimp only
    split
    · rw [each b mem, List.map_map]
      rfl
    · exact Fitting.reports_self _
  · intro b _
    split
    · exact frames b
    · rfl

/-- A new object reports the modules that fire at once. -/
theorem reports_spawned (bearers : List Bearer) {object : String} {slot : Slot}
    {modules : List Module}
    (fresh : ∀ m ∈ modules, m.gate.executed = false ∧ m.gate.upgrading = false)
    (held : UpgradeSet) :
    Fitting.reports (bearers.flatMap Bearer.fittings)
        ((bearers ++ [(Bearer.update { name := object, owner := slot, modules } held).2]).flatMap
          Bearer.fittings) =
      (Bearer.update { name := object, owner := slot, modules } held).1.map
        (.activated object) := by
  let built : Bearer := { name := object, owner := slot, modules }
  have unfired : ∀ f ∈ built.fittings, f.module.gate.executed = false := by
    intro f mem
    obtain ⟨m, among, rfl⟩ := List.mem_map.mp mem
    exact (fresh m among).1
  have length := Bearer.length_fittings (built.frame_update held)
  rw [List.flatMap_append, List.flatMap_singleton, Fitting.reports_added,
    ← Fitting.reports_unfired length.symm unfired, Bearer.reports_update rfl, built.name_update]

/-- The reports of a reply that ends with another response. -/
theorem filter_reports {α : Type} {response : α → Response}
    (report : ∀ a, (response a).isReport = true) {last : Response} (other : last.isReport = false)
    (items : List α) :
    (items.map response ++ [last]).filter Response.isReport = items.map response := by
  rw [List.filter_append, List.filter_eq_self.mpr, List.filter_cons_of_neg (by simp [other]),
    List.filter_nil, List.append_nil]
  intro r mem
  obtain ⟨a, -, rfl⟩ := List.mem_map.mp mem
  exact report a

/-- What is reported of modules in a turn are the differences that it makes to them. -/
theorem reports_turn (turn : Turn) (unarmed : turn.game.Unarmed)
    (goesOn : turn.command ≠ .newGame) (unrestored : turn.command.isRestore = false) :
    turn.written.filter Response.isReport =
      Fitting.reports turn.game.fittings turn.next.fittings := by
  obtain ⟨g, files, c⟩ := turn
  have unchanged {c : Command} (passive : c.isPassive = true) :
      (g.step files c).1.written.filter Response.isReport =
        Fitting.reports g.fittings (g.step files c).2.fittings := by
    have same : (g.step files c).2.fittings = g.fittings := by
      rw [fittings, (state_step files g passive).2, fittings]
    rw [same, Fitting.reports_self, List.filter_eq_nil_iff]
    intro r mem
    rw [Response.not_report_of_passive passive (answers_step files g c r mem)]
    exact Bool.false_ne_true
  cases c with
  | newGame => exact absurd rfl goesOn
  | restore text => cases unrestored
  | spawn owner object names =>
      change (answer (fun fired => fired.map (.activated object) ++ [.spawned object])
          (g.spawn owner object names).1).written.filter Response.isReport =
        Fitting.reports g.fittings (g.spawn owner object names).2.fittings
      rcases spawn_cases g owner object names with
        ⟨e, registry, refused⟩ | ⟨slot, modules, registry, -, -, fresh, spawned⟩
      · rw [refused]
        exact (Fitting.reports_self g.fittings).symm
      · rw [spawned]
        refine (filter_reports (fun _ => rfl) rfl _).trans ?_
        exact (reports_spawned g.objects fresh _).symm
  | grant player upgrade =>
      change (answer (fun fired =>
          fired.map (fun (object, module) => .activated object module) ++ [.granted])
          (g.grant player upgrade).1).written.filter Response.isReport =
        Fitting.reports g.fittings (g.grant player upgrade).2.fittings
      rcases grant_cases g player upgrade with
        ⟨e, refused⟩ | ⟨slot, set, registry, -, -, granted⟩
      · rw [refused]
        exact (Fitting.reports_self g.fittings).symm
      · rw [granted]
        exact (filter_reports (fun _ => rfl) rfl _).trans
          (reports_owned slot (fun b => b.frame_update _)
            fun b mem => Bearer.reports_update (unarmed b mem) _).symm
  | revoke player upgrade =>
      change (answer (fun lost =>
          lost.map (fun (object, module) => .undone object module) ++ [.revoked])
          (g.revoke player upgrade).1).written.filter Response.isReport =
        Fitting.reports g.fittings (g.revoke player upgrade).2.fittings
      rcases revoke_cases g player upgrade with
        ⟨e, refused⟩ | ⟨slot, set, -, -, revoked⟩
      · rw [refused]
        exact (Fitting.reports_self g.fittings).symm
      · rw [revoked]
        exact (filter_reports (fun _ => rfl) rfl _).trans
          (reports_owned slot (fun b => b.frame_resetModules set)
            fun b _ => b.reports_resetModules set).symm
  | _ => exact unchanged rfl

/-- A turn makes up for the difference between two counts. -/
theorem count_turn (turn : Turn) (reachable : turn.game.Reachable)
    (goesOn : turn.command ≠ .newGame) (unrestored : turn.command.isRestore = false)
    (object module : String) :
    turn.written.count (.activated object module) +
        Fitting.executedCount object module turn.game.fittings =
      turn.written.count (.undone object module) +
        Fitting.executedCount object module turn.next.fittings := by
  have later : turn.next.GoesOnFrom turn.game := goesOn_step reachable.sound turn.files goesOn
  have counted := Fitting.count_reports object module later.labels
  rw [← reports_turn turn reachable.unarmed goesOn unrestored] at counted
  rwa [List.count_filter rfl, List.count_filter rfl] at counted

/-! ## Histories -/

variable {g : Game} {turns : List Turn}

/-- The reports since a game was begun add up to the modules that have been executed. -/
theorem Follows.count_reports (follows : g.Follows turns)
    (unrestored : ∀ turn ∈ turns, turn.command.isRestore = false) (object module : String) :
    (turns.flatMap Turn.written).count (.activated object module) =
      (turns.flatMap Turn.written).count (.undone object module) +
        Fitting.executedCount object module g.fittings := by
  induction follows with
  | start options => rfl
  | begun files earlier ih =>
      rw [fittings_begun]
      rfl
  | @turn g turns files c earlier goesOn ih =>
      rw [List.forall_mem_append, List.forall_mem_singleton] at unrestored
      have before := ih unrestored.1
      have last := count_turn ⟨g, files, c⟩ earlier.reachable goesOn unrestored.2 object module
      change _ + Fitting.executedCount object module g.fittings =
        _ + Fitting.executedCount object module (g.step files c).2.fittings at last
      rw [List.flatMap_append, List.flatMap_singleton, List.count_append, List.count_append]
      omega

end Game

end BattleRoster
