import BattleRoster.Proofs.Upgrade.Evaluation
import BattleRoster.Upgrade.SelfCall

/-!
# One-shot effects

An effect may call the gate that is firing it, and such a call could in turn run
the effect.  While a gate is firing it has not been executed, so it refuses to
fire, has nothing to undo and nothing to refresh: no nested call enters the effect
again or changes anything.  From outside, a gate that has fired stays executed
until it is reset or restored, so in between the effect runs once.
-/

namespace BattleRoster

/-! ## Calls on a gate that is firing -/

/-- A gate whose effect is running. -/
structure Gate.Entered (g : Gate) : Prop where
  unfired : g.executed = false
  upgrading : g.upgrading = true

/-- What a gate answers while it is firing: it tests its conditions and denies all else. -/
def SelfCall.denial (g : Gate) : SelfCall → Bool
  | .qualifies held => g.qualifies held
  | _ => false

/-- A call on a gate that is firing changes nothing, whatever the effect would do. -/
theorem SelfCall.run_entered (b : Firing.Behaviour) {f : Firing} (entered : f.gate.Entered)
    (call : SelfCall) : call.run b f = (call.denial f.gate, f) := by
  obtain ⟨unfired, upgrading⟩ := entered
  have still (held : UpgradeSet) : f.gate.wouldFire held = false := by
    simp [Gate.wouldFire, upgrading]
  cases call with
  | would held => simp [run, denial, still]
  | qualifies held => rfl
  | attempt held => simp [run, denial, Firing.attempt, still]
  | give => simp [run, denial, Firing.give, Gate.begin?, upgrading]
  | reset lost => simp [run, denial, Firing.reset, Gate.reset, unfired]
  | refresh => simp [run, denial, Firing.refresh, unfired]

namespace Firing

/-! ## Effects that call their own gate -/

/--
What an effect does: it looks at the gate and the requests, writes requests, and
makes calls on the gate, going on by the answers.
-/
inductive Plan where
  | done
  | look (rest : Firing → Plan)
  | write (requests : Requests) (rest : Plan)
  | ask (call : SelfCall) (rest : Bool → Plan)

/-- A call that was made during an effect. -/
structure Nested where
  call : SelfCall
  before : Firing
  answer : Bool
  after : Firing

/-- Carry out a plan, with the calls that were made; any of them may run the effect again. -/
def Plan.run (b : Behaviour) : Plan → Firing → List Nested × Firing
  | .done, f => ([], f)
  | .look rest, f => (rest f).run b f
  | .write requests rest, f => rest.run b { f with requests }
  | .ask call rest, f =>
      let (answer, after) := call.run b f
      let (calls, last) := (rest answer).run b after
      ({ call, before := f, answer, after } :: calls, last)

/--
A behaviour whose effect, when it is entered, carries out a plan.  The calls of the
plan are calls on a gate with this same behaviour.
-/
def Behaviour.Performs (b : Behaviour) (plan : Plan) : Prop :=
  ∀ f : Firing, f.gate.Entered → b.effect f = (plan.run b f).2

/-- A nested call as a firing gate takes it: denied unless it is a test, and without consequence. -/
structure Nested.Denied (n : Nested) (g : Gate) : Prop where
  seen : n.before.gate = g
  answer : n.answer = n.call.denial g
  unchanged : n.after = n.before

/-- The calls of a plan are denied, and it makes no difference what the effect would do again. -/
theorem Plan.run_entered (b : Behaviour) (plan : Plan) {f : Firing} (entered : f.gate.Entered) :
    (∀ other, plan.run other f = plan.run b f) ∧ (plan.run b f).2.gate = f.gate ∧
      ∀ n ∈ (plan.run b f).1, n.Denied f.gate := by
  induction plan generalizing f with
  | done => exact ⟨fun _ => rfl, rfl, fun _ none => nomatch none⟩
  | look rest ih => exact ih f entered
  | write requests rest ih => exact ih entered
  | ask call rest ih =>
      obtain ⟨same, gate, denied⟩ := ih (call.denial f.gate) entered
      simp only [run, call.run_entered _ entered]
      refine ⟨fun other => ?_, gate, ?_⟩
      · rw [same other]
      · rw [List.forall_mem_cons]
        exact ⟨⟨rfl, rfl, rfl⟩, denied⟩

/-- A behaviour for a plan: no effect is there to be run again, and none is needed. -/
def Plan.behaviour (plan : Plan) : Behaviour where
  effect f := (plan.run { effect := id } f).2

theorem Plan.performs_behaviour (plan : Plan) : plan.behaviour.Performs plan :=
  fun _ entered => congrArg Prod.snd ((plan.run_entered plan.behaviour entered).1 _)

/-! ## Firing -/

/-- A gate has fired: its effect carried out a plan once, and was not entered again. -/
structure Fired (b : Behaviour) (plan : Plan) (before after : Firing) : Prop where
  unfired : before.gate.executed = false
  entered : (before.entered b).gate.Entered
  gate : after.gate = { before.gate with executed := true }
  requests : after.requests = (plan.run b (before.entered b)).2.requests
  once : ∀ other, plan.run other (before.entered b) = plan.run b (before.entered b)
  nested : ∀ n ∈ (plan.run b (before.entered b)).1, n.Denied (before.entered b).gate

variable {b : Behaviour} {plan : Plan} {f : Firing}

theorem give_of_executed (b : Behaviour) (executed : f.gate.executed = true) :
    f.give b = (false, f) := by
  simp [give, Gate.begin?, executed]

theorem give_of_unfired (performs : b.Performs plan) (resting : f.gate.upgrading = false)
    (unfired : f.gate.executed = false) :
    (f.give b).1 = true ∧ Fired b plan f (f.give b).2 := by
  have entered : (f.entered b).gate.Entered := by
    rw [gate_entered]
    exact ⟨unfired, rfl⟩
  obtain ⟨once, left, nested⟩ := plan.run_entered b entered
  rw [give_of_idle b unfired resting, performs _ entered]
  refine ⟨rfl, unfired, entered, ?_, rfl, once, nested⟩
  rw [left, gate_entered, Gate.finish, ← resting]

/-! ## Use from outside -/

/--
A step from outside: any call but a refresh, or a saved state that is taken over.  A
refresh runs the effect of a gate that is executed and not firing, where the calls of
the effect may well fire it.
-/
inductive Use where
  | would (held : UpgradeSet)
  | qualifies (held : UpgradeSet)
  | attempt (held : UpgradeSet)
  | give
  | reset (lost : UpgradeSet)
  | restore (record : GateRecord)

/-- A step with its answer; a saved state answers whether it was accepted. -/
def Use.run (b : Behaviour) (f : Firing) : Use → Bool × Firing
  | .would held => (SelfCall.would held).run b f
  | .qualifies held => (SelfCall.qualifies held).run b f
  | .attempt held => (SelfCall.attempt held).run b f
  | .give => SelfCall.give.run b f
  | .reset lost => (SelfCall.reset lost).run b f
  | .restore record =>
      match f.gate.restore record with
      | .error _ => (false, f)
      | .ok gate => (true, { f with gate })

structure Event where
  use : Use
  before : Firing
  answer : Bool
  after : Firing

def Use.event (b : Behaviour) (f : Firing) (use : Use) : Event where
  use := use
  before := f
  answer := (use.run b f).1
  after := (use.run b f).2

/-- The steps that a gate is put through; each of them brings its own requests. -/
def log (b : Behaviour) : Gate → List (Use × Requests) → List Event
  | _, [] => []
  | gate, (use, requests) :: uses =>
      let e := use.event b { gate, requests }
      e :: log b e.after.gate uses

theorem log_cons (b : Behaviour) (gate : Gate) (use : Use) (requests : Requests)
    (uses : List (Use × Requests)) :
    log b gate ((use, requests) :: uses) =
      use.event b { gate, requests } ::
        log b (use.event b { gate, requests }).after.gate uses :=
  rfl

namespace Event

/-- An attempt or an unconditional call that fired the gate. -/
def Fires (e : Event) : Prop :=
  e.answer = true ∧ match e.use with
    | .attempt _ | .give => True
    | _ => False

/-- A reset that succeeded, or a saved state that was accepted and is not executed. -/
def Rearms (e : Event) : Prop :=
  e.answer = true ∧ match e.use with
    | .reset _ => True
    | .restore record => record.executed = false
    | _ => False

/-- What holds of every step on a gate that is resting. -/
structure Lawful (b : Behaviour) (plan : Plan) (e : Event) : Prop where
  resting : e.after.gate.upgrading = false
  would : ∀ held, e.before.gate.wouldFire held = true ↔
    e.before.gate.executed = false ∧ e.before.gate.triggers.nonempty = true ∧
      held.nonempty = true ∧ e.before.gate.qualifies held = true
  attempt : ∀ held, e.use = .attempt held → e.answer = e.before.gate.wouldFire held
  fired : e.Fires → Fired b plan e.before e.after
  kept : e.before.gate.executed = true → ¬ e.Rearms → e.after.gate.executed = true

end Event

/-- A gate that is resting fires exactly when it has not fired and the upgrades qualify. -/
theorem wouldFire_iff_qualifies {g : Gate} (resting : g.upgrading = false) (held : UpgradeSet) :
    g.wouldFire held = true ↔ g.executed = false ∧ g.triggers.nonempty = true ∧
      held.nonempty = true ∧ g.qualifies held = true := by
  rw [Gate.wouldFire_eq_true]
  constructor
  · rintro ⟨unfired, -, nonempty, holds, clear, triggered⟩
    exact ⟨unfired, nonempty, holds, by simp [Gate.qualifies, clear, triggered]⟩
  · rintro ⟨unfired, nonempty, holds, qualifies⟩
    obtain ⟨clear, triggered⟩ : held.meets g.conflicts = false ∧ g.triggered held = true := by
      simpa [Gate.qualifies, nonempty, holds] using qualifies
    exact ⟨unfired, resting, nonempty, holds, clear, triggered⟩

namespace Event

variable {e : Event}

theorem Lawful.of_unchanged (resting : e.before.gate.upgrading = false)
    (unchanged : e.after = e.before) (still : ¬ e.Fires)
    (attempt : ∀ held, e.use = .attempt held → e.answer = e.before.gate.wouldFire held) :
    e.Lawful b plan where
  resting := by rw [unchanged, resting]
  would := wouldFire_iff_qualifies resting
  attempt := attempt
  fired fires := absurd fires still
  kept executed _ := by rw [unchanged, executed]

theorem Lawful.of_fired (resting : e.before.gate.upgrading = false)
    (fired : Fired b plan e.before e.after)
    (attempt : ∀ held, e.use = .attempt held → e.answer = e.before.gate.wouldFire held) :
    e.Lawful b plan where
  resting := by rw [fired.gate, resting]
  would := wouldFire_iff_qualifies resting
  attempt := attempt
  fired _ := fired
  kept _ _ := by rw [fired.gate]

end Event

theorem lawful_give (performs : b.Performs plan) (resting : f.gate.upgrading = false) :
    (Use.give.event b f).Lawful b plan := by
  cases executed : f.gate.executed with
  | true =>
      have refused := give_of_executed b executed
      refine .of_unchanged resting (congrArg Prod.snd refused) ?_ nofun
      rintro ⟨answer, -⟩
      cases answer.symm.trans (congrArg Prod.fst refused)
  | false => exact .of_fired resting (give_of_unfired performs resting executed).2 nofun

theorem lawful_attempt (performs : b.Performs plan) (resting : f.gate.upgrading = false)
    (held : UpgradeSet) : ((Use.attempt held).event b f).Lawful b plan := by
  cases fires : f.gate.wouldFire held with
  | true =>
      obtain ⟨unfired, -⟩ := Gate.idle_of_wouldFire fires
      obtain ⟨answer, fired⟩ := give_of_unfired performs resting unfired
      have given : f.attempt b held = f.give b := if_pos fires
      rw [← given] at answer fired
      refine .of_fired resting fired ?_
      rintro _ ⟨⟩
      exact answer.trans fires.symm
  | false =>
      have refused := attempt_of_still b fires
      refine .of_unchanged resting (congrArg Prod.snd refused) ?_ ?_
      · rintro ⟨answer, -⟩
        cases answer.symm.trans (congrArg Prod.fst refused)
      · rintro _ ⟨⟩
        exact (congrArg Prod.fst refused).trans fires.symm

theorem lawful_reset (resting : f.gate.upgrading = false) (lost : UpgradeSet) :
    ((Use.reset lost).event b f).Lawful b plan := by
  cases undone : f.gate.executed && lost.meets f.gate.triggers with
  | true =>
      have rearmed : f.reset lost =
          (true, { f with gate := { f.gate with executed := false } }) := by
        simp [reset, Gate.reset, undone]
      refine ⟨(congrArg (·.2.gate.upgrading) rearmed).trans resting,
        wouldFire_iff_qualifies resting, nofun, nofun, fun _ unarmed => ?_⟩
      exact absurd ⟨congrArg Prod.fst rearmed, trivial⟩ unarmed
  | false =>
      have kept : f.reset lost = (false, f) := by
        simp [reset, Gate.reset, undone]
      exact .of_unchanged resting (congrArg Prod.snd kept) nofun nofun

theorem lawful_restore (resting : f.gate.upgrading = false) (record : GateRecord) :
    ((Use.restore record).event b f).Lawful b plan := by
  cases checked : record.check with
  | error e =>
      have refused : (Use.restore record).run b f = (false, f) := by
        simp [Use.run, Gate.restore, checked]
      exact .of_unchanged resting (congrArg Prod.snd refused) nofun nofun
  | ok =>
      have accepted : (Use.restore record).run b f = (true,
          { f with gate := { f.gate with executed := record.executed, upgrading := false } }) := by
        simp [Use.run, Gate.restore, checked]
      refine ⟨congrArg (·.2.gate.upgrading) accepted, wouldFire_iff_qualifies resting,
        nofun, nofun, fun _ unarmed => ?_⟩
      refine (congrArg (·.2.gate.executed) accepted).trans ?_
      cases recorded : record.executed with
      | true => rfl
      | false => exact absurd ⟨congrArg Prod.fst accepted, recorded⟩ unarmed

/-- Every step on a gate that is resting is lawful, and leaves it resting. -/
theorem lawful_event (performs : b.Performs plan) (resting : f.gate.upgrading = false)
    (use : Use) : (use.event b f).Lawful b plan := by
  cases use with
  | would held => exact .of_unchanged resting rfl nofun nofun
  | qualifies held => exact .of_unchanged resting rfl nofun nofun
  | attempt held => exact lawful_attempt performs resting held
  | give => exact lawful_give performs resting
  | reset lost => exact lawful_reset resting lost
  | restore record => exact lawful_restore resting record

/-! ## Runs -/

section Runs

variable (performs : b.Performs plan)
include performs

theorem lawful_of_mem_log {gate : Gate} (resting : gate.upgrading = false)
    (uses : List (Use × Requests)) : ∀ e ∈ log b gate uses, e.Lawful b plan := by
  induction uses generalizing gate with
  | nil => exact List.forall_mem_nil _
  | cons use uses ih =>
      obtain ⟨use, requests⟩ := use
      have lawful := lawful_event (f := { gate, requests }) performs resting use
      rw [log_cons, List.forall_mem_cons]
      exact ⟨lawful, ih lawful.resting⟩

/-- A gate that has been executed is made ready before it fires. -/
theorem rearms_of_fires {gate : Gate} (resting : gate.upgrading = false)
    (executed : gate.executed = true) {uses : List (Use × Requests)} {middle after : List Event}
    {e : Event} (run : log b gate uses = middle ++ e :: after) (fires : e.Fires) :
    ∃ e ∈ middle, e.Rearms := by
  induction uses generalizing gate middle with
  | nil => simp [log] at run
  | cons use uses ih =>
      obtain ⟨use, requests⟩ := use
      have lawful := lawful_event (f := { gate, requests }) performs resting use
      rw [log_cons] at run
      cases middle with
      | nil =>
          obtain ⟨rfl, -⟩ := List.cons.inj run
          cases (lawful.fired fires).unfired.symm.trans executed
      | cons first middle =>
          obtain ⟨rfl, rest⟩ := List.cons.inj run
          by_cases rearms : (use.event b { gate, requests }).Rearms
          · exact ⟨_, List.mem_cons_self, rearms⟩
          · obtain ⟨later, mem, rearms⟩ := ih lawful.resting (lawful.kept executed rearms) rest
            exact ⟨later, List.mem_cons_of_mem _ mem, rearms⟩

/-- A gate that has fired is made ready before it fires again. -/
theorem rearms_between {gate : Gate} (resting : gate.upgrading = false)
    {uses : List (Use × Requests)} {before middle after : List Event} {first second : Event}
    (run : log b gate uses = before ++ first :: middle ++ second :: after)
    (firstFires : first.Fires) (secondFires : second.Fires) : ∃ e ∈ middle, e.Rearms := by
  induction before generalizing gate uses with
  | nil =>
      cases uses with
      | nil => cases run
      | cons use uses =>
          obtain ⟨use, requests⟩ := use
          have lawful := lawful_event (f := { gate, requests }) performs resting use
          obtain ⟨rfl, rest⟩ :=
            List.cons.inj ((log_cons b gate use requests uses).symm.trans run)
          have executed := congrArg Gate.executed (lawful.fired firstFires).gate
          exact rearms_of_fires performs lawful.resting executed rest secondFires
  | cons earlier before ih =>
      cases uses with
      | nil => cases run
      | cons use uses =>
          obtain ⟨use, requests⟩ := use
          have lawful := lawful_event (f := { gate, requests }) performs resting use
          obtain ⟨-, rest⟩ := List.cons.inj ((log_cons b gate use requests uses).symm.trans run)
          exact ih lawful.resting rest

/--
A gate is resting after every step, an attempt fires exactly when the gate says that
it would, and the effect of a firing carries out its plan once, with nothing that a
nested call could change.  Between two firings the gate is reset, or restored to a
state in which it has not fired.
-/
theorem oneShot_log {gate : Gate} (resting : gate.upgrading = false)
    (uses : List (Use × Requests)) :
    (∀ e ∈ log b gate uses, e.Lawful b plan) ∧
      ∀ before first middle second after,
        log b gate uses = before ++ first :: middle ++ second :: after →
          first.Fires → second.Fires → ∃ e ∈ middle, e.Rearms := by
  refine ⟨lawful_of_mem_log performs resting uses, ?_⟩
  intro before first middle second after run
  exact rearms_between performs resting run

end Runs

/-- An effect that plays a cue, makes every call once, and grants a status if its gate qualifies. -/
def probe : Plan :=
  .look fun f => .write (f.requests.play "impl") <|
    .ask (.would ⟨0b01⟩) fun _ => .ask (.attempt ⟨0b01⟩) fun _ => .ask .give fun _ =>
    .ask (.reset ⟨0b01⟩) fun _ => .ask .refresh fun _ =>
    .ask (.qualifies ⟨0b01⟩) fun qualifies =>
    if qualifies then .look fun f => .write (f.requests.grant "Qualified") .done else .done

/-- A gate with one trigger that removes another upgrade. -/
def latch : Gate := { triggers := ⟨0b01⟩, removes := ⟨0b10⟩ }

/-- The gate fires, refuses, is reset, fires, is restored and fires again. -/
def trials : List (Use × Requests) :=
  [(.attempt ⟨0b01⟩, {}), (.attempt ⟨0b01⟩, {}), (.reset ⟨0b01⟩, {}), (.give, {}),
    (.restore ⟨1, false⟩, {}), (.attempt ⟨0b11⟩, {})]

theorem oneShot_log_trials :
    (log probe.behaviour latch trials).map (·.answer) = [true, false, true, true, true, true] ∧
      (log probe.behaviour latch trials).map (·.after.requests.cues) =
        [["impl"], [], [], ["impl"], [], ["impl"]] ∧
      (∀ e ∈ log probe.behaviour latch trials, e.Lawful probe.behaviour probe) ∧
      ∃ first refused middle second after,
        log probe.behaviour latch trials = first :: refused :: middle :: second :: after ∧
          first.Fires ∧ second.Fires ∧ ∃ e ∈ [refused, middle], e.Rearms := by
  obtain ⟨lawful, between⟩ :=
    oneShot_log probe.performs_behaviour (rfl : latch.upgrading = false) trials
  obtain ⟨first, refused, middle, second, after, run, fires, again⟩ :
      ∃ first refused middle second after,
        log probe.behaviour latch trials = first :: refused :: middle :: second :: after ∧
          first.Fires ∧ second.Fires :=
    ⟨_, _, _, _, _, rfl, ⟨by decide, trivial⟩, ⟨by decide, trivial⟩⟩
  exact ⟨by decide, by decide, lawful, first, refused, middle, second, after, run, fires, again,
    between [] first [refused, middle] second after run fires again⟩

end Firing

end BattleRoster
