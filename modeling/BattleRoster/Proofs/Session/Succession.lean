import BattleRoster.Proofs.Session.Reachable

/-!
# What becomes of the objects

A new game is begun without objects.  Every other command leaves the objects in
their places and may do one of a few things to each of them; only a spawn adds
one, at the end.  So no object ever gets upgrades of its own, statuses are only
added, and a game goes on from an earlier one as long as no new game is begun.
-/

namespace BattleRoster

/-! ## One object -/

/-- What a command may do to an object that is there already. -/
inductive Bearer.Change : Command → Bearer → Bearer → Prop where
  | same (c : Command) (b : Bearer) : Change c b b
  | evaluated (player upgrade : String) (b : Bearer) (held : UpgradeSet) :
      Change (.grant player upgrade) b (b.update held).2
  | reset (player upgrade : String) (b : Bearer) (lost : UpgradeSet) :
      Change (.revoke player upgrade) b (b.resetModules lost).2
  | resumed (text : String) {b : Bearer} {record : ObjectRecord} (fits : record.Fits b) :
      Change (.restore text) b (b.resume record)

/-- An object as it is built: nothing has fired, and it has no upgrades of its own. -/
structure Bearer.Unused (b : Bearer) : Prop where
  unarmed : b.upgrades = ∅
  unfired : ∀ m ∈ b.modules, m.gate.executed = false ∧ m.gate.upgrading = false

/-- A module that is not firing differs from its saved state in whether it has fired. -/
theorem Module.unfired_resume {m : Module} (idle : m.gate.upgrading = false)
    (record : GateRecord) : (m.resume record).unfired = m.unfired := by
  simp [unfired, Gate.unfired, resume, idle]

theorem Bearer.Idle.frame_resume {b : Bearer} (idle : b.Idle) {record : ObjectRecord}
    (fits : record.Fits b) : (b.resume record).frame = b.frame := by
  have modules {modules : List Module} {records : List GateRecord}
      (resting : ∀ m ∈ modules, m.gate.upgrading = false)
      (count : records.length = modules.length) :
      (List.zipWith Module.resume modules records).map Module.unfired =
        modules.map Module.unfired := by
    induction modules generalizing records with
    | nil => rfl
    | cons m modules ih =>
        cases records with
        | nil => cases count
        | cons record records =>
            rw [List.forall_mem_cons] at resting
            rw [List.zipWith_cons_cons, List.map_cons, List.map_cons,
              Module.unfired_resume resting.1, ih resting.2 (Nat.succ.inj count)]
  simp only [frame, resume, modules idle fits.modules]

namespace Bearer.Change

variable {b b' : Bearer} {c : Command}

/-- No command changes the frame of an object that is not firing. -/
theorem frame (change : b.Change c b') (idle : b.Idle) : b'.frame = b.frame := by
  cases change with
  | same => rfl
  | evaluated player upgrade b held => exact b.frame_update held
  | reset player upgrade b lost => exact b.frame_resetModules lost
  | resumed text fits => exact idle.frame_resume fits

/-- No command gives an object upgrades of its own. -/
theorem unarmed (change : b.Change c b') (unarmed : b.upgrades = ∅) : b'.upgrades = ∅ := by
  cases change with
  | evaluated player upgrade b held => exact (update_of_empty unarmed held).1
  | same | reset | resumed => exact unarmed

/-- No command takes a status from an object. -/
theorem contains_statuses (change : b.Change c b') {status : String}
    (has : b.statuses.contains status = true) : b'.statuses.contains status = true := by
  cases change with
  | evaluated player upgrade b held => exact (b.contains_statuses_update held status).mpr (.inl has)
  | same | reset | resumed => exact has

end Bearer.Change

/-! ## All objects -/

namespace Game

/-- A new game starts without objects, whether or not the roster accepts it. -/
theorem objects_begun (files : Files) (g : Game) : (g.step files .newGame).2.objects = [] := by
  change g.newGame.2.objects = []
  unfold newGame
  split <;> rfl

/-- Objects of which some are changed and the others left alone. -/
theorem forall₂_change_map {c : Command} {bearers : List Bearer} {change : Bearer → Bearer}
    (changes : ∀ b : Bearer, b.Change c (change b)) :
    List.Forall₂ (Bearer.Change c) bearers (bearers.map change) :=
  List.forall₂_map_right_iff.mpr (List.forall₂_same.mpr fun b _ => changes b)

/-- Objects that take over the saved states that fit them. -/
theorem forall₂_change_resume (text : String) {records : List ObjectRecord}
    {bearers : List Bearer} (fits : List.Forall₂ ObjectRecord.Fits records bearers) :
    List.Forall₂ (Bearer.Change (.restore text)) bearers
      (List.zipWith Bearer.resume bearers records) := by
  induction fits with
  | nil => exact .nil
  | cons fit fits ih => exact .cons (.resumed text fit) ih

/--
Every command but a new game changes each object by itself, and those that it
adds have been built and evaluated.
-/
theorem objects_step (files : Files) (g : Game) {c : Command} (goesOn : c ≠ .newGame) :
    ∃ changed fresh, (g.step files c).2.objects = changed ++ fresh ∧
      List.Forall₂ (Bearer.Change c) g.objects changed ∧
      ∀ b ∈ fresh, ∃ (built : Bearer) (held : UpgradeSet),
        built.Unused ∧ b = (built.update held).2 := by
  have kept {c : Command} {g' : Game} (same : g'.objects = g.objects) :
      ∃ changed fresh, g'.objects = changed ++ fresh ∧
        List.Forall₂ (Bearer.Change c) g.objects changed ∧
        ∀ b ∈ fresh, ∃ (built : Bearer) (held : UpgradeSet),
          built.Unused ∧ b = (built.update held).2 :=
    ⟨g.objects, [], by rw [same, List.append_nil], List.forall₂_same.mpr fun b _ => .same c b,
      by simp⟩
  cases c with
  | newGame => exact absurd rfl goesOn
  | spawn owner object modules =>
      change ∃ _ _, (g.spawn owner object modules).2.objects = _ ∧ _
      rcases spawn_cases g owner object modules with
        ⟨e, registry, refused⟩ | ⟨slot, modules, registry, -, -, unfired, spawned⟩
      · exact kept (by rw [refused])
      · refine ⟨g.objects, _, by rw [spawned], List.forall₂_same.mpr fun b _ => .same _ b,
          ?_⟩
        exact List.forall_mem_singleton.mpr ⟨_, _, ⟨rfl, unfired⟩, rfl⟩
  | grant player upgrade =>
      change ∃ _ _, (g.grant player upgrade).2.objects = _ ∧ _
      rcases grant_cases g player upgrade with
        ⟨e, refused⟩ | ⟨slot, set, registry, -, -, granted⟩
      · exact kept (by rw [refused])
      · refine ⟨_, [], by rw [granted, List.append_nil],
          forall₂_change_map fun b => ?_, by simp⟩
        split
        · exact .evaluated player upgrade b _
        · exact .same _ b
  | revoke player upgrade =>
      change ∃ _ _, (g.revoke player upgrade).2.objects = _ ∧ _
      rcases revoke_cases g player upgrade with ⟨e, refused⟩ | ⟨slot, set, -, -, revoked⟩
      · exact kept (by rw [refused])
      · refine ⟨_, [], by rw [revoked, List.append_nil],
          forall₂_change_map fun b => ?_, by simp⟩
        split
        · exact .reset player upgrade b _
        · exact .same _ b
  | restore text =>
      rcases step_restore files g text with ⟨record, -, fits, accepted⟩ | refused
      · rw [accepted, takeOver_of_fits fits]
        refine ⟨_, [], (List.append_nil _).symm, ?_, by simp⟩
        exact forall₂_change_resume text fits.objects
      · exact kept (by rw [refused])
  | _ => exact kept (state_step files g rfl).2

/-- Every command but a new game leaves an object in its place. -/
theorem object_step (files : Files) {g : Game} {c : Command} (goesOn : c ≠ .newGame) {i : Nat}
    {b : Bearer} (there : g.objects[i]? = some b) :
    ∃ b', (g.step files c).2.objects[i]? = some b' ∧ b.Change c b' := by
  obtain ⟨changed, fresh, after, changes, -⟩ := objects_step files g goesOn
  obtain ⟨inside, rfl⟩ := List.getElem?_eq_some_iff.mp there
  have inside' : i < changed.length := changes.length_eq ▸ inside
  refine ⟨changed[i], ?_, changes.get inside inside'⟩
  rw [after, List.getElem?_append_left inside', List.getElem?_eq_getElem inside']

/-- An object after a command was there before, or it has just been built and evaluated. -/
theorem object_step_cases (files : Files) {g : Game} {c : Command} (goesOn : c ≠ .newGame)
    {i : Nat} {b' : Bearer} (there : (g.step files c).2.objects[i]? = some b') :
    (∃ b, g.objects[i]? = some b ∧ b.Change c b') ∨
      ∃ (built : Bearer) (held : UpgradeSet), built.Unused ∧ b' = (built.update held).2 := by
  obtain ⟨changed, fresh, after, changes, new⟩ := objects_step files g goesOn
  rw [after, List.getElem?_append] at there
  split at there
  · next inside' =>
      have inside : i < g.objects.length := changes.length_eq ▸ inside'
      rw [List.getElem?_eq_getElem inside', Option.some_inj] at there
      refine .inl ⟨g.objects[i], List.getElem?_eq_getElem inside, ?_⟩
      rw [← there]
      exact changes.get inside inside'
  · exact .inr (new b' (List.mem_of_getElem? there))

/-! ## Upgrades of the objects themselves -/

def Unarmed (g : Game) : Prop :=
  ∀ b ∈ g.objects, b.upgrades = ∅

theorem Unarmed.step {g : Game} (unarmed : g.Unarmed) (files : Files) (c : Command) :
    (g.step files c).2.Unarmed := by
  by_cases begun : c = .newGame
  · subst begun
    intro b mem
    rw [objects_begun] at mem
    cases mem
  · intro b' mem
    obtain ⟨i, there⟩ := List.getElem?_of_mem mem
    rcases object_step_cases files begun there with
      ⟨b, before, change⟩ | ⟨built, held, unused, rfl⟩
    · exact change.unarmed (unarmed b (List.mem_of_getElem? before))
    · exact (Bearer.update_of_empty unused.unarmed held).1

/-- Commands give upgrades to players only. -/
theorem Reachable.unarmed {g : Game} (reachable : g.Reachable) : g.Unarmed := by
  induction reachable with
  | start options => simp [Unarmed]
  | step files c earlier ih => exact ih.step files c

/-- The upgrades with which an object is evaluated: those of its owner and its own. -/
def held (g : Game) (b : Bearer) : UpgradeSet :=
  (g.roster.player b.owner).upgrades ∪ b.upgrades

theorem Unarmed.held {g : Game} (unarmed : g.Unarmed) {b : Bearer} (mem : b ∈ g.objects) :
    g.held b = (g.roster.player b.owner).upgrades := by
  rw [Game.held, unarmed b mem, UpgradeSet.union_empty]

theorem held_update (g : Game) {b : Bearer} (unarmed : b.upgrades = ∅) (player : UpgradeSet) :
    g.held (b.update player).2 = (g.roster.player b.owner).upgrades := by
  rw [Game.held, Bearer.owner_update, (Bearer.update_of_empty unarmed player).1,
    UpgradeSet.union_empty]

/-! ## Going on from an earlier game -/

def GoesOnFrom (g earlier : Game) : Prop :=
  earlier.objects.map Bearer.frame <+: g.objects.map Bearer.frame

theorem frames_of_changes {c : Command} {bearers changed : List Bearer}
    (changes : List.Forall₂ (Bearer.Change c) bearers changed)
    (idle : ∀ b ∈ bearers, b.Idle) : changed.map Bearer.frame = bearers.map Bearer.frame := by
  induction changes with
  | nil => rfl
  | cons change changes ih =>
      rw [List.forall_mem_cons] at idle
      rw [List.map_cons, List.map_cons, change.frame idle.1, ih idle.2]

/-- No command but a new game takes objects away. -/
theorem goesOn_step {g : Game} (sound : g.Sound) (files : Files) {c : Command}
    (goesOn : c ≠ .newGame) : (g.step files c).2.GoesOnFrom g := by
  obtain ⟨changed, fresh, after, changes, -⟩ := objects_step files g goesOn
  rw [GoesOnFrom, after, List.map_append, frames_of_changes changes sound.idle]
  exact List.prefix_append _ _

/-- Only a spawn adds an object, and only a new game takes objects away. -/
theorem frames_step {g : Game} (sound : g.Sound) (files : Files) {c : Command}
    (goesOn : c ≠ .newGame) (adds : ∀ owner object names, c ≠ .spawn owner object names) :
    (g.step files c).2.objects.map Bearer.frame = g.objects.map Bearer.frame := by
  cases c with
  | newGame => exact absurd rfl goesOn
  | spawn owner object names => exact absurd rfl (adds owner object names)
  | restore text =>
      rcases step_restore files g text with ⟨record, -, fits, accepted⟩ | refused
      · rw [accepted, takeOver_of_fits fits]
        exact frames_of_changes (forall₂_change_resume text fits.objects) sound.idle
      · rw [refused]
  | _ => exact (of_frame_eq (frame_step files g rfl)).2

end Game

end BattleRoster
