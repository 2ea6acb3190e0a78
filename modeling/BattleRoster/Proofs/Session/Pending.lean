import BattleRoster.Proofs.Collection.Occurrences
import BattleRoster.Proofs.Session.History

/-!
# Pending modules

A module is pending if it would fire with the upgrades that its object is
evaluated with.  Spawning an object and giving its owner an upgrade evaluate it,
and what has been attempted is not pending.  Taking an upgrade away resets
modules and lifts conflicts, but evaluates nothing, so it may leave modules
pending until the owner is next given an upgrade.
-/

namespace BattleRoster

/-! ## Gates -/

namespace Gate

variable {g : Gate} {held lost : UpgradeSet}

/-- Holding more triggers no less. -/
theorem triggered_mono {more : UpgradeSet} (kept : ∀ place ∈ held, place ∈ more)
    (triggered : g.triggered held = true) : g.triggered more = true := by
  unfold Gate.triggered at triggered ⊢
  split at triggered
  · next needsAll =>
      rw [if_pos needsAll]
      rw [UpgradeSet.covers_iff] at triggered ⊢
      exact fun place triggers => kept place (triggered place triggers)
  · next needsAny =>
      rw [if_neg needsAny]
      rw [UpgradeSet.meets_iff] at triggered ⊢
      obtain ⟨place, holds, triggers⟩ := triggered
      exact ⟨place, kept place holds, triggers⟩

/--
A gate that is pending after a loss was pending before, or it has lost one of
its triggers, or one of its conflicts.
-/
theorem wouldFire_of_reset (fires : (g.reset lost).2.wouldFire (held \ lost) = true) :
    g.wouldFire held = true ∨ lost.meets g.triggers = true ∨ lost.meets g.conflicts = true := by
  by_cases triggers : lost.meets g.triggers = true
  · exact .inr (.inl triggers)
  by_cases conflicts : lost.meets g.conflicts = true
  · exact .inr (.inr conflicts)
  have same : (g.reset lost).2 = g := by
    simp [reset, triggers]
  rw [same] at fires
  obtain ⟨unfired, resting, nonempty, holds, clear, triggered⟩ := wouldFire_eq_true.mp fires
  have kept : ∀ place ∈ held \ lost, place ∈ held :=
    fun place mem => (UpgradeSet.mem_sdiff.mp mem).1
  have stillClear : held.meets g.conflicts = false := by
    rw [UpgradeSet.meets_eq_false_iff] at clear ⊢
    rw [Bool.not_eq_true, UpgradeSet.meets_eq_false_iff] at conflicts
    intro place blocks held
    exact clear place blocks (UpgradeSet.mem_sdiff.mpr ⟨held, conflicts place blocks⟩)
  exact .inl (wouldFire_eq_true.mpr ⟨unfired, resting, nonempty,
    UpgradeSet.nonempty_mono kept holds, stillClear, triggered_mono kept triggered⟩)

end Gate

/-! ## Objects -/

/-- No module of an object would fire with the upgrades that are held. -/
def Bearer.Settled (b : Bearer) (held : UpgradeSet) : Prop :=
  ∀ m ∈ b.modules, m.gate.wouldFire held = false

/-- An object without upgrades of its own is settled when it has been evaluated. -/
theorem Bearer.settled_update {b : Bearer} (unarmed : b.upgrades = ∅) (held : UpgradeSet) :
    (b.update held).2.Settled held := by
  intro m mem
  rw [(update_of_empty unarmed held).2] at mem
  obtain ⟨earlier, -, rfl⟩ := List.mem_map.mp mem
  exact earlier.gate.wouldFire_attempted held

/-! ## Turns -/

namespace Turn

/-- A turn in which a player loses an upgrade that is a trigger or a conflict of a gate. -/
def Disturbs (turn : Turn) (slot : Slot) (gate : Gate) : Prop :=
  ∃ upgrade set, turn.Takes slot upgrade ∧ turn.game.registry.find? upgrade = some set ∧
    (set.meets gate.triggers = true ∨ set.meets gate.conflicts = true)

/-- A turn that disturbs a gate, and none since in which the player is given an upgrade. -/
def LastDisturbed (turns : List Turn) (slot : Slot) (gate : Gate) : Prop :=
  ∃ before turn after, turns = before ++ turn :: after ∧ turn.Disturbs slot gate ∧
    ∀ later ∈ after, ∀ upgrade, ¬ later.Gives slot upgrade

end Turn

namespace Game

/-- An object of a player has a pending module, which is given apart from whether it has fired. -/
def Awaits (g : Game) (slot : Slot) (m : Module) : Prop :=
  ∃ b ∈ g.objects, b.owner = slot ∧
    ∃ m' ∈ b.modules, m'.unfired = m ∧ m'.gate.wouldFire (g.held b) = true

variable {g : Game} {slot : Slot} {m : Module}

theorem Awaits.of_state {g' : Game} (awaits : g'.Awaits slot m)
    (same : g'.roster = g.roster ∧ g'.objects = g.objects) : g.Awaits slot m := by
  unfold Awaits held at awaits ⊢
  rwa [same.1, same.2] at awaits

/-- A new object is settled at once. -/
theorem Awaits.of_spawn (owner object : String) (names : List String)
    (awaits : (g.spawn owner object names).2.Awaits slot m) : g.Awaits slot m := by
  rcases spawn_cases g owner object names with
    ⟨e, registry, refused⟩ | ⟨given, modules, registry, -, -, -, spawned⟩
  · rw [refused] at awaits
    exact awaits
  · rw [spawned] at awaits
    obtain ⟨b, mem, owner, m', among, same, fires⟩ := awaits
    rcases List.mem_append.mp mem with mem | mem
    · exact ⟨b, mem, owner, m', among, same, fires⟩
    · obtain rfl := List.mem_singleton.mp mem
      rw [held_update _ rfl, Bearer.settled_update rfl _ m' among] at fires
      cases fires

/-- A player that is given an upgrade has no pending modules. -/
theorem Awaits.of_grant (unarmed : g.Unarmed) (player upgrade : String)
    (awaits : (g.grant player upgrade).2.Awaits slot m) :
    g.Awaits slot m ∧
      ¬ (g.resolve player = .ok slot ∧ ∃ fired, (g.grant player upgrade).1 = .ok fired) := by
  rcases grant_cases g player upgrade with
    ⟨e, refused⟩ | ⟨given, set, registry, resolved, -, granted⟩
  · rw [refused] at awaits ⊢
    exact ⟨awaits, by simp⟩
  · rw [granted] at awaits
    obtain ⟨b, mem, rfl, m', among, same, fires⟩ := awaits
    obtain ⟨earlier, there, rfl⟩ := List.mem_map.mp mem
    dsimp only at among fires ⊢
    by_cases owned : earlier.owner = given
    · subst owned
      rw [if_pos rfl] at among fires
      rw [held_update _ (unarmed earlier there), Roster.upgrades_addUpgrades,
        Bearer.settled_update (unarmed earlier there) _ m' among] at fires
      cases fires
    · rw [if_neg owned] at among fires ⊢
      rw [Game.held, Roster.player_modify, if_neg (Ne.symm owned)] at fires
      refine ⟨⟨earlier, there, rfl, m', among, same, fires⟩, ?_⟩
      rintro ⟨other, -⟩
      rw [resolved] at other
      exact owned (Except.ok.inj other).symm

/-- A module is pending after a loss if it was before, or if the loss disturbs it. -/
theorem Awaits.of_revoke (unarmed : g.Unarmed) (player upgrade : String)
    (awaits : (g.revoke player upgrade).2.Awaits slot m) :
    g.Awaits slot m ∨
      g.resolve player = .ok slot ∧ (∃ lost, (g.revoke player upgrade).1 = .ok lost) ∧
        ∃ set, g.registry.find? upgrade = some set ∧
          (set.meets m.gate.triggers = true ∨ set.meets m.gate.conflicts = true) := by
  rcases revoke_cases g player upgrade with
    ⟨e, refused⟩ | ⟨taken, set, resolved, found, revoked⟩
  · rw [refused] at awaits
    exact .inl awaits
  · rw [revoked] at awaits
    obtain ⟨b, mem, rfl, m', among, rfl, fires⟩ := awaits
    obtain ⟨earlier, there, rfl⟩ := List.mem_map.mp mem
    dsimp only at among fires ⊢
    by_cases owned : earlier.owner = taken
    · subst owned
      rw [if_pos rfl] at among fires ⊢
      rw [earlier.modules_resetModules] at among
      obtain ⟨m, before, rfl⟩ := List.mem_map.mp among
      rw [Module.unfired_reset]
      change (m.gate.reset set).2.wouldFire
        (((g.roster.modify earlier.owner (·.removeUpgrades set)).player earlier.owner).upgrades ∪
          earlier.upgrades) = true at fires
      rw [Roster.upgrades_removeUpgrades, unarmed earlier there, UpgradeSet.union_empty] at fires
      rcases Gate.wouldFire_of_reset fires with pending | disturbed
      · rw [← unarmed.held there] at pending
        exact .inl ⟨earlier, there, rfl, m, before, rfl, pending⟩
      · exact .inr ⟨resolved, ⟨_, by rw [revoked]⟩, set, found, disturbed⟩
    · rw [if_neg owned] at among fires ⊢
      rw [Game.held, Roster.player_modify, if_neg (Ne.symm owned)] at fires
      exact .inl ⟨earlier, there, rfl, m', among, rfl, fires⟩

/--
A module that is pending after a turn without a restore was pending before, and
its owner has not been given an upgrade, or the turn disturbs it.
-/
theorem Awaits.turn (turn : Turn) (awaits : turn.next.Awaits slot m)
    (unarmed : turn.game.Unarmed) (goesOn : turn.command ≠ .newGame)
    (unrestored : turn.command.isRestore = false) :
    (turn.game.Awaits slot m ∧ ∀ upgrade, ¬ turn.Gives slot upgrade) ∨
      turn.Disturbs slot m.gate := by
  obtain ⟨g, files, c⟩ := turn
  have ungiven {c : Command} (other : ∀ player upgrade, c ≠ .grant player upgrade) :
      ∀ upgrade, ¬ Turn.Gives ⟨g, files, c⟩ slot upgrade := by
    rintro upgrade ⟨player, fired, same, -⟩
    exact other player upgrade same
  cases c with
  | newGame => exact absurd rfl goesOn
  | restore text => cases unrestored
  | spawn owner object names =>
      exact .inl ⟨of_spawn owner object names awaits, ungiven (by simp)⟩
  | grant player upgrade =>
      obtain ⟨before, still⟩ := of_grant unarmed player upgrade awaits
      refine .inl ⟨before, ?_⟩
      rintro _ ⟨_, fired, ⟨⟩, resolved, accepted⟩
      exact still ⟨resolved, fired, accepted⟩
  | revoke player upgrade =>
      rcases of_revoke unarmed player upgrade awaits with
        before | ⟨resolved, ⟨lost, accepted⟩, set, found, disturbed⟩
      · exact .inl ⟨before, ungiven (by simp)⟩
      · exact .inr
          ⟨upgrade, set, ⟨player, lost, rfl, resolved, accepted⟩, found, disturbed⟩
  | _ => exact .inl ⟨awaits.of_state (state_step files g rfl), ungiven (by simp)⟩

/-! ## Histories -/

variable {turns : List Turn}

theorem Follows.lastDisturbed (follows : g.Follows turns)
    (unrestored : ∀ turn ∈ turns, turn.command.isRestore = false) (awaits : g.Awaits slot m) :
    Turn.LastDisturbed turns slot m.gate := by
  induction follows with
  | start options =>
      obtain ⟨b, mem, -⟩ := awaits
      cases mem
  | begun files earlier ih =>
      obtain ⟨b, mem, -⟩ := awaits
      rw [objects_begun] at mem
      cases mem
  | @turn g _ files c earlier goesOn ih =>
      rw [List.forall_mem_append, List.forall_mem_singleton] at unrestored
      rcases awaits.turn ⟨g, files, c⟩ earlier.reachable.unarmed goesOn unrestored.2 with
        ⟨before, ungiven⟩ | disturbs
      · exact lastSuch_concat.mpr (.inr ⟨ih unrestored.1 before, ungiven⟩)
      · exact lastSuch_concat.mpr (.inl disturbs)

/--
As long as no saved game is restored, a module is pending only if its owner has
lost one of its triggers or one of its conflicts, and has not been given an
upgrade since.
-/
theorem pending_disturbed (follows : g.Follows turns)
    (unrestored : ∀ turn ∈ turns, turn.command.isRestore = false) :
    ∀ b ∈ g.objects, ∀ m ∈ b.modules, m.gate.wouldFire (g.held b) = true →
      Turn.LastDisturbed turns b.owner m.gate :=
  fun b mem m among pending =>
    follows.lastDisturbed (m := m.unfired) unrestored ⟨b, mem, rfl, m, among, rfl, pending⟩

/-- Rust holds back the saw, and wind or water drives the wheel; rust and wind are taken away. -/
def weathering : List (Files × Command) :=
  let text := "[[\"Saw\",[\"Steel\"],[\"Rust\"]],[\"Wheel\",[\"Wind\",\"Water\"]]]"
  let files : Files := { find := fun _ => .ok text.toUTF8 }
  [(files, .loadBlueprints "mill"), (files, .spawn "-" "Mill" ["Saw", "Wheel"]),
    (files, .grant "-" "Rust"), (files, .grant "-" "Steel"), (files, .grant "-" "Wind"),
    (files, .grant "-" "Water"), (files, .revoke "-" "Rust"), (files, .revoke "-" "Wind")]

/-- The saw and the wheel are pending after the two losses. -/
theorem pending_disturbed_weathering :
    let g := Game.run {} weathering
    let turns := Game.turns {} weathering
    g.objects.map (fun b => b.modules.map (·.gate.wouldFire (g.held b))) = [[true, true]] ∧
      g.Follows turns ∧ (∀ turn ∈ turns, turn.command.isRestore = false) ∧
      ∀ b ∈ g.objects, ∀ m ∈ b.modules, m.gate.wouldFire (g.held b) = true →
        Turn.LastDisturbed turns b.owner m.gate := by
  intro g turns
  have follows : g.Follows turns := (Follows.start {}).run (by simp [weathering])
  have unrestored : ∀ turn ∈ turns, turn.command.isRestore = false :=
    forall_commands (P := fun c => c.isRestore = false) (by simp [weathering, Command.isRestore]) {}
  exact ⟨by decide +kernel, follows, unrestored, pending_disturbed follows unrestored⟩

/-- A run may end with modules that are pending. -/
theorem pending_after_loss :
    ¬ ∀ (options : Options) (commands : List (Files × Command)),
      (∀ command ∈ commands, command.2.isRestore = false) →
      let g := Game.run { options } commands
      ∀ b ∈ g.objects, b.Settled (g.held b) := by
  intro settled
  have unrestored : ∀ command ∈ weathering, command.2.isRestore = false := by
    simp [weathering, Command.isRestore]
  have all : ∀ b ∈ (Game.run {} weathering).objects, ∀ m ∈ b.modules,
      m.gate.wouldFire ((Game.run {} weathering).held b) = false :=
    settled {} weathering unrestored
  exact absurd all (by decide +kernel)

end Game

end BattleRoster
