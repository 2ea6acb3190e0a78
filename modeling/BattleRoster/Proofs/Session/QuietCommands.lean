import BattleRoster.Proofs.Upgrade.Evaluation
import BattleRoster.Proofs.Upgrade.Registration
import BattleRoster.Session.Step

/-!
# Quiet commands

A command is quiet if it neither sets up a game, nor creates an object, nor
restores a saved game.  Quiet commands may give and take upgrades, and fire and
reset modules on the way; the frame of a game is what they leave alone.
-/

namespace BattleRoster

/-- Whether a command leaves players and objects in their places. -/
def Command.isQuiet : Command → Bool
  | .newGame | .spawn .. | .restore _ => false
  | _ => true

/-- Whether a command has nothing to do with players' upgrades either. -/
def Command.isPassive : Command → Bool
  | .newGame | .spawn .. | .restore _ | .grant .. | .revoke .. => false
  | _ => true

/-! ## Modules -/

/-- A gate apart from whether it has been executed. -/
def Gate.unfired (g : Gate) : Gate :=
  { g with executed := false }

/-- A module apart from whether it has been executed. -/
def Module.unfired (m : Module) : Module :=
  { m with gate := m.gate.unfired }

theorem Gate.unfired_reset (g : Gate) (lost : UpgradeSet) :
    (g.reset lost).2.unfired = g.unfired := by
  rw [g.gate_reset]
  rfl

namespace Module

theorem unfired_passed (m : Module) (held stripped : UpgradeSet) :
    (m.passed held stripped).unfired = m.unfired :=
  rfl

theorem unfired_reset (m : Module) (lost : UpgradeSet) : (m.reset lost).2.unfired = m.unfired :=
  congrArg (fun gate => { m with gate }) (m.gate.unfired_reset lost)

end Module

/-! ## Objects -/

namespace Bearer

/-- An object apart from what evaluating and resetting its modules may change. -/
def frame (b : Bearer) : Bearer where
  name := b.name
  owner := b.owner
  modules := b.modules.map Module.unfired
  statuses := default

/-- Objects with one frame have the same modules, apart from which have fired. -/
theorem modules_of_frame_eq {b b' : Bearer} (same : b'.frame = b.frame) :
    b'.modules.map Module.unfired = b.modules.map Module.unfired :=
  (congrArg Bearer.modules same :)

theorem frame_resetModules (b : Bearer) (lost : UpgradeSet) :
    (b.resetModules lost).2.frame = b.frame := by
  simp [resetModules, frame, Module.unfired_reset]

theorem frame_update (b : Bearer) (player : UpgradeSet) : (b.update player).2.frame = b.frame := by
  rw [update_eq]
  simp [frame, Module.unfired_passed]

theorem name_update (b : Bearer) (player : UpgradeSet) : (b.update player).2.name = b.name :=
  (congrArg Bearer.name (b.frame_update player) :)

theorem owner_update (b : Bearer) (player : UpgradeSet) : (b.update player).2.owner = b.owner :=
  (congrArg Bearer.owner (b.frame_update player) :)

end Bearer

/-- The objects of the owner are changed, each by itself, and the others are left alone. -/
theorem Game.objects_changeObjects (owner : Slot) (change : Bearer → List String × Bearer)
    (bearers : List Bearer) :
    (changeObjects owner change bearers).2 =
      bearers.map fun b => if b.owner = owner then (change b).2 else b := by
  induction bearers with
  | nil => rfl
  | cons b bearers ih =>
      unfold changeObjects
      dsimp only
      split
      · next owned => rw [List.map_cons, if_pos owned, ih]
      · next other => rw [List.map_cons, if_neg other, ih]

/-- The objects of the owner report, one after the other. -/
theorem Game.reports_changeObjects (owner : Slot) (change : Bearer → List String × Bearer)
    (bearers : List Bearer) :
    (changeObjects owner change bearers).1 =
      bearers.flatMap fun b =>
        if b.owner = owner then (change b).1.map ((change b).2.name, ·) else [] := by
  induction bearers with
  | nil => rfl
  | cons b bearers ih =>
      unfold changeObjects
      dsimp only
      split
      · next owned => rw [List.flatMap_cons, if_pos owned, ih]
      · next other => rw [List.flatMap_cons, if_neg other, ih, List.nil_append]

/-! ## Players -/

/-- A player apart from its upgrades. -/
def Player.unarmed (p : Player) : Player :=
  { p with upgrades := ∅ }

namespace Roster

/-- A roster apart from the upgrades of its active players. -/
def frame (r : Roster) : Roster :=
  { r with
    players := r.players.mapFinIdx fun i p _ => if i < r.count then p.unarmed else p }

theorem player_frame (r : Roster) (slot : Slot) :
    r.frame.player slot =
      if slot.val < r.count then (r.player slot).unarmed else r.player slot := by
  simp [frame, player]

/-- Rosters with one frame differ in the upgrades of active players only. -/
theorem of_frame_eq {r r' : Roster} (same : r'.frame = r.frame) :
    r'.count = r.count ∧ r'.localSlot = r.localSlot ∧ r'.humans = r.humans ∧
      (∀ slot, (r'.player slot).unarmed = (r.player slot).unarmed) ∧
      ∀ slot : Slot, r.count ≤ slot.val → r'.player slot = r.player slot := by
  have count : r'.count = r.count := (congrArg Roster.count same :)
  have player (slot : Slot) := congrArg (·.player slot) same
  simp only [player_frame, count] at player
  refine ⟨count, (congrArg Roster.localSlot same :), (congrArg Roster.humans same :),
    fun slot => ?_, fun slot inactive => ?_⟩
  · by_cases active : slot.val < r.count
    · simpa only [if_pos active] using player slot
    · simpa only [if_neg active] using congrArg Player.unarmed (player slot)
  · simpa only [if_neg (Nat.not_lt.mpr inactive)] using player slot

theorem upgrades_addUpgrades (r : Roster) (slot : Slot) (set : UpgradeSet) :
    ((r.modify slot (·.addUpgrades set)).player slot).upgrades =
      (r.player slot).upgrades ∪ set := by
  rw [player_modify, if_pos rfl]
  rfl

theorem upgrades_removeUpgrades (r : Roster) (slot : Slot) (set : UpgradeSet) :
    ((r.modify slot (·.removeUpgrades set)).player slot).upgrades =
      (r.player slot).upgrades \ set := by
  rw [player_modify, if_pos rfl]
  rfl

/-- Only active players are given upgrades or lose them. -/
theorem frame_modify {r : Roster} {slot : Slot} (active : slot.val < r.count)
    (change : Player → Player) (keeps : ∀ p : Player, (change p).unarmed = p.unarmed) :
    (r.modify slot change).frame = r.frame := by
  refine ext_player (fun other => ?_) rfl rfl rfl
  have count : (r.modify slot change).count = r.count := rfl
  rw [player_frame, player_frame, player_modify, count]
  by_cases here : slot = other
  · subst here
    rw [if_pos active, if_pos active, if_pos rfl, keeps]
  · rw [if_neg here]

end Roster

/-! ## Games -/

namespace Game

/-- The roster and the objects of a game apart from what quiet commands may change. -/
def frame (g : Game) : Roster × List Bearer :=
  (g.roster.frame, g.objects.map Bearer.frame)

theorem of_frame_eq {g g' : Game} (same : g'.frame = g.frame) :
    g'.roster.frame = g.roster.frame ∧
      g'.objects.map Bearer.frame = g.objects.map Bearer.frame :=
  Prod.mk.inj same

theorem active_of_resolve {g : Game} {name : String} {slot : Slot}
    (resolved : g.resolve name = .ok slot) : slot.val < g.roster.count := by
  unfold resolve at resolved
  dsimp only at resolved
  split at resolved
  · next found =>
      cases resolved
      exact Roster.active_of_find? found
  · cases resolved

/--
A grant is refused and changes nothing, or its upgrade is registered, an active
player gets it, and its objects are evaluated with all that it holds then.
-/
theorem grant_cases (g : Game) (player upgrade : String) :
    (∃ e, g.grant player upgrade = (.error e, g)) ∨
    ∃ slot set registry, g.resolve player = .ok slot ∧
      g.registry.register upgrade = (.ok set, registry) ∧
      g.grant player upgrade =
        (.ok (g.objects.flatMap fun b =>
          if b.owner = slot then
            (b.update ((g.roster.player slot).upgrades ∪ set)).1.map
              ((b.update ((g.roster.player slot).upgrades ∪ set)).2.name, ·)
          else []),
        { g with
          registry
          roster := g.roster.modify slot (·.addUpgrades set)
          objects := g.objects.map fun b =>
            if b.owner = slot then (b.update ((g.roster.player slot).upgrades ∪ set)).2
            else b }) := by
  unfold grant
  split
  · next e _ => exact .inl ⟨e, rfl⟩
  · next slot resolved =>
      split
      · next e registry refused =>
          obtain rfl := Registry.register_error refused
          exact .inl ⟨.upgrade e, rfl⟩
      · next set registry registered =>
          refine .inr ⟨slot, set, registry, resolved, registered, ?_⟩
          dsimp only
          rw [Roster.upgrades_addUpgrades, objects_changeObjects, reports_changeObjects]

/--
A revocation is refused, or an active player loses the upgrades and the modules
of its objects that depend on them are reset.
-/
theorem revoke_cases (g : Game) (player upgrade : String) :
    (∃ e, g.revoke player upgrade = (.error e, g)) ∨
    ∃ slot set, g.resolve player = .ok slot ∧ g.registry.find? upgrade = some set ∧
      g.revoke player upgrade =
        (.ok (g.objects.flatMap fun b =>
          if b.owner = slot then
            (b.resetModules set).1.map ((b.resetModules set).2.name, ·)
          else []),
        { g with
          roster := g.roster.modify slot (·.removeUpgrades set)
          objects := g.objects.map fun b =>
            if b.owner = slot then (b.resetModules set).2 else b }) := by
  unfold revoke
  split
  · next e _ => exact .inl ⟨e, rfl⟩
  · next slot resolved =>
      split
      · exact .inl ⟨_, rfl⟩
      · next set found =>
          refine .inr ⟨slot, set, resolved, found, ?_⟩
          dsimp only
          rw [objects_changeObjects, reports_changeObjects]

/-- The frames stay when the objects of one owner are changed within theirs. -/
theorem frame_changed {change : Bearer → Bearer} (keeps : ∀ b, (change b).frame = b.frame)
    (owner : Slot) (bearers : List Bearer) :
    (bearers.map fun b => if b.owner = owner then change b else b).map Bearer.frame =
      bearers.map Bearer.frame := by
  rw [List.map_map]
  refine List.map_congr_left fun b _ => ?_
  dsimp only [Function.comp]
  split
  · exact keeps b
  · rfl

theorem frame_grant (g : Game) (player upgrade : String) :
    (g.grant player upgrade).2.frame = g.frame := by
  rcases grant_cases g player upgrade with
    ⟨e, refused⟩ | ⟨slot, set, registry, resolved, -, done⟩
  · rw [refused]
  · rw [done]
    have roster :=
      Roster.frame_modify (active_of_resolve resolved) (·.addUpgrades set) fun _ => rfl
    exact Prod.ext roster (frame_changed (fun b => b.frame_update _) slot g.objects)

theorem frame_revoke (g : Game) (player upgrade : String) :
    (g.revoke player upgrade).2.frame = g.frame := by
  rcases revoke_cases g player upgrade with ⟨e, refused⟩ | ⟨slot, set, resolved, -, done⟩
  · rw [refused]
  · rw [done]
    have roster :=
      Roster.frame_modify (active_of_resolve resolved) (·.removeUpgrades set) fun _ => rfl
    exact Prod.ext roster (frame_changed (fun b => b.frame_resetModules set) slot g.objects)

/-- A passive command changes at most what later games and objects are made from. -/
theorem step_of_passive (files : Files) (g : Game) {c : Command} (passive : c.isPassive = true) :
    ∃ options sides blueprints,
      (g.step files c).2 = { g with options, sides, blueprints } := by
  cases c with
  | newGame | spawn owner object modules | restore text | grant player upgrade
  | revoke player upgrade => cases passive
  | handshake | ping | clearSides | listSides | listPlayers | stance player other
  | mask source filter | save | quit => exact ⟨_, _, _, rfl⟩
  | setOption name value =>
      unfold step
      dsimp only
      split <;> exact ⟨_, _, _, rfl⟩
  | addSide line =>
      unfold step addSide
      dsimp only
      split <;> exact ⟨_, _, _, rfl⟩
  | loadSides path =>
      unfold step loadSides
      dsimp only
      split <;> exact ⟨_, _, _, rfl⟩
  | loadBlueprints path =>
      unfold step loadBlueprints
      dsimp only
      split
      · next loaded =>
          split at loaded
          · cases loaded
          · split at loaded <;> cases loaded
            exact ⟨_, _, _, rfl⟩
      · exact ⟨_, _, _, rfl⟩

/-- A passive command changes neither the roster nor the objects. -/
theorem state_step (files : Files) (g : Game) {c : Command} (passive : c.isPassive = true) :
    (g.step files c).2.roster = g.roster ∧ (g.step files c).2.objects = g.objects := by
  obtain ⟨options, sides, blueprints, after⟩ := step_of_passive files g passive
  rw [after]
  exact ⟨rfl, rfl⟩

/-- A quiet command leaves the frame alone. -/
theorem frame_step (files : Files) (g : Game) {c : Command} (quiet : c.isQuiet = true) :
    (g.step files c).2.frame = g.frame := by
  have unchanged {c : Command} (passive : c.isPassive = true) :
      (g.step files c).2.frame = g.frame := by
    obtain ⟨roster, objects⟩ := state_step files g passive
    rw [frame, roster, objects, frame]
  cases c with
  | newGame | spawn owner object modules | restore text => cases quiet
  | grant player upgrade => exact frame_grant g player upgrade
  | revoke player upgrade => exact frame_revoke g player upgrade
  | _ => exact unchanged rfl

/-- The game after a run of commands, each with the files that it can read. -/
def run : Game → List (Files × Command) → Game
  | g, [] => g
  | g, (files, c) :: rest => (g.step files c).2.run rest

/-- A run of quiet commands leaves the frame alone. -/
theorem frame_run {commands : List (Files × Command)}
    (quiet : ∀ command ∈ commands, command.2.isQuiet = true) (g : Game) :
    (g.run commands).frame = g.frame := by
  induction commands generalizing g with
  | nil => rfl
  | cons command commands ih =>
      rw [run, ih fun other mem => quiet other (by simp [mem])]
      exact frame_step command.1 g (quiet command (by simp))

end Game

end BattleRoster
