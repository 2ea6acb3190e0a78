import BattleRoster.Proofs.Session.History

/-!
# Removals in a game

A module may ask that upgrades be taken away when it fires.  What it asks for is
taken from the upgrades of its object, and in a game the objects have none: every
upgrade is given to a player.  So whatever fires, the players keep what they hold
and no module is reset.
-/

namespace BattleRoster

namespace Turn

/-- A turn in which the module at a place fires. -/
structure Fires (turn : Turn) (i j : Nat) (m : Module) : Prop where
  evaluates : turn.command.isEvaluating = true
  unfired : ¬ turn.game.Executed i j
  place : turn.next.module? i j = some m
  executed : m.gate.executed = true

/--
A turn after which the object at a place is rid of upgrades: it is evaluated
without them, and no module that has one of them as a trigger is still executed.
-/
structure Strips (turn : Turn) (i : Nat) (upgrades : UpgradeSet) : Prop where
  gone : ∀ b, turn.next.objects[i]? = some b → ∀ place ∈ upgrades,
    ¬ place ∈ turn.next.held b
  reset : ∀ j m, turn.game.Executed i j → turn.next.module? i j = some m →
    m.gate.triggers.meets upgrades = true → m.gate.executed = false

end Turn

namespace Game

variable {g : Game} {files : Files} {c : Command}

/-- An evaluation resets no module. -/
theorem Executed.evaluated {i j : Nat} (executed : g.Executed i j) (unarmed : g.Unarmed)
    (evaluates : c.isEvaluating = true) : (g.step files c).2.Executed i j := by
  obtain ⟨m, place, fired⟩ := executed
  obtain ⟨b, object, among⟩ := module?_eq_some.mp place
  have goesOn : c ≠ .newGame := by
    rintro rfl
    cases evaluates
  obtain ⟨b', object', change⟩ := object_step files goesOn object
  cases change with
  | same => exact ⟨m, module?_eq_some.mpr ⟨b, object', among⟩, fired⟩
  | evaluated player upgrade b held =>
      refine ⟨m.attempted held, module?_eq_some.mpr ⟨_, object', ?_⟩, ?_⟩
      · rw [(Bearer.update_of_empty (unarmed b (List.mem_of_getElem? object)) held).2,
          List.getElem?_map, among]
        rfl
      · exact Bool.or_eq_true_iff.mpr (.inl fired)
  | reset | resumed => cases evaluates

/-- An evaluation takes no upgrade from a player. -/
theorem held_evaluated (evaluates : c.isEvaluating = true) (slot : Slot) :
    ∀ place ∈ (g.roster.player slot).upgrades,
      place ∈ ((g.step files c).2.roster.player slot).upgrades := by
  intro place holds
  cases c with
  | spawn owner object modules =>
      change place ∈ ((g.spawn owner object modules).2.roster.player slot).upgrades
      rcases spawn_cases g owner object modules with
        ⟨e, registry, refused⟩ | ⟨slot, modules, registry, -, -, -, spawned⟩
      · rwa [refused]
      · rwa [spawned]
  | grant player upgrade =>
      change place ∈ ((g.grant player upgrade).2.roster.player slot).upgrades
      rcases grant_cases g player upgrade with
        ⟨e, refused⟩ | ⟨given, set, registry, -, -, granted⟩
      · rwa [refused]
      · rw [granted]
        change place ∈ ((g.roster.modify given (·.addUpgrades set)).player slot).upgrades
        rw [Roster.player_modify]
        split
        · next here => exact UpgradeSet.mem_union.mpr (.inl (here ▸ holds))
        · exact holds
  | _ => cases evaluates

/--
Whatever fires, the players hold what they held, the objects have no upgrades of
their own, and every module that had been executed still is.
-/
theorem removals_lapse {turn : Turn} (reachable : turn.game.Reachable)
    (evaluates : turn.command.isEvaluating = true) :
    (∀ slot, ∀ place ∈ (turn.game.roster.player slot).upgrades,
      place ∈ (turn.next.roster.player slot).upgrades) ∧
    (∀ b ∈ turn.next.objects, b.upgrades = ∅) ∧
    ∀ i j, turn.game.Executed i j → turn.next.Executed i j :=
  ⟨held_evaluated evaluates, (reachable.unarmed.step turn.files turn.command),
    fun _ _ executed => executed.evaluated reachable.unarmed evaluates⟩

/-- The files of a smith, whose steel fires for iron and asks that oak be taken away. -/
def smithy : Files where
  find _ := .ok "[[\"Wood\",[\"Oak\"]],[\"Steel\",[\"Iron\"],[],[\"Oak\"]]]".toUTF8

/-- Oak has fired its module, and iron is about to fire the one that removes oak. -/
def beforeIron : Turn where
  game := Game.run {} [(smithy, .loadBlueprints "smithy"),
    (smithy, .spawn "-" "Mill" ["Wood", "Steel"]), (smithy, .grant "-" "Oak")]
  files := smithy
  command := .grant "-" "Iron"

theorem reachable_beforeIron : beforeIron.game.Reachable :=
  (Reachable.start {}).run _

/-- Steel fires, its owner keeps the oak, and the wood stays executed. -/
theorem removals_lapse_iron :
    let executed (g : Game) := g.objects.map fun b => b.modules.map (·.gate.executed)
    executed beforeIron.game = [[true, false]] ∧ executed beforeIron.next = [[true, true]] ∧
      (∀ slot, ∀ place ∈ (beforeIron.game.roster.player slot).upgrades,
        place ∈ (beforeIron.next.roster.player slot).upgrades) ∧
      (∀ b ∈ beforeIron.next.objects, b.upgrades = ∅) ∧
      ∀ i j, beforeIron.game.Executed i j → beforeIron.next.Executed i j :=
  ⟨by decide +kernel, by decide +kernel, removals_lapse reachable_beforeIron rfl⟩

/-- A module that fires does not rid its object of what it asks to be taken away. -/
theorem removals_not_carried_out :
    ¬ ∀ turn : Turn, turn.game.Reachable → ∀ i j m, turn.Fires i j m →
      turn.Strips i m.gate.removes := by
  intro carriedOut
  let steel : Module :=
    { name := "Steel", gate := { triggers := ⟨2⟩, removes := ⟨1⟩, executed := true } }
  have unfired : ¬ beforeIron.game.Executed 0 1 := by
    rintro ⟨m, place, executed⟩
    have gates : (beforeIron.game.module? 0 1).map (·.gate.executed) = some false := by
      decide +kernel
    rw [place, Option.map_some, executed] at gates
    cases gates
  have fires : beforeIron.Fires 0 1 steel :=
    ⟨rfl, unfired, by decide +kernel, rfl⟩
  have strips := carriedOut beforeIron reachable_beforeIron 0 1 steel fires
  obtain ⟨b, object, -⟩ := module?_eq_some.mp fires.place
  have holdsOak : ∀ b ∈ beforeIron.next.objects, 0 ∈ beforeIron.next.held b := by
    decide +kernel
  exact strips.gone b object 0 (by decide) (holdsOak b (List.mem_of_getElem? object))

end Game

end BattleRoster
