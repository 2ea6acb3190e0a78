import BattleRoster.Proofs.Collection.Occurrences
import BattleRoster.Proofs.Session.History
import BattleRoster.Proofs.Upgrade.Registration

/-!
# Who holds what

Players hold places of upgrade sets, and the registry of the session names the
places.  Every command may only add names to the registry, so a place keeps its
name.  A grant adds the place of its upgrade to one player and a revocation takes
it away; a new game clears all players, but not the registry.  So without
restores a player holds exactly what it was given last and has not lost since.
-/

namespace BattleRoster

/-- Nobody has upgrades when a game begins. -/
theorem Roster.upgrades_newGame {σ : Type} [TeamSource σ] {o : Options} {sides : List Side}
    {r : Roster} {teams : σ} {set : NewGame σ} (started : newGame o sides r teams = .ok set)
    (slot : Slot) : (set.roster.player slot).upgrades = ∅ := by
  have seated : ∀ slot, ((seatAll o sides initial).player slot).upgrades = ∅ :=
    forall_player_seatAll (P := fun p => p.upgrades = ∅) (fun _ _ none => none) rfl (fun _ => rfl)
      (fun _ none => none) o sides
  exact (view_newGame (fun _ _ => rfl) (fun _ _ _ => rfl) started slot).trans (seated slot)

namespace Game

/-! ## What commands do to the roster and to the registry -/

/-- Objects that are refused half-way have registered names all the same. -/
theorem growth_spawn (g : Game) (owner object : String) (names : List String) :
    Registry.Growth g.registry (g.spawn owner object names).2.registry := by
  unfold Game.spawn
  split
  · exact .refl _
  · split <;> next built => exact growth_buildModules built

theorem roster_spawn (g : Game) (owner object : String) (names : List String) :
    (g.spawn owner object names).2.roster = g.roster := by
  rcases spawn_cases g owner object names with
    ⟨e, registry, refused⟩ | ⟨slot, modules, registry, -, -, -, spawned⟩
  · rw [refused]
  · rw [spawned]

/-- Unless a game is set up or restored, commands leave the frame of the roster alone. -/
theorem rosterFrame_step (files : Files) (g : Game) {c : Command} (going : c ≠ .newGame)
    (unrestored : c.isRestore = false) : (g.step files c).2.roster.frame = g.roster.frame := by
  cases c with
  | newGame => exact absurd rfl going
  | restore text => cases unrestored
  | spawn owner object modules => exact congrArg Roster.frame (roster_spawn g owner object modules)
  | _ => exact (of_frame_eq (frame_step files g rfl)).1

theorem rosterFrame_run {commands : List (Files × Command)}
    (going : ∀ command ∈ commands, command.2 ≠ .newGame ∧ command.2.isRestore = false)
    (g : Game) : (g.run commands).roster.frame = g.roster.frame := by
  induction commands generalizing g with
  | nil => rfl
  | cons command commands ih =>
      obtain ⟨this, unrestored⟩ := going command List.mem_cons_self
      exact (ih (fun other mem => going other (List.mem_cons_of_mem _ mem)) _).trans
        (rosterFrame_step command.1 g this unrestored)

/-- No command takes a name out of the registry. -/
theorem growth_step (files : Files) (g : Game) (c : Command) :
    Registry.Growth g.registry (g.step files c).2.registry := by
  have kept {g' : Game} (same : g'.registry = g.registry) :
      Registry.Growth g.registry g'.registry := same ▸ .refl _
  have unchanged {c : Command} (passive : c.isPassive = true) :
      Registry.Growth g.registry (g.step files c).2.registry := by
    obtain ⟨options, sides, blueprints, after⟩ := step_of_passive files g passive
    exact kept (by rw [after])
  cases c with
  | newGame =>
      refine kept ?_
      change g.newGame.2.registry = g.registry
      unfold Game.newGame
      split <;> rfl
  | spawn owner object names => exact growth_spawn g owner object names
  | grant player upgrade =>
      change Registry.Growth g.registry (g.grant player upgrade).2.registry
      rcases grant_cases g player upgrade with
        ⟨e, refused⟩ | ⟨slot, set, registry, -, registered, granted⟩
      · exact kept (by rw [refused])
      · rw [granted]
        exact Registry.growth_register registered
  | revoke player upgrade =>
      refine kept ?_
      change (g.revoke player upgrade).2.registry = g.registry
      rcases revoke_cases g player upgrade with ⟨e, refused⟩ | ⟨slot, set, -, -, revoked⟩
      · rw [refused]
      · rw [revoked]
  | restore text =>
      refine kept ?_
      rcases step_restore files g text with ⟨record, -, fits, accepted⟩ | refused
      · rw [accepted, takeOver_of_fits fits]
      · rw [refused]
  | _ => exact unchanged rfl

/-- A registry only grows along a run. -/
theorem growth_run (g : Game) (commands : List (Files × Command)) :
    Registry.Growth g.registry (g.run commands).registry := by
  induction commands generalizing g with
  | nil => exact .refl _
  | cons command commands ih => exact (growth_step command.1 g command.2).trans (ih _)

theorem Reachable.registry {g : Game} (reachable : g.Reachable) : g.registry.Sound := by
  induction reachable with
  | start options => exact Registry.sound_empty
  | step files c earlier ih => exact (growth_step files _ c).sound ih

theorem run_append (g : Game) (earlier later : List (Files × Command)) :
    g.run (earlier ++ later) = (g.run earlier).run later := by
  induction earlier generalizing g with
  | nil => rfl
  | cons command earlier ih => exact ih _

/-! ## What commands do to the players -/

/-- The names of the upgrades that a player holds. -/
def heldNames (g : Game) (slot : Slot) : List String :=
  g.registry.namesIn (g.roster.player slot).upgrades

/-- A game in which whatever is held has one name. -/
structure Registered (g : Game) : Prop where
  registry : g.registry.Sound
  named : ∀ slot, g.registry.Names (g.roster.player slot).upgrades

namespace Registered

variable {g : Game}

/-- Names that are added while nobody gains or loses anything. -/
theorem grown (registered : g.Registered) {g' : Game}
    (growth : Registry.Growth g.registry g'.registry) (same : g'.roster = g.roster) :
    g'.Registered ∧ ∀ slot, g'.heldNames slot = g.heldNames slot := by
  refine ⟨⟨growth.sound registered.registry, fun slot => ?_⟩, fun slot => ?_⟩
  · rw [same]
    exact growth.later.names (registered.named slot)
  · rw [heldNames, same]
    exact growth.later.namesIn (registered.named slot)

/-- A grant that is carried out adds its upgrade to what the player holds. -/
theorem grant (registered : g.Registered) (player upgrade : String) :
    (g.grant player upgrade).2.Registered ∧ ∀ slot other,
      other ∈ (g.grant player upgrade).2.heldNames slot ↔
        (g.resolve player = .ok slot ∧ (∃ fired, (g.grant player upgrade).1 = .ok fired) ∧
          other = upgrade) ∨ other ∈ g.heldNames slot := by
  rcases grant_cases g player upgrade with
    ⟨e, refused⟩ | ⟨given, set, registry, resolved, accepted, granted⟩
  · rw [refused]
    exact ⟨registered, by simp⟩
  · have growth := Registry.growth_register accepted
    have marks := Registry.marks_of_register accepted
    have older slot := growth.later.names (registered.named slot)
    rw [granted]
    refine ⟨⟨growth.sound registered.registry, fun slot => ?_⟩, fun slot other => ?_⟩
    · rw [Roster.player_modify]
      split
      · exact (older given).union marks
      · exact older slot
    · rw [heldNames, Roster.player_modify]
      split
      · next here =>
          subst here
          rw [Player.addUpgrades, marks.mem_namesIn_union,
            growth.later.namesIn (registered.named given)]
          simp [resolved, heldNames]
      · next apart =>
          rw [growth.later.namesIn (registered.named slot)]
          simp [resolved, apart, heldNames]

/-- A revocation that is carried out takes its upgrade from what the player holds. -/
theorem revoke (registered : g.Registered) (player upgrade : String) :
    (g.revoke player upgrade).2.Registered ∧ ∀ slot other,
      other ∈ (g.revoke player upgrade).2.heldNames slot ↔
        other ∈ g.heldNames slot ∧
          ¬ (g.resolve player = .ok slot ∧ (∃ lost, (g.revoke player upgrade).1 = .ok lost) ∧
            other = upgrade) := by
  rcases revoke_cases g player upgrade with ⟨e, refused⟩ |
    ⟨taken, set, resolved, found, done⟩
  · rw [refused]
    exact ⟨registered, by simp⟩
  · have marks := Registry.marks_of_find? found
    rw [done]
    refine ⟨⟨registered.registry, fun slot => ?_⟩, fun slot other => ?_⟩
    · rw [Roster.player_modify]
      split
      · exact (registered.named taken).sdiff set
      · exact registered.named slot
    · rw [heldNames, Roster.player_modify]
      split
      · next here =>
          subst here
          rw [Player.removeUpgrades, marks.mem_namesIn_sdiff registered.registry]
          simp [resolved, heldNames, and_comm]
      · next apart => simp [resolved, apart, heldNames]

/-- A new game that is begun takes everything, and registers nothing. -/
theorem newGame (registered : g.Registered) :
    g.newGame.2.Registered ∧ ∀ slot other,
      other ∈ g.newGame.2.heldNames slot ↔
        other ∈ g.heldNames slot ∧ g.newGame.1 ≠ .ok () := by
  unfold Game.newGame
  split
  · next set begun =>
      have none := Roster.upgrades_newGame begun
      refine ⟨⟨registered.registry, fun slot => ?_⟩, fun slot other => ?_⟩
      · dsimp only
        rw [none]
        exact fun place mem => absurd mem (UpgradeSet.not_mem_empty place)
      · rw [heldNames]
        dsimp only
        rw [none]
        simp [Registry.mem_namesIn]
  · exact ⟨⟨registered.registry, registered.named⟩, by simp [heldNames]⟩

end Registered

end Game

/-! ## Histories of upgrades -/

/-- A turn in which a new game is begun. -/
def Turn.Begins (turn : Turn) : Prop :=
  turn.command = .newGame ∧ turn.game.newGame.1 = .ok ()

theorem Turn.gives_grant {g : Game} {files : Files} {player upgrade other : String} {slot : Slot} :
    Turn.Gives ⟨g, files, .grant player upgrade⟩ slot other ↔
      g.resolve player = .ok slot ∧ (∃ fired, (g.grant player upgrade).1 = .ok fired) ∧
        other = upgrade := by
  constructor
  · rintro ⟨player, fired, same, resolved, done⟩
    cases same
    exact ⟨resolved, ⟨fired, done⟩, rfl⟩
  · rintro ⟨resolved, ⟨fired, done⟩, rfl⟩
    exact ⟨player, fired, rfl, resolved, done⟩

theorem Turn.takes_revoke {g : Game} {files : Files} {player upgrade other : String}
    {slot : Slot} :
    Turn.Takes ⟨g, files, .revoke player upgrade⟩ slot other ↔
      g.resolve player = .ok slot ∧ (∃ lost, (g.revoke player upgrade).1 = .ok lost) ∧
        other = upgrade := by
  constructor
  · rintro ⟨player, lost, same, resolved, done⟩
    cases same
    exact ⟨resolved, ⟨lost, done⟩, rfl⟩
  · rintro ⟨resolved, ⟨lost, done⟩, rfl⟩
    exact ⟨player, lost, rfl, resolved, done⟩

/--
Some turn has given an upgrade to a player, and since then it has not been taken
back and no new game has been begun.
-/
def LastGiven (turns : List Turn) (slot : Slot) (upgrade : String) : Prop :=
  ∃ before turn after, turns = before ++ turn :: after ∧ turn.Gives slot upgrade ∧
    ∀ later ∈ after, ¬ later.Takes slot upgrade ∧ ¬ later.Begins

theorem not_lastGiven_nil (slot : Slot) (upgrade : String) : ¬ LastGiven [] slot upgrade :=
  not_lastSuch_nil

theorem lastGiven_concat {turns : List Turn} {turn : Turn} {slot : Slot} {upgrade : String} :
    LastGiven (turns ++ [turn]) slot upgrade ↔ turn.Gives slot upgrade ∨
      (LastGiven turns slot upgrade ∧ ¬ turn.Takes slot upgrade ∧ ¬ turn.Begins) :=
  lastSuch_concat

namespace Game

/--
A turn without a restore adds to what a player holds what it gives, and takes away
what it takes; a turn that begins a new game takes everything.
-/
theorem Registered.turn (turn : Turn) (registered : turn.game.Registered)
    (unrestored : turn.command.isRestore = false) :
    turn.next.Registered ∧ ∀ slot upgrade, upgrade ∈ turn.next.heldNames slot ↔
      turn.Gives slot upgrade ∨
        (upgrade ∈ turn.game.heldNames slot ∧ ¬ turn.Takes slot upgrade ∧
          ¬ turn.Begins) := by
  obtain ⟨g, files, c⟩ := turn
  have unchanged (same : (g.step files c).2.roster = g.roster) :
      (Turn.next ⟨g, files, c⟩).Registered ∧ ∀ slot upgrade,
        upgrade ∈ (Turn.next ⟨g, files, c⟩).heldNames slot ↔
          upgrade ∈ g.heldNames slot := by
    obtain ⟨after, held⟩ := registered.grown (growth_step files g c) same
    exact ⟨after, fun slot upgrade => by rw [Turn.next, held]⟩
  cases c with
  | newGame =>
      obtain ⟨after, held⟩ := registered.newGame
      refine ⟨after, fun slot upgrade => (held slot upgrade).trans ?_⟩
      simp [Turn.Gives, Turn.Takes, Turn.Begins]
  | grant player upgrade =>
      obtain ⟨after, held⟩ := registered.grant player upgrade
      refine ⟨after, fun slot other => (held slot other).trans ?_⟩
      simp [Turn.gives_grant, Turn.Takes, Turn.Begins]
  | revoke player upgrade =>
      obtain ⟨after, held⟩ := registered.revoke player upgrade
      refine ⟨after, fun slot other => (held slot other).trans ?_⟩
      simp [Turn.Gives, Turn.takes_revoke, Turn.Begins]
  | restore text => cases unrestored
  | spawn owner object modules =>
      simpa [Turn.Gives, Turn.Takes, Turn.Begins] using
        unchanged (roster_spawn g owner object modules)
  | _ =>
      simpa [Turn.Gives, Turn.Takes, Turn.Begins] using unchanged (state_step files g rfl).1

/-- What players hold after a run is what the turns of the run have left them with. -/
theorem Registered.run {g : Game} {earlier : List Turn} (registered : g.Registered)
    (held : ∀ slot upgrade, upgrade ∈ g.heldNames slot ↔ LastGiven earlier slot upgrade)
    {commands : List (Files × Command)}
    (unrestored : ∀ command ∈ commands, command.2.isRestore = false) :
    (g.run commands).Registered ∧ ∀ slot upgrade,
      upgrade ∈ (g.run commands).heldNames slot ↔
        LastGiven (earlier ++ g.turns commands) slot upgrade := by
  -- the turns of the run are added to the earlier ones, so these are not fixed
  induction commands generalizing g earlier with
  | nil =>
      rw [turns, List.append_nil]
      exact ⟨registered, held⟩
  | cons command commands ih =>
      rw [List.forall_mem_cons] at unrestored
      obtain ⟨files, c⟩ := command
      obtain ⟨after, law⟩ := Registered.turn ⟨g, files, c⟩ registered unrestored.1
      rw [turns, List.append_cons]
      refine ih after (fun slot upgrade => ?_) unrestored.2
      rw [lastGiven_concat, ← held]
      exact law slot upgrade

/-- Nobody holds anything at the start. -/
theorem upgrades_start (options : Options) (slot : Slot) :
    (({ options } : Game).roster.player slot).upgrades = ∅ :=
  Roster.forall_player_initial (P := fun p => p.upgrades = ∅) (fun _ _ none => none) rfl slot

/-- What players hold in a session without restores. -/
theorem held_run (options : Options) {commands : List (Files × Command)}
    (unrestored : ∀ command ∈ commands, command.2.isRestore = false) :
    (Game.run { options } commands).Registered ∧ ∀ slot upgrade,
      upgrade ∈ (Game.run { options } commands).heldNames slot ↔
        LastGiven (turns { options } commands) slot upgrade := by
  have registered : Registered { options } := by
    refine ⟨Registry.sound_empty, fun slot place mem => ?_⟩
    rw [upgrades_start] at mem
    exact absurd mem (UpgradeSet.not_mem_empty place)
  have held slot upgrade :
      upgrade ∈ heldNames { options } slot ↔ LastGiven [] slot upgrade := by
    refine iff_of_false ?_ (not_lastGiven_nil slot upgrade)
    simp [heldNames, Registry.mem_namesIn]
  exact registered.run held unrestored

/--
Without restores a player holds exactly the upgrades that it was given last and has
not lost since.  There are at most as many names as places, all different; each
keeps its place for the whole run, and nobody holds a place without a name.
-/
theorem held_by_history (options : Options) {commands : List (Files × Command)}
    (unrestored : ∀ command ∈ commands, command.2.isRestore = false) :
    let start : Game := { options }
    let g := start.run commands
    (∀ slot upgrade, upgrade ∈ g.registry.namesIn (g.roster.player slot).upgrades ↔
      LastGiven (start.turns commands) slot upgrade) ∧
    g.registry.names.length ≤ 128 ∧ g.registry.names.Nodup ∧
    (∀ slot, ∀ place ∈ (g.roster.player slot).upgrades, place < g.registry.names.length) ∧
    ∀ earlier later, commands = earlier ++ later →
      (start.run earlier).registry.names <+: g.registry.names ∧
      ∀ name set, (start.run earlier).registry.find? name = some set →
        g.registry.find? name = some set := by
  intro start g
  obtain ⟨registered, law⟩ := held_run options unrestored
  refine ⟨law, registered.registry.bounded, registered.registry.distinct, registered.named, ?_⟩
  rintro earlier later rfl
  have growth := growth_run (start.run earlier) later
  rw [← run_append] at growth
  exact ⟨growth.later, fun name set => growth.later.find?⟩

/-- Two seasons of the neutral player, the second of which ends without the iron. -/
def seasons : List (Files × Command) :=
  [.grant "-" "Oak", .newGame, .grant "-" "Iron", .grant "-" "Oak", .spawn "-" "Mill" ["Saw"],
    .revoke "-" "Iron"].map ({ find := fun _ => .error .missing }, ·)

/-- Oak and iron have been given, and the iron has been taken back. -/
theorem held_by_history_seasons :
    let start : Game := {}
    let g := start.run seasons
    (∀ command ∈ seasons, command.2.isRestore = false) ∧
      g.registry.names = ["Oak", "Iron"] ∧ g.heldNames 0 = ["Oak"] ∧
      LastGiven (start.turns seasons) 0 "Oak" ∧ ¬ LastGiven (start.turns seasons) 0 "Iron" := by
  intro start g
  have unrestored : ∀ command ∈ seasons, command.2.isRestore = false := by decide
  have held : g.heldNames 0 = ["Oak"] := by decide +kernel
  obtain ⟨law, -⟩ := held_by_history {} unrestored
  have law upgrade : upgrade ∈ g.heldNames 0 ↔ LastGiven (start.turns seasons) 0 upgrade :=
    law 0 upgrade
  simp only [held, List.mem_singleton] at law
  exact ⟨unrestored, by decide +kernel, held, (law "Oak").mp rfl,
    fun given => absurd ((law "Iron").mpr given) (by decide)⟩

end Game

end BattleRoster
