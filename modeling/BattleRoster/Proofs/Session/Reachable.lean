import BattleRoster.Proofs.Roster.Commanders
import BattleRoster.Proofs.Session.QuietCommands
import BattleRoster.Proofs.Session.Restore

/-!
# Reachable games

Between commands no module is firing, and the roster is sound.  Every command
keeps this, restoring whatever a client sends included, so it holds of every
game that commands lead to.
-/

namespace BattleRoster

/-- Whether no module of an object is firing. -/
def Bearer.Idle (b : Bearer) : Prop :=
  ∀ m ∈ b.modules, m.gate.upgrading = false

/-- A game between commands. -/
structure Game.Sound (g : Game) : Prop where
  roster : g.roster.Sound
  idle : ∀ b ∈ g.objects, b.Idle

/-- The games that commands lead to, with any files to read. -/
inductive Game.Reachable : Game → Prop where
  | start (options : Options) : Reachable { options }
  | step {g : Game} (files : Files) (c : Command) (earlier : Reachable g) :
      Reachable (g.step files c).2

theorem Game.Reachable.run {g : Game} (reachable : g.Reachable)
    (commands : List (Files × Command)) : (g.run commands).Reachable := by
  induction commands generalizing g with
  | nil => exact reachable
  | cons command commands ih => exact ih (.step command.1 command.2 reachable)

/-! ## What the frame tells -/

theorem Bearer.Idle.of_frame {b b' : Bearer} (idle : b.Idle) (same : b'.frame = b.frame) :
    b'.Idle := by
  intro m mem
  have listed : m.unfired ∈ b.modules.map Module.unfired :=
    Bearer.modules_of_frame_eq same ▸ List.mem_map_of_mem mem
  obtain ⟨earlier, among, unfired⟩ := List.mem_map.mp listed
  have upgrading : earlier.gate.upgrading = m.gate.upgrading :=
    (congrArg (fun m : Module => m.gate.upgrading) unfired :)
  rw [← upgrading]
  exact idle earlier among

theorem Roster.Sound.of_frame {r r' : Roster} (sound : r.Sound) (same : r'.frame = r.frame) :
    r'.Sound := by
  obtain ⟨count, -, -, players, -⟩ := of_frame_eq same
  refine ⟨count ▸ sound.count, fun slot => ?_⟩
  have controller : (r'.player slot).controller = (r.player slot).controller :=
    (congrArg Player.controller (players slot) :)
  have commander : (r'.player slot).commander = (r.player slot).commander :=
    (congrArg Player.commander (players slot) :)
  rw [Player.Commanded, controller, commander]
  exact sound.commanded slot

namespace Game

theorem Sound.of_frame {g g' : Game} (sound : g.Sound) (same : g'.frame = g.frame) :
    g'.Sound := by
  obtain ⟨roster, objects⟩ := of_frame_eq same
  refine ⟨sound.roster.of_frame roster, fun b mem => ?_⟩
  have listed : b.frame ∈ g.objects.map Bearer.frame :=
    objects ▸ List.mem_map_of_mem mem
  obtain ⟨earlier, among, frame⟩ := List.mem_map.mp listed
  exact (sound.idle earlier among).of_frame frame.symm

/-! ## Commands that are not quiet -/

theorem Sound.newGame {g : Game} (sound : g.Sound) : g.newGame.2.Sound := by
  unfold Game.newGame
  split
  · next set started => exact ⟨Roster.sound_newGame started, by simp⟩
  · exact ⟨sound.roster, by simp⟩

/-- A module has the name of its blueprint; it is built idle, and it has not fired. -/
theorem built_module {blueprint : Blueprint} {r r' : Registry} {m : Module}
    (built : Module.build blueprint r = (.ok m, r')) :
    m.name = blueprint.name ∧ m.gate.executed = false ∧ m.gate.upgrading = false := by
  unfold Module.build at built
  split at built
  · cases built
  · split at built
    · cases built
    · split at built <;> cases built
      exact ⟨rfl, rfl, rfl⟩

theorem built_modules {known : List Blueprint} {names : List String} {r r' : Registry}
    {modules : List Module} (built : buildModules known names r = (.ok modules, r')) :
    modules.map Module.name = names ∧
      ∀ m ∈ modules, m.gate.executed = false ∧ m.gate.upgrading = false := by
  induction names generalizing r r' modules with
  | nil =>
      cases built
      simp
  | cons name names ih =>
      unfold buildModules at built
      split at built
      · cases built
      · next blueprint found =>
          split at built
          · cases built
          · next first =>
              split at built
              · cases built
              · next rest =>
                  cases built
                  have named : blueprint.name = name := by
                    simpa using List.find?_some found
                  obtain ⟨firstNamed, firstFresh⟩ := built_module first
                  obtain ⟨restNamed, restFresh⟩ := ih rest
                  rw [List.map_cons, List.forall_mem_cons, firstNamed, named, restNamed]
                  exact ⟨rfl, firstFresh, restFresh⟩

/--
A spawn is refused, or its modules are built from the known blueprints, and a player gets
a new object with these modules, which is evaluated at once.
-/
theorem spawn_built (g : Game) (owner object : String) (names : List String) :
    (∃ e registry, g.spawn owner object names = (.error e, { g with registry })) ∨
    ∃ slot modules registry, g.resolve owner = .ok slot ∧
      buildModules g.blueprints names g.registry = (.ok modules, registry) ∧
      g.spawn owner object names =
        (.ok (Bearer.update { name := object, owner := slot, modules }
          (g.roster.player slot).upgrades).1,
        { g with
          registry
          objects := g.objects ++ [(Bearer.update { name := object, owner := slot, modules }
            (g.roster.player slot).upgrades).2] }) := by
  unfold Game.spawn
  split
  · next e _ => exact .inl ⟨e, g.registry, rfl⟩
  · next slot resolved =>
      split
      · next e registry _ => exact .inl ⟨e, registry, rfl⟩
      · next modules registry built =>
          exact .inr ⟨slot, modules, registry, resolved, built, rfl⟩

/--
A spawn is refused, or an active player gets a new object with the modules that
were asked for, none of which has fired, and the object is evaluated at once.
-/
theorem spawn_cases (g : Game) (owner object : String) (names : List String) :
    (∃ e registry, g.spawn owner object names = (.error e, { g with registry })) ∨
    ∃ slot modules registry, g.resolve owner = .ok slot ∧ modules.map Module.name = names ∧
      (∀ m ∈ modules, m.gate.executed = false ∧ m.gate.upgrading = false) ∧
      g.spawn owner object names =
        (.ok (Bearer.update { name := object, owner := slot, modules }
          (g.roster.player slot).upgrades).1,
        { g with
          registry
          objects := g.objects ++ [(Bearer.update { name := object, owner := slot, modules }
            (g.roster.player slot).upgrades).2] }) := by
  rcases spawn_built g owner object names with
    refused | ⟨slot, modules, registry, resolved, built, spawned⟩
  · exact .inl refused
  · obtain ⟨named, fresh⟩ := built_modules built
    exact .inr ⟨slot, modules, registry, resolved, named, fresh, spawned⟩

theorem Sound.spawn {g : Game} (sound : g.Sound) (owner object : String) (names : List String) :
    (g.spawn owner object names).2.Sound := by
  rcases spawn_cases g owner object names with
    ⟨e, registry, refused⟩ | ⟨slot, modules, registry, -, -, fresh, spawned⟩
  · rw [refused]
    exact ⟨sound.roster, sound.idle⟩
  · rw [spawned]
    refine ⟨sound.roster, fun b mem => ?_⟩
    rcases List.mem_append.mp mem with mem | mem
    · exact sound.idle b mem
    · obtain rfl := List.mem_singleton.mp mem
      have idle : Bearer.Idle { name := object, owner := slot, modules } :=
        fun m among => (fresh m among).2
      exact idle.of_frame (Bearer.frame_update _ _)

/-- A gate that takes over a saved state is not firing. -/
theorem idle_resume (b : Bearer) (record : ObjectRecord) : (b.resume record).Idle := by
  intro m mem
  obtain ⟨i, lt, rfl⟩ := List.mem_iff_getElem.mp mem
  simp [Bearer.resume, Module.resume]

theorem Sound.takeOver {g : Game} (sound : g.Sound) (record : GameRecord) :
    (g.takeOver record).2.Sound := by
  rcases fits_or_fault g record with fits | ⟨e, fault⟩
  · rw [takeOver_of_fits fits]
    refine ⟨sound.roster.withRecords _, fun b mem => ?_⟩
    obtain ⟨i, lt, rfl⟩ := List.mem_iff_getElem.mp mem
    simp only [List.getElem_zipWith]
    exact idle_resume _ _
  · rw [takeOver_of_fault fault]
    exact sound

/-! ## Every command -/

/-- A request to restore takes over a saved game that fits, or it is refused and changes nothing. -/
theorem step_restore (files : Files) (g : Game) (text : String) :
    (∃ record, GameRecord.read? text = some record ∧ record.Fits g ∧
      g.step files (.restore text) = (.responses [.restored], (g.takeOver record).2)) ∨
    (g.step files (.restore text)).2 = g := by
  unfold step
  dsimp only
  split
  · exact .inr rfl
  · next record read =>
      rcases fits_or_fault g record with fits | ⟨e, fault⟩
      · refine .inl ⟨record, read, fits, ?_⟩
        rw [takeOver_of_fits fits]
        rfl
      · rw [takeOver_of_fault fault]
        exact .inr rfl

theorem Sound.step {g : Game} (sound : g.Sound) (files : Files) (c : Command) :
    (g.step files c).2.Sound := by
  cases c with
  | newGame => exact sound.newGame
  | spawn owner object modules => exact sound.spawn owner object modules
  | restore text =>
      rcases step_restore files g text with ⟨record, -, -, accepted⟩ | refused
      · rw [accepted]
        exact sound.takeOver record
      · rw [refused]
        exact sound
  | _ => exact sound.of_frame (frame_step files g rfl)

/-- Every game that commands lead to is sound. -/
theorem Reachable.sound {g : Game} (reachable : g.Reachable) : g.Sound := by
  induction reachable with
  | start options => exact ⟨Roster.sound_initial, by simp⟩
  | step files c earlier ih => exact ih.step files c

end Game

end BattleRoster
