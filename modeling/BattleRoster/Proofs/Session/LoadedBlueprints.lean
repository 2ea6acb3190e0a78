import BattleRoster.Proofs.Session.RecordText
import BattleRoster.Proofs.Session.RefusedSpawns
import BattleRoster.Proofs.Upgrade.LastBlueprints

/-!
# Blueprints that were loaded

Blueprints are loaded file by file, and a file that cannot be read changes nothing.  So at
any time the known blueprints are the last ones of their names in all files that could be
read until then.  Objects are built from these, and later files do not change an object.
-/

namespace BattleRoster

open Blueprint (LastNamed LastBefore LastOfEach)

/-! ## Reading -/

/-- A text is read as blueprints if it is an array of them. -/
theorem Blueprint.readAll_eq_ok_iff {text : String} {blueprints : List Blueprint} :
    readAll text = .ok blueprints ↔ ∃ items, Json.Value.read? text = some (.array items) ∧
      List.Forall₂ (fun item b => decode item = some b) items blueprints := by
  have taken : readAll text = .ok blueprints ↔
      (Json.Value.read? text).bind (Json.Decoder.list decode) = some blueprints := by
    unfold readAll
    split <;> simp [*]
  rw [taken, Option.bind_eq_some_iff]
  simp only [Json.Decoder.list_eq_some_iff]
  constructor
  · rintro ⟨v, read, items, rfl, each⟩
    exact ⟨items, read, each⟩
  · rintro ⟨items, read, each⟩
    exact ⟨_, read, items, rfl, each⟩

/-- The blueprints in a file, or why they cannot be read. -/
def Files.readBlueprints (files : Files) (path : String) : Except GameError (List Blueprint) :=
  match files.readText path with
  | .error why => .error (.unreadable path why)
  | .ok text => (Blueprint.readAll text).mapError .upgrade

/-- The blueprints in a file are the items of the array in it. -/
theorem Files.readBlueprints_eq_ok_iff {files : Files} {path : String}
    {blueprints : List Blueprint} : files.readBlueprints path = .ok blueprints ↔
      ∃ text items, files.readText path = .ok text ∧
        Json.Value.read? text = some (.array items) ∧
        List.Forall₂ (fun item b => Blueprint.decode item = some b) items blueprints := by
  unfold readBlueprints
  cases found : files.readText path with
  | error why => simp
  | ok text =>
      have read : (Blueprint.readAll text).mapError GameError.upgrade = .ok blueprints ↔
          Blueprint.readAll text = .ok blueprints := by
        cases Blueprint.readAll text <;> simp [Except.mapError]
      dsimp only
      rw [read, Blueprint.readAll_eq_ok_iff]
      simp

/-- The blueprints that a command loads. -/
def Command.loaded (files : Files) : Command → List Blueprint
  | .loadBlueprints path => (files.readBlueprints path).toOption.getD []
  | _ => []

/-- The blueprints of all files that the commands of a run have loaded. -/
def loadedBy (commands : List (Files × Command)) : List Blueprint :=
  commands.flatMap fun command => command.2.loaded command.1

namespace Game

variable {g : Game} {files : Files} {path : String}

/-! ## Loading -/

theorem loadBlueprints_eq (g : Game) (files : Files) (path : String) :
    g.loadBlueprints files path = (files.readBlueprints path).map fun blueprints =>
      (blueprints.length,
        { g with blueprints := blueprints.foldl registerBlueprint g.blueprints }) := by
  unfold loadBlueprints Files.readBlueprints
  cases files.readText path with
  | error why => rfl
  | ok text =>
      dsimp only
      cases Blueprint.readAll text <;> rfl

theorem step_load_refused {e : GameError} (unread : files.readBlueprints path = .error e) :
    g.step files (.loadBlueprints path) =
      (.responses [.refused e (files.wordsAt .blueprints path)], g) := by
  simp only [step, loadBlueprints_eq, unread]
  rfl

theorem step_load {blueprints : List Blueprint}
    (read : files.readBlueprints path = .ok blueprints) :
    g.step files (.loadBlueprints path) = (.responses [.blueprintsLoaded blueprints.length],
      { g with blueprints := blueprints.foldl registerBlueprint g.blueprints }) := by
  simp only [step, loadBlueprints_eq, read]
  rfl

/-- A command registers the blueprints that it loads, and that is all that it does to them. -/
theorem blueprints_step (files : Files) (g : Game) (c : Command) :
    (g.step files c).2.blueprints = (c.loaded files).foldl registerBlueprint g.blueprints := by
  cases c with
  | handshake | ping | clearSides | listSides | listPlayers | stance player other
  | mask source filter | save | quit => rfl
  | setOption name value =>
      unfold step
      dsimp only
      cases g.options.set name value <;> rfl
  | addSide line =>
      unfold step addSide
      dsimp only
      cases Side.parse line <;> rfl
  | loadSides path =>
      unfold step loadSides
      dsimp only
      cases Side.loadAll files path <;> rfl
  | newGame =>
      change g.newGame.2.blueprints = g.blueprints
      unfold newGame
      split <;> rfl
  | loadBlueprints path =>
      cases read : files.readBlueprints path with
      | error e =>
          rw [step_load_refused read, Command.loaded, read]
          rfl
      | ok blueprints =>
          rw [step_load read, Command.loaded, read]
          rfl
  | spawn owner object names =>
      change (g.spawn owner object names).2.blueprints = g.blueprints
      rcases spawn_built g owner object names with
        ⟨e, registry, refused⟩ | ⟨slot, modules, registry, -, -, spawned⟩
      · rw [refused]
      · rw [spawned]
  | grant player upgrade =>
      change (g.grant player upgrade).2.blueprints = g.blueprints
      rcases grant_cases g player upgrade with
        ⟨e, refused⟩ | ⟨slot, set, registry, -, -, granted⟩
      · rw [refused]
      · rw [granted]
  | revoke player upgrade =>
      change (g.revoke player upgrade).2.blueprints = g.blueprints
      rcases revoke_cases g player upgrade with ⟨e, refused⟩ | ⟨slot, set, -, -, revoked⟩
      · rw [refused]
      · rw [revoked]
  | restore text =>
      change (g.step files (.restore text)).2.blueprints = g.blueprints
      rcases step_restore files g text with ⟨record, -, fits, accepted⟩ | refused
      · rw [accepted, takeOver_of_fits fits]
      · rw [refused]

/-- A run registers all that its commands load. -/
theorem blueprints_run (g : Game) (commands : List (Files × Command)) :
    (g.run commands).blueprints = (loadedBy commands).foldl registerBlueprint g.blueprints := by
  induction commands generalizing g with
  | nil => rfl
  | cons command commands ih =>
      obtain ⟨files, c⟩ := command
      rw [run, ih, blueprints_step, loadedBy, loadedBy, List.flatMap_cons, List.foldl_append]

theorem lastOfEach_run (options : Options) (commands : List (Files × Command)) :
    LastOfEach (loadedBy commands) (run { options } commands).blueprints := by
  rw [blueprints_run]
  exact LastOfEach.nil.registerAll (loadedBy commands)

end Game

/-! ## Objects -/

/-- Whether a module has fired is no part of what its blueprint describes. -/
theorem Module.Realizes.of_unfired {r : Registry} {b : Blueprint} {m m' : Module}
    (realizes : m.Realizes r b) (same : m'.unfired = m.unfired) : m'.Realizes r b := by
  have gate : m'.gate.unfired = m.gate.unfired := (congrArg Module.gate same :)
  have triggers : m'.gate.triggers = m.gate.triggers := (congrArg Gate.triggers gate :)
  have conflicts : m'.gate.conflicts = m.gate.conflicts := (congrArg Gate.conflicts gate :)
  have removes : m'.gate.removes = m.gate.removes := (congrArg Gate.removes gate :)
  have needsAll : m'.gate.needsAll = m.gate.needsAll := (congrArg Gate.needsAll gate :)
  exact {
    name := (congrArg Module.name same :).trans realizes.name
    triggers := by rw [triggers, realizes.triggers]
    conflicts := by rw [conflicts, realizes.conflicts]
    removes := by rw [removes, realizes.removes]
    needsAll := needsAll.trans realizes.needsAll
    cue := (congrArg Module.cue same :).trans realizes.cue
    status := (congrArg Module.status same :).trans realizes.status }

namespace Bearer

variable {r r' : Registry} {read : List Blueprint} {names : List String} {b b' : Bearer}

/-- The modules of an object realize the last blueprints of some names. -/
def Realizes (r : Registry) (read : List Blueprint) (names : List String) (b : Bearer) : Prop :=
  List.Forall₂ (fun name m => ∃ blueprint, LastNamed read name blueprint ∧
    m.Realizes r blueprint) names b.modules

theorem Realizes.of_frame (realizes : b.Realizes r read names) (same : b'.frame = b.frame) :
    b'.Realizes r read names := by
  have unfired : List.Forall₂ (fun name m => ∃ blueprint, LastNamed read name blueprint ∧
      Module.Realizes r blueprint m) names (b'.modules.map Module.unfired) := by
    rw [modules_of_frame_eq same]
    apply List.forall₂_map_right_iff.mpr
    exact realizes.imp fun _ _ ⟨blueprint, last, realized⟩ =>
      ⟨blueprint, last, realized.of_unfired rfl⟩
  exact (List.forall₂_map_right_iff.mp unfired).imp fun _ _ ⟨blueprint, last, realized⟩ =>
    ⟨blueprint, last, realized.of_unfired rfl⟩

theorem Realizes.later (realizes : b.Realizes r read names) (extension : r'.Extends r) :
    b.Realizes r' read names :=
  realizes.imp fun _ _ ⟨blueprint, last, realized⟩ =>
    ⟨blueprint, last, realized.later extension⟩

end Bearer

namespace Game

/-- A spawn is refused, or it adds an object that realizes the last blueprints. -/
theorem realizes_spawn {g : Game} {read : List Blueprint} (each : LastOfEach read g.blueprints)
    (sound : g.registry.Sound) (owner object : String) (names : List String) :
    (∃ e registry, g.spawn owner object names = (.error e, { g with registry })) ∨
    ∃ fired spawned registry, g.spawn owner object names =
        (.ok fired, { g with registry, objects := g.objects ++ [spawned] }) ∧
      spawned.name = object ∧ spawned.Realizes registry read names := by
  rcases spawn_built g owner object names with
    refused | ⟨slot, modules, registry, -, built, spawned⟩
  · exact .inl refused
  · refine .inr ⟨_, _, registry, spawned, Bearer.name_update _ _, ?_⟩
    have realizes : Bearer.Realizes registry read names
        { name := object, owner := slot, modules } :=
      (realizes_buildModules sound built).imp fun _ _ ⟨blueprint, found, realized⟩ =>
        ⟨blueprint, each.find?_eq_some_iff.mp found, realized⟩
    exact realizes.of_frame (Bearer.frame_update _ _)

/-- What a spawn adds realizes the last blueprints. -/
theorem realizes_of_added {g : Game} {files : Files} {read : List Blueprint}
    (each : LastOfEach read g.blueprints) (sound : g.registry.Sound) {owner object : String}
    {names : List String} {spawned : Bearer}
    (added : (g.step files (.spawn owner object names)).2.objects = g.objects ++ [spawned]) :
    spawned.Realizes (g.step files (.spawn owner object names)).2.registry read names := by
  change (g.spawn owner object names).2.objects = _ at added
  change spawned.Realizes (g.spawn owner object names).2.registry read names
  rcases realizes_spawn each sound owner object names with
    ⟨e, registry, refused⟩ | ⟨fired, made, registry, done, -, realizes⟩
  · simp [refused] at added
  · rw [done, List.append_cancel_left_eq] at added
    cases added
    rwa [done]

/-- An object was there before with the same frame, or a spawn has just added it. -/
theorem kept_or_spawned (files : Files) {g : Game} (sound : g.Sound) {c : Command} {b : Bearer}
    (mem : b ∈ (g.step files c).2.objects) :
    (∃ b' ∈ g.objects, b.frame = b'.frame) ∨
      ∃ owner object names, c = .spawn owner object names ∧
        (g.step files c).2.objects = g.objects ++ [b] := by
  have kept {g' : Game} (mem : b ∈ g'.objects)
      (same : g'.objects.map Bearer.frame = g.objects.map Bearer.frame) :
      ∃ b' ∈ g.objects, b.frame = b'.frame := by
    have framed : b.frame ∈ g.objects.map Bearer.frame := same ▸ List.mem_map_of_mem mem
    obtain ⟨b', among, frame⟩ := List.mem_map.mp framed
    exact ⟨b', among, frame.symm⟩
  cases c with
  | newGame =>
      rw [objects_begun] at mem
      cases mem
  | spawn owner object names =>
      change b ∈ (g.spawn owner object names).2.objects at mem
      change _ ∨ ∃ owner' object' names', _ ∧ (g.spawn owner object names).2.objects = _
      rcases spawn_built g owner object names with
        ⟨e, registry, refused⟩ | ⟨slot, modules, registry, -, -, spawned⟩
      · rw [refused] at mem
        exact .inl ⟨b, mem, rfl⟩
      · rw [spawned] at mem ⊢
        rcases List.mem_append.mp mem with among | here
        · exact .inl ⟨b, among, rfl⟩
        · obtain rfl := List.mem_singleton.mp here
          exact .inr ⟨owner, object, names, rfl, rfl⟩
  | _ => exact .inl (kept mem (frames_step sound files nofun nofun))

/-- An object of a run was added by a spawn, and it has kept its frame since then. -/
theorem exists_spawn (options : Options) (commands : List (Files × Command)) {b : Bearer}
    (mem : b ∈ (run { options } commands).objects) :
    ∃ before files owner object names after spawned,
      commands = before ++ (files, .spawn owner object names) :: after ∧
      ((run { options } before).step files (.spawn owner object names)).2.objects =
        (run { options } before).objects ++ [spawned] ∧
      b.frame = spawned.frame := by
  induction commands using List.reverseRecOn generalizing b with
  | nil => cases mem
  | append_singleton commands command ih =>
      obtain ⟨files, c⟩ := command
      have sound := ((Reachable.start options).run commands).sound
      rw [run_append] at mem
      rcases kept_or_spawned files sound mem with
        ⟨b', among, same⟩ | ⟨owner, object, names, rfl, added⟩
      · obtain ⟨before, files', owner, object, names, after, spawned, rfl, added, kept⟩ :=
          ih among
        refine ⟨before, files', owner, object, names, after ++ [(files, c)], spawned, ?_, added,
          same.trans kept⟩
        rw [List.append_assoc, List.cons_append]
      · exact ⟨commands, files, owner, object, names, [], b, rfl, added, rfl⟩

/--
After any commands the known blueprints are those that were loaded last under their
names, in the order in which these were loaded, so their names are different and each
name leads to the last one.  A file can be read if its text is an array of blueprints.
One that cannot be read is refused and changes nothing; one that can be read is answered
with the number of its blueprints, and nothing but the blueprints changes.  A spawn is
refused if its owner is unknown, if there is no room for its upgrades, or if no blueprint
of a name was loaded; otherwise it adds an object whose modules are as the last blueprints
of their names describe them.  Every object was added by such a spawn, and whatever has
been loaded since then, its modules still have the sets with which they were built, which
are the sets of the names in those blueprints.
-/
theorem blueprints_last_loaded (options : Options) (commands : List (Files × Command)) :
    let g := run { options } commands
    let read := loadedBy commands
    (g.blueprints.map Blueprint.name).Nodup ∧
    (∀ name b, g.blueprints.find? (·.name == name) = some b ↔ LastNamed read name b) ∧
    (∀ b, b ∈ g.blueprints ↔ LastNamed read b.name b) ∧
    g.blueprints.Pairwise (LastBefore read) ∧
    (∀ (files : Files) path blueprints, files.readBlueprints path = .ok blueprints ↔
      ∃ text items, files.readText path = .ok text ∧
        Json.Value.read? text = some (.array items) ∧
        List.Forall₂ (fun item b => Blueprint.decode item = some b) items blueprints) ∧
    (∀ files path e, files.readBlueprints path = .error e →
      g.step files (.loadBlueprints path) =
        (.responses [.refused e (files.wordsAt .blueprints path)], g)) ∧
    (∀ files path blueprints, files.readBlueprints path = .ok blueprints →
      ∃ known, g.step files (.loadBlueprints path) =
        (.responses [.blueprintsLoaded blueprints.length], { g with blueprints := known })) ∧
    (∀ files owner object names,
      let outcome := g.step files (.spawn owner object names)
      ((∃ e, outcome.1 = .responses [.refused e]) ↔
        (∃ e, g.resolve owner = .error e) ∨ g.registry.Overflows (g.askedFor owner names) ∨
          ∃ name ∈ names, ∀ b ∈ read, b.name ≠ name) ∧
      ((∃ e, outcome.1 = .responses [.refused e]) ∨
        ∃ spawned, outcome.2.objects = g.objects ++ [spawned] ∧ spawned.name = object ∧
          spawned.Realizes outcome.2.registry read names)) ∧
    ∀ b ∈ g.objects, ∃ before files owner object names after spawned,
      commands = before ++ (files, .spawn owner object names) :: after ∧
      ((run { options } before).step files (.spawn owner object names)).2.objects =
        (run { options } before).objects ++ [spawned] ∧
      b.frame = spawned.frame ∧ b.Realizes g.registry (loadedBy before) names := by
  intro g read
  have each : LastOfEach read g.blueprints := lastOfEach_run options commands
  have sound : g.registry.Sound := ((Reachable.start options).run commands).registry
  refine ⟨each.distinct, fun name b => each.find?_eq_some_iff, each.last, each.order,
    fun files path blueprints => Files.readBlueprints_eq_ok_iff,
    fun files path e => step_load_refused,
    fun files path blueprints read => ⟨_, step_load read⟩,
    fun files owner object names => ⟨?_, ?_⟩, fun b mem => ?_⟩
  · simp only [← each.isKnown_eq_false]
    refine Iff.trans ?_ (spawn_eq_error_iff sound owner object names)
    exact exists_congr fun e => step_spawn_refused
  · rcases realizes_spawn each sound owner object names with
      ⟨e, registry, refused⟩ | ⟨fired, spawned, registry, done, named, realizes⟩
    · exact .inl ⟨e, step_spawn_refused.mpr (congrArg Prod.fst refused)⟩
    · have after : (g.step files (.spawn owner object names)).2 =
          { g with registry, objects := g.objects ++ [spawned] } := congrArg Prod.snd done
      refine .inr ⟨spawned, ?_, named, ?_⟩
      · rw [after]
      · rwa [after]
  · obtain ⟨before, files, owner, object, names, after, spawned, split, added, kept⟩ :=
      exists_spawn options commands mem
    refine ⟨before, files, owner, object, names, after, spawned, split, added, kept, ?_⟩
    have earlier : (run { options } before).registry.Sound :=
      ((Reachable.start options).run before).registry
    have realizes := realizes_of_added (lastOfEach_run options before) earlier added
    have later :
        g = ((run { options } before).step files (.spawn owner object names)).2.run after := by
      rw [← run, ← run_append, ← split]
    rw [later]
    exact (realizes.of_frame kept).later (growth_run _ after).later

/-- Files with names that are repeated in one file and across files, and one that is refused. -/
def workshop : Files where
  find
    | "a.json" => .ok "[[\"Saw\",[\"Steel\"]],[\"Wheel\",[\"Wind\"]],[\"Saw\",[\"Iron\"]]]".toUTF8
    | "b.json" => .ok "[[\"Wheel\",[\"Water\"]],[\"Mill\",[\"Corn\"]]]".toUTF8
    | "c.json" => .ok "[[\"Saw\",7]]".toUTF8
    | _ => .error .missing
  words _ _ := "invalid type"

/-- A wheel is built before the other wheel is known. -/
def workshopLoads : List (Files × Command) :=
  [.loadBlueprints "a.json", .spawn "-" "Mill" ["Wheel"], .loadBlueprints "b.json",
    .loadBlueprints "c.json", .loadBlueprints "d.json"].map (workshop, ·)

theorem blueprints_last_loaded_workshop :
    let g := run {} workshopLoads
    (turns {} workshopLoads).map Turn.written =
        [[.blueprintsLoaded 3], [.spawned "Mill"], [.blueprintsLoaded 2],
          [.refused (.upgrade .malformedBlueprints) "invalid type"],
          [.refused (.unreadable "d.json" .missing)]] ∧
      g.blueprints = [{ name := "Saw", triggers := ["Iron"] },
        { name := "Wheel", triggers := ["Water"] }, { name := "Mill", triggers := ["Corn"] }] ∧
      LastNamed (loadedBy workshopLoads) "Wheel" { name := "Wheel", triggers := ["Water"] } ∧
      g.objects.map (fun b => b.modules.map fun m => g.registry.namesIn m.gate.triggers) =
        [[["Wind"]]] := by
  intro g
  obtain ⟨-, named, -⟩ := blueprints_last_loaded {} workshopLoads
  exact ⟨by decide +kernel, by decide +kernel, (named _ _).mp (by decide +kernel),
    by decide +kernel⟩

end Game

end BattleRoster
