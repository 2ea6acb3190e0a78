import BattleRoster.Proofs.Session.History
import BattleRoster.Proofs.Session.Replies
import BattleRoster.Proofs.Session.TakingBack

/-!
# Effects of executed modules

A module that fires grants its status to its object, and no command takes a
status away.  A saved game tells which modules have been executed and leaves the
statuses out.  So the object of an executed module has its status, unless the
module was first executed by restoring a saved game of another game.
-/

namespace BattleRoster

/-! ## Places in saved games -/

def GameRecord.Executed (record : GameRecord) (i j : Nat) : Prop :=
  ∃ object entry, record.objects[i]? = some object ∧ object.modules[j]? = some entry ∧
    entry.executed = true

namespace Game

variable {g : Game} {i j : Nat}

theorem executed_of_record (executed : g.record.Executed i j) : g.Executed i j := by
  obtain ⟨object, entry, recorded, listed, fired⟩ := executed
  rw [record, List.getElem?_map, Option.map_eq_some_iff] at recorded
  obtain ⟨b, there, rfl⟩ := recorded
  rw [Bearer.gateRecords, List.getElem?_map, Option.map_eq_some_iff] at listed
  obtain ⟨m, place, rfl⟩ := listed
  exact ⟨m, module?_eq_some.mpr ⟨b, there, place⟩, fired⟩

theorem executed_of_takeOver {record : GameRecord} (fits : record.Fits g)
    (executed : (g.takeOver record).2.Executed i j) : record.Executed i j := by
  obtain ⟨m, place, fired⟩ := executed
  obtain ⟨b, there, among⟩ := module?_eq_some.mp place
  rw [takeOver_of_fits fits] at there
  obtain ⟨earlier, object, -, recorded, rfl⟩ := List.getElem?_zipWith_eq_some.mp there
  obtain ⟨m, entry, -, listed, rfl⟩ := List.getElem?_zipWith_eq_some.mp among
  exact ⟨object, entry, recorded, listed, fired⟩

end Game

/-! ## Statuses -/

theorem Bearer.module_of_frame {b b' : Bearer} (same : b'.frame = b.frame) {j : Nat} {m : Module}
    (place : b.modules[j]? = some m) :
    ∃ m', b'.modules[j]? = some m' ∧ m'.unfired = m.unfired := by
  have places := congrArg (·[j]?) (modules_of_frame_eq same)
  simp only [List.getElem?_map, place] at places
  exact Option.map_eq_some_iff.mp places

/-- What an evaluation executes has its status granted. -/
theorem Bearer.granted_update {b : Bearer} (unarmed : b.upgrades = ∅)
    (held : UpgradeSet) {j : Nat} {m' : Module} (place : (b.update held).2.modules[j]? = some m')
    (executed : m'.gate.executed = true) :
    (∃ m, b.modules[j]? = some m ∧ m.gate.executed = true) ∨
      ∀ status, m'.status = some status →
        (b.update held).2.statuses.contains status = true := by
  rw [(update_of_empty unarmed held).2, List.getElem?_map, Option.map_eq_some_iff] at place
  obtain ⟨m, place, rfl⟩ := place
  rcases Bool.or_eq_true_iff.mp executed with before | fires
  · exact .inl ⟨m, place, before⟩
  · refine .inr fun status grants => (b.contains_statuses_update held status).mpr (.inr ?_)
    refine ⟨m, List.mem_of_getElem? place, ?_, grants⟩
    rwa [unarmed, UpgradeSet.union_empty]

namespace Game

variable {g : Game} {turns : List Turn} {i j : Nat}

def Effective (g : Game) (i j : Nat) : Prop :=
  ∃ b m, g.objects[i]? = some b ∧ b.modules[j]? = some m ∧
    ∀ status, m.status = some status → b.statuses.contains status = true

/-- No command but a new game undoes the effect of a module. -/
theorem Effective.step (effective : g.Effective i j) (sound : g.Sound) (files : Files)
    {c : Command} (goesOn : c ≠ .newGame) : (g.step files c).2.Effective i j := by
  obtain ⟨b, m, object, place, granted⟩ := effective
  obtain ⟨b', object', change⟩ := object_step files goesOn object
  have frame := change.frame (sound.idle b (List.mem_of_getElem? object))
  obtain ⟨m', place', same⟩ := Bearer.module_of_frame frame place
  have status : m'.status = m.status := (congrArg Module.status same :)
  refine ⟨b', m', object', place', fun granting grants => ?_⟩
  exact change.contains_statuses (granted granting (status ▸ grants))

end Game

namespace Turn

def TakesOver (turn : Turn) (record : GameRecord) : Prop :=
  ∃ text, turn.command = .restore text ∧ GameRecord.read? text = some record ∧
    turn.reply = .responses [.restored]

def saved (turns : List Turn) : List GameRecord :=
  turns.flatMap (·.reply.saved)

theorem of_mem_saved {turns : List Turn} {record : GameRecord} (mem : record ∈ saved turns) :
    ∃ turn ∈ turns, turn.game.record = record := by
  obtain ⟨⟨g, files, c⟩, among, written⟩ := List.mem_flatMap.mp mem
  refine ⟨_, among, ?_⟩
  change record ∈ (g.step files c).1.saved at written
  by_cases saves : c = .save
  · subst saves
    exact (List.mem_singleton.mp written).symm
  · rw [Game.saved_step saves] at written
    cases written

/--
The module at a place is first executed by restoring a saved game that was not
written in these turns.
-/
def FirstRestored (turns : List Turn) (i j : Nat) : Prop :=
  ∃ before turn after record, turns = before ++ turn :: after ∧ turn.TakesOver record ∧
    record.Executed i j ∧ record ∉ saved before ∧
    ∀ earlier ∈ before ++ [turn], ¬ earlier.game.Executed i j

end Turn

namespace Game

variable {g : Game} {turns : List Turn} {i j : Nat}

/--
A module that is executed after a turn was so before, or it has its effect, or
the turn restores a saved game that has it as executed.
-/
theorem executed_turn (turn : Turn) (unarmed : turn.game.Unarmed)
    (goesOn : turn.command ≠ .newGame) (executed : turn.next.Executed i j) :
    turn.game.Executed i j ∨ turn.next.Effective i j ∨
      ∃ record, turn.TakesOver record ∧ record.Executed i j := by
  obtain ⟨g, files, c⟩ := turn
  change (g.step files c).2.Executed i j at executed
  by_cases restores : ∃ text, c = .restore text
  · obtain ⟨text, rfl⟩ := restores
    rcases step_restore files g text with ⟨record, read, fits, accepted⟩ | refused
    · rw [accepted] at executed
      refine .inr (.inr ⟨record, ⟨text, rfl, read, ?_⟩, executed_of_takeOver fits executed⟩)
      exact congrArg Prod.fst accepted
    · rw [refused] at executed
      exact .inl executed
  · obtain ⟨m', place, fired⟩ := executed
    obtain ⟨b', object', among⟩ := module?_eq_some.mp place
    rcases object_step_cases files goesOn object' with
      ⟨b, object, change⟩ | ⟨built, held, unused, rfl⟩
    · cases change with
      | same => exact .inl ⟨m', module?_eq_some.mpr ⟨_, object, among⟩, fired⟩
      | evaluated player upgrade b held =>
          have own := unarmed b (List.mem_of_getElem? object)
          rcases Bearer.granted_update own held among fired with ⟨m, place, before⟩ | granted
          · exact .inl ⟨m, module?_eq_some.mpr ⟨b, object, place⟩, before⟩
          · exact .inr (.inl ⟨_, m', object', among, granted⟩)
      | reset player upgrade b lost =>
          rw [b.modules_resetModules, List.getElem?_map, Option.map_eq_some_iff] at among
          obtain ⟨m, among, rfl⟩ := among
          obtain ⟨before, -⟩ := Gate.executed_of_reset fired
          exact .inl ⟨m, module?_eq_some.mpr ⟨b, object, among⟩, before⟩
      | resumed text fits => exact absurd ⟨text, rfl⟩ restores
    · rcases Bearer.granted_update unused.unarmed held among fired with
        ⟨m, place, before⟩ | granted
      · rw [(unused.unfired m (List.mem_of_getElem? place)).1] at before
        cases before
      · exact .inr (.inl ⟨_, m', object', among, granted⟩)

/-! ## Histories -/

/-- A module that has been executed at any time has its effect, or it was first restored. -/
theorem Follows.effective (follows : g.Follows turns)
    (executed : g.Executed i j ∨ ∃ turn ∈ turns, turn.game.Executed i j) :
    g.Effective i j ∨ Turn.FirstRestored turns i j := by
  induction follows with
  | start options =>
      rcases executed with ⟨m, place, -⟩ | ⟨turn, mem, -⟩
      · cases place
      · cases mem
  | begun files earlier ih =>
      rcases executed with ⟨m, place, -⟩ | ⟨turn, mem, -⟩
      · rw [module?, objects_begun] at place
        cases place
      · cases mem
  | @turn g turns files c earlier goesOn ih =>
      by_cases past : g.Executed i j ∨ ∃ turn ∈ turns, turn.game.Executed i j
      · rcases ih past with effective | ⟨before, turn, after, record, rfl, restored⟩
        · exact .inl (effective.step earlier.reachable.sound files goesOn)
        · refine .inr ⟨before, turn, after ++ [⟨g, files, c⟩], record, ?_, restored⟩
          rw [List.append_assoc, List.cons_append]
      · -- so it is executed now, and for the first time
        obtain ⟨unexecuted, never⟩ := not_or.mp past
        have now : (g.step files c).2.Executed i j := by
          rcases executed with now | ⟨turn, mem, was⟩
          · exact now
          · rcases List.mem_append.mp mem with mem | mem
            · exact absurd ⟨turn, mem, was⟩ never
            · obtain rfl := List.mem_singleton.mp mem
              exact absurd was unexecuted
        rcases executed_turn ⟨g, files, c⟩ earlier.reachable.unarmed goesOn now with
          was | effective | ⟨record, takesOver, recorded⟩
        · exact absurd was unexecuted
        · exact .inl effective
        · refine .inr ⟨turns, _, [], record, rfl, takesOver, recorded, fun own => ?_, ?_⟩
          · obtain ⟨turn, mem, rfl⟩ := Turn.of_mem_saved own
            exact never ⟨turn, mem, executed_of_record recorded⟩
          · refine List.forall_mem_append.mpr
              ⟨fun turn mem was => never ⟨turn, mem, was⟩, ?_⟩
            exact List.forall_mem_singleton.mpr unexecuted

/--
The object of an executed module has the status that the module grants, unless
the module was first executed by restoring a saved game that was not written
since the game was begun.
-/
theorem executed_effective (follows : g.Follows turns) {b : Bearer} {m : Module} {status : String}
    (object : g.objects[i]? = some b) (place : b.modules[j]? = some m)
    (executed : m.gate.executed = true) (grants : m.status = some status) :
    b.statuses.contains status = true ∨ Turn.FirstRestored turns i j := by
  have now : g.Executed i j := ⟨m, module?_eq_some.mpr ⟨b, object, place⟩, executed⟩
  rcases follows.effective (.inl now) with ⟨b', m', object', place', granted⟩ | restored
  · obtain rfl := Option.some.inj (object.symm.trans object')
    obtain rfl := Option.some.inj (place.symm.trans place')
    exact .inl (granted status grants)
  · exact .inr restored

/-- The files of an armory, whose plates fire for steel and make their object armored. -/
def armory : Files where
  find _ := .ok "[[\"Plates\",[\"Steel\"],[],[],false,null,\"Armored\"]]".toUTF8

def plating : List (Files × Command) :=
  [(armory, .loadBlueprints "armory"), (armory, .spawn "-" "Tank" ["Plates"]),
    (armory, .grant "-" "Steel")]

def plated : Game :=
  Game.run {} plating

/-- Whether the plates of the first object have been executed, and what they grant. -/
def plates (g : Game) : Option (Bool × Option String) :=
  (g.module? 0 0).map fun m => (m.gate.executed, m.status)

/-- A tank has its status when its plates are reset and its record is then taken back. -/
theorem executed_effective_restored :
    let commands := plating ++ [(armory, .save), (armory, .revoke "-" "Steel")]
    let worn := Game.run {} commands
    let g := (worn.step armory (.restore plated.record.encode)).2
    let turns := Game.turns {} commands ++ [⟨worn, armory, .restore plated.record.encode⟩]
    worn.plates = some (false, some "Armored") ∧ g.plates = some (true, some "Armored") ∧
      g.Follows turns ∧ ∃ b m, g.objects[0]? = some b ∧ b.modules[0]? = some m ∧
        m.gate.executed = true ∧ m.status = some "Armored" ∧
        (b.statuses.contains "Armored" = true ∨ Turn.FirstRestored turns 0 0) := by
  intro commands worn g turns
  have built : worn.Follows (Game.turns {} commands) :=
    (Follows.start {}).run (by simp [commands, plating])
  have follows : g.Follows turns :=
    built.turn armory (.restore plated.record.encode) (by simp)
  have taken : g = (worn.takeOver plated.record).2 :=
    next_restore_encode armory worn plated.record
  have restored : (worn.takeOver plated.record).2.plates = some (true, some "Armored") := by
    decide +kernel
  rw [← taken] at restored
  obtain ⟨m, place, fired⟩ := Option.map_eq_some_iff.mp restored
  obtain ⟨b, object, among⟩ := module?_eq_some.mp place
  obtain ⟨executed, grants⟩ := Prod.mk.inj fired
  exact ⟨by decide +kernel, restored, follows, b, m, object, among, executed, grants,
    executed_effective follows object among executed grants⟩

/-- A tank of a new game takes over that its plates have fired, and it is not armored. -/
theorem executed_without_effect :
    ¬ ∀ g : Game, g.Reachable → ∀ b ∈ g.objects, ∀ m ∈ b.modules,
      m.gate.executed = true →
      ∀ status, m.status = some status → b.statuses.contains status = true := by
  intro effective
  let anew := plated.run [(armory, .newGame), (armory, .spawn "-" "Tank" ["Plates"])]
  have reachable : anew.Reachable := ((Reachable.start {}).run _).run _
  have taken := next_restore_encode armory anew plated.record
  have bare : ∃ b ∈ (anew.takeOver plated.record).2.objects, ∃ m ∈ b.modules,
      m.gate.executed = true ∧ m.status = some "Armored" ∧
        b.statuses.contains "Armored" = false := by
    decide +kernel
  rw [← taken] at bare
  obtain ⟨b, mem, m, among, executed, grants, without⟩ := bare
  have granted := effective _ (reachable.step armory (.restore plated.record.encode)) b mem m among
    executed "Armored" grants
  rw [without] at granted
  cases granted

end Game

end BattleRoster
