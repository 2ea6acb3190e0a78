import BattleRoster.Proofs.Session.Commands
import BattleRoster.Proofs.Session.Lines
import BattleRoster.Proofs.Session.Reachable
import BattleRoster.Proofs.Session.RecordText

/-!
# Taking a saved game back

The record of a sound game fits every game with the same frame, and taking it
over there brings the roster and the modules back.  What a record leaves out is
either part of the frame or follows from the rest: a commander from who controls
the player, and that no gate is firing from the time of the record.
-/

namespace BattleRoster

/-! ## Players -/

/-- Whoever has a player already changes nothing by taking it over. -/
theorem Player.control_self {p : Player} (commanded : p.Commanded) :
    p.control p.controller = p := by
  unfold Commanded at commanded
  obtain ⟨name, displayName, faction, controller, lobbySlot, stances, defaultTeam, buildings,
    commander, isLocal, upgrades⟩ := p
  cases controller <;> cases commander <;> simp [control] at commanded ⊢

/-- A commanded player is brought back from any upgrades. -/
theorem Player.restore_record {p p' : Player} (commanded : p.Commanded)
    (same : p'.unarmed = p.unarmed) : p'.restore p.record = p := by
  have armed : p' = { p with upgrades := p'.upgrades } :=
    congrArg (fun q : Player => { q with upgrades := p'.upgrades }) same
  have restored : p'.restore p.record =
      { p.control p.controller with stances := .ofList p.stances.entries } := by
    rw [armed]
    rfl
  rw [restored, OrderedMap.ofList_entries, control_self commanded]

/-! ## Rosters -/

namespace Roster

/-- The active slots are the first ones. -/
theorem active_eq_take {r : Roster} (sound : r.Sound) : r.active = Slot.all.take r.count := by
  have first : ∀ n ≤ 16, Slot.all.filter (·.val < n) = Slot.all.take n := by decide
  exact first r.count sound.count

theorem getElem?_players_record {r : Roster} (sound : r.Sound) (slot : Slot) :
    r.record.players[slot.val]? =
      if slot.val < r.count then some (r.player slot).record else none := by
  rw [record, active_eq_take sound, List.getElem?_map, List.getElem?_take]
  by_cases active : slot.val < r.count
  · rw [if_pos active, if_pos active]
    simp [Slot.all]
  · rw [if_neg active, if_neg active]
    rfl

/-- A roster is brought back from any upgrades of its active players. -/
theorem withRecords_record {r r' : Roster} (sound : r.Sound) (same : r'.frame = r.frame) :
    r'.withRecords r.record.players = r := by
  obtain ⟨count, localSlot, humans, players, inactive⟩ := of_frame_eq same
  refine ext_player (fun slot => ?_) count localSlot humans
  rw [player_withRecords, getElem?_players_record sound]
  by_cases active : slot.val < r.count
  · rw [if_pos active]
    exact Player.restore_record (sound.commanded slot) (players slot)
  · rw [if_neg active]
    exact inactive slot (Nat.not_lt.mp active)

theorem fits_record {r r' : Roster} (sound : r.Sound) (same : r'.frame = r.frame) :
    r.record.Fits r' := by
  obtain ⟨count, -⟩ := of_frame_eq same
  have bound := sound.count
  refine ⟨rfl, ?_, ?_⟩
  · rw [count]
    exact UInt64.toNat_ofNat_of_lt' (Nat.lt_of_le_of_lt bound (by decide))
  · rw [count, record, List.length_map, active_eq_take sound, List.length_take, Slot.all,
      List.length_finRange]
    omega

end Roster

/-! ## Objects -/

/-- A module that was idle is brought back, whether or not it has fired since. -/
theorem Module.resume_record {m m' : Module} (idle : m.gate.upgrading = false)
    (same : m'.unfired = m.unfired) : m'.resume m.gate.record = m := by
  obtain ⟨name, ⟨triggers, conflicts, removes, needsAll, executed, upgrading⟩, cue,
    status⟩ := m
  obtain ⟨name', ⟨triggers', conflicts', removes', needsAll', executed', upgrading'⟩, cue',
    status'⟩ := m'
  simp only [unfired, Gate.unfired, mk.injEq, Gate.mk.injEq] at same
  obtain ⟨rfl, ⟨rfl, rfl, rfl, rfl, -, rfl⟩, rfl, rfl⟩ := same
  obtain rfl : upgrading' = false := idle
  rfl

namespace Bearer

/-- The saved state of an object. -/
def record (b : Bearer) : ObjectRecord where
  name := b.name
  modules := b.gateRecords

theorem resume_records {modules modules' : List Module}
    (idle : ∀ m ∈ modules, m.gate.upgrading = false)
    (same : modules'.map Module.unfired = modules.map Module.unfired) :
    List.zipWith Module.resume modules' (modules.map (·.gate.record)) = modules := by
  induction modules generalizing modules' with
  | nil =>
      obtain rfl := List.map_eq_nil_iff.mp same
      rfl
  | cons m modules ih =>
      cases modules' with
      | nil => cases same
      | cons m' modules' =>
          obtain ⟨first, rest⟩ := List.cons.inj same
          rw [List.map_cons, List.zipWith_cons_cons,
            Module.resume_record (idle m (by simp)) first,
            ih (fun other mem => idle other (by simp [mem])) rest]

/-- The modules of an object are brought back into it. -/
theorem resume_record {b b' : Bearer} (idle : b.Idle) (same : b'.frame = b.frame) :
    b'.resume b.record = { b' with modules := b.modules } := by
  have modules := resume_records idle (modules_of_frame_eq same)
  simp only [resume, record, gateRecords, modules]

theorem fits_record {b b' : Bearer} (same : b'.frame = b.frame) : b.record.Fits b' := by
  refine ⟨(congrArg Bearer.name same.symm :), ?_, ?_⟩
  · have lengths := congrArg List.length (modules_of_frame_eq same)
    rw [List.length_map, List.length_map] at lengths
    rw [record, gateRecords, List.length_map, lengths]
  · intro entry mem
    obtain ⟨m, -, rfl⟩ := List.mem_map.mp mem
    rfl

end Bearer

/-! ## Games -/

namespace Game

/-- The objects of a game with the modules that they had earlier. -/
def withModules (later earlier : List Bearer) : List Bearer :=
  List.zipWith (fun b' b => { b' with modules := b.modules }) later earlier

theorem withModules_self (bearers : List Bearer) : withModules bearers bearers = bearers := by
  induction bearers with
  | nil => rfl
  | cons b bearers ih =>
      unfold withModules at ih ⊢
      rw [List.zipWith_cons_cons, ih]

/-- The objects are those of earlier again, with their names, owners and modules. -/
theorem state_withModules {bearers bearers' : List Bearer}
    (same : bearers'.map Bearer.frame = bearers.map Bearer.frame) :
    (withModules bearers' bearers).map (fun b => (b.name, b.owner, b.modules)) =
      bearers.map fun b => (b.name, b.owner, b.modules) := by
  induction bearers generalizing bearers' with
  | nil =>
      obtain rfl := List.map_eq_nil_iff.mp same
      rfl
  | cons b bearers ih =>
      cases bearers' with
      | nil => cases same
      | cons b' bearers' =>
          obtain ⟨first, rest⟩ := List.cons.inj same
          have name : b'.name = b.name := (congrArg Bearer.name first :)
          have owner : b'.owner = b.owner := (congrArg Bearer.owner first :)
          have tail := ih rest
          unfold withModules at tail ⊢
          rw [List.zipWith_cons_cons, List.map_cons, List.map_cons, tail, name, owner]

theorem resumeAll_record {bearers bearers' : List Bearer} (idle : ∀ b ∈ bearers, b.Idle)
    (same : bearers'.map Bearer.frame = bearers.map Bearer.frame) :
    List.Forall₂ ObjectRecord.Fits (bearers.map Bearer.record) bearers' ∧
      List.zipWith Bearer.resume bearers' (bearers.map Bearer.record) =
        withModules bearers' bearers := by
  induction bearers generalizing bearers' with
  | nil =>
      obtain rfl := List.map_eq_nil_iff.mp same
      exact ⟨.nil, rfl⟩
  | cons b bearers ih =>
      cases bearers' with
      | nil => cases same
      | cons b' bearers' =>
          obtain ⟨first, rest⟩ := List.cons.inj same
          obtain ⟨fits, resumed⟩ := ih (fun other mem => idle other (by simp [mem])) rest
          refine ⟨.cons (Bearer.fits_record first) fits, ?_⟩
          rw [List.map_cons, List.zipWith_cons_cons, resumed,
            Bearer.resume_record (idle b (by simp)) first]
          rfl

/-- A sound game is taken back from any game with its frame. -/
theorem takeOver_record {g later : Game} (sound : g.Sound) (same : later.frame = g.frame) :
    later.takeOver g.record = (.ok (), { later with
      roster := g.roster
      objects := withModules later.objects g.objects }) := by
  obtain ⟨roster, objects⟩ := of_frame_eq same
  obtain ⟨fits, resumed⟩ := resumeAll_record sound.idle objects
  rw [takeOver_of_fits ⟨fits, Roster.fits_record sound.roster roster⟩]
  have players := Roster.withRecords_record sound.roster roster
  exact congrArg (Prod.mk _) (by rw [← resumed, ← players]; rfl)

/-! ## Over the wire -/

/-- What is saved is written as a single line. -/
theorem write_saved (g : Game) (files : Files) :
    '\n' ∉ g.record.encode.toList ∧
      Response.write (g.step files .save).1.written = "snapshot " ++ g.record.encode ++ "\n" := by
  refine ⟨fun mem => ?_, ?_⟩
  · have printable := g.record.encode_printable '\n' mem
    exact absurd printable (by decide)
  · change "" ++ ("snapshot " ++ g.record.encode) ++ "\n" = _
    rw [String.empty_append]

/-- The text of a saved game asks to take over that saved game. -/
theorem step_restore_encode (files : Files) (g : Game) (record : GameRecord) :
    g.step files (.restore record.encode) =
      (answer (fun _ => [.restored]) (g.takeOver record).1, (g.takeOver record).2) := by
  simp only [step, GameRecord.read?_encode]

theorem next_restore_encode (files : Files) (g : Game) (record : GameRecord) :
    (g.step files (.restore record.encode)).2 = (g.takeOver record).2 := by
  rw [step_restore_encode]

/-- A line that asks to restore what a sound game saved takes that game back. -/
theorem turn_restore {g later : Game} (sound : g.Sound) (same : later.frame = g.frame)
    (files : Files) :
    Command.parse? ("restore " ++ g.record.encode) = some (.restore g.record.encode) ∧
      Console.turn files later ("restore " ++ g.record.encode).toUTF8 =
        some ([.restored], { later with
          roster := g.roster
          objects := withModules later.objects g.objects }) := by
  have parsed := Command.parse?_restore g.record.encode_ne_empty g.record.encode_trimmed
  rw [Command.render_restore] at parsed
  have carried : later.step files (.restore g.record.encode) =
      (.responses [.restored], { later with
        roster := g.roster
        objects := withModules later.objects g.objects }) := by
    rw [step_restore_encode, takeOver_record sound same]
    rfl
  refine ⟨parsed, ?_⟩
  rw [Console.turn, fromUTF8?_toUTF8]
  simp only [stepLine, parsed, Option.map_some, carried]
  rfl

/--
Sending a saved line back undoes any run of quiet commands: the roster and the
modules of all objects are those of the game that was saved.  Right after saving
it changes nothing.
-/
theorem restore_undoes {g : Game} (reachable : g.Reachable)
    {commands : List (Files × Command)}
    (quiet : ∀ command ∈ commands, command.2.isQuiet = true) (files files' : Files) :
    ∃ text restored,
      Text.splitOn '\n' (Response.write (g.step files .save).1.written) =
        ["snapshot " ++ text, ""] ∧
      Console.inputLines ("restore " ++ text ++ "\n").toUTF8 =
        [("restore " ++ text).toUTF8, ByteArray.empty] ∧
      Command.parse? ("restore " ++ text) = some (.restore text) ∧
      Console.turn files' ((g.step files .save).2.run commands) ("restore " ++ text).toUTF8 =
        some ([.restored], restored) ∧
      Response.write [.restored] = "restoreok\n" ∧
      restored.roster = g.roster ∧
      restored.objects.map (fun b => (b.name, b.owner, b.modules)) =
        g.objects.map (fun b => (b.name, b.owner, b.modules)) ∧
      (commands = [] → restored = g) := by
  have same := frame_run quiet g
  obtain ⟨-, objects⟩ := of_frame_eq same
  obtain ⟨single, written⟩ := write_saved g files
  obtain ⟨parsed, restored⟩ := turn_restore reachable.sound same files'
  have keyword (word : String) (solid : '\n' ∉ word.toList) :
      '\n' ∉ (word ++ g.record.encode).toList := by
    rw [String.toList_append, List.mem_append]
    exact not_or.mpr ⟨solid, single⟩
  refine ⟨g.record.encode, _, ?_, ?_, parsed, restored, rfl, rfl, state_withModules objects, ?_⟩
  · rw [written]
    exact Text.splitOn_line (keyword "snapshot " (by decide))
  · exact Console.inputLines_line (keyword "restore " (by decide))
  · rintro rfl
    change { g with objects := withModules g.objects g.objects } = g
    rw [withModules_self]

/-- A granted upgrade fires a module, and restoring takes both back. -/
theorem restore_undoes_grant :
    let files : Files := { find := fun _ => .ok "[[\"Saw\",[\"Steel\"]]]".toUTF8 }
    let g := Game.run {} [(files, .loadBlueprints "mill"), (files, .spawn "-" "Mill" ["Saw"])]
    let commands : List (Files × Command) := [(files, .grant "-" "Steel")]
    let fired (g : Game) := g.objects.map fun b => b.modules.map (·.gate.executed)
    g.Reachable ∧ (∀ command ∈ commands, command.2.isQuiet = true) ∧
      fired g = [[false]] ∧ fired (g.run commands) = [[true]] ∧
      ∃ text restored,
        Console.turn files (g.run commands) ("restore " ++ text).toUTF8 =
          some ([.restored], restored) ∧
        restored.roster = g.roster ∧ fired restored = [[false]] := by
  intro files g commands fired
  have reachable : g.Reachable := (Reachable.start {}).run _
  have quiet : ∀ command ∈ commands, command.2.isQuiet = true := by
    intro command mem
    obtain rfl := List.mem_singleton.mp mem
    rfl
  have idle : fired g = [[false]] := by decide +kernel
  obtain ⟨text, restored, -, -, -, turn, -, roster, objects, -⟩ :=
    restore_undoes reachable quiet files files
  have modules : fired restored = fired g := by
    have same := congrArg (List.map fun state : String × Slot × List Module =>
      state.2.2.map (·.gate.executed)) objects
    rw [List.map_map, List.map_map] at same
    exact same
  exact ⟨reachable, quiet, idle, by decide +kernel, text, restored, turn, roster,
    modules.trans idle⟩

end Game

end BattleRoster
