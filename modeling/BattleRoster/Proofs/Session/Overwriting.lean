import BattleRoster.Proofs.Collection.LastWins
import BattleRoster.Proofs.Session.TakingBack

/-!
# What taking over a record writes

A record may come from any other game.  If it is taken over, the active players and
the modules of the objects become as it says, and everything else stays.  So what is
saved next is the record again, with its stances in order and without those that later
ones replace, and taking it over once more changes nothing.
-/

namespace BattleRoster

open OrderedMap

/-! ## What is written and what stays -/

/--
A player before and after its record was taken over: of stances towards one team the
last counts, and a commander stays if the computer keeps or gets the player.
-/
structure Player.Overwritten (before : Player) (record : PlayerRecord) (after : Player) :
    Prop where
  name : after.name = record.name
  controller : after.controller = record.controller
  defaultTeam : after.defaultTeam = record.defaultTeam
  upgrades : after.upgrades = record.upgrades
  stances : ∀ team, after.stances.get? team = valueAt? team record.stances.reverse
  commander : after.commander =
    if record.controller = .computer then some (before.commander.getD {}) else none
  displayName : after.displayName = before.displayName
  faction : after.faction = before.faction
  lobbySlot : after.lobbySlot = before.lobbySlot
  buildings : after.buildings = before.buildings
  isLocal : after.isLocal = before.isLocal

/-- An object before and after its record was taken over: only its gates are written. -/
structure Bearer.Overwritten (before : Bearer) (record : ObjectRecord) (after : Bearer) :
    Prop where
  records : record.modules.length = before.modules.length
  modules : after.modules = List.zipWith Module.resume before.modules record.modules
  name : after.name = before.name
  owner : after.owner = before.owner
  upgrades : after.upgrades = before.upgrades
  statuses : after.statuses = before.statuses
  cues : after.cues = before.cues

/-- A game before and after a record was taken over. -/
structure Game.Overwritten (before : Game) (record : GameRecord) (after : Game) : Prop where
  records : record.roster.players.length = before.roster.count
  players : ∀ (slot : Slot) saved, record.roster.players[slot.val]? = some saved →
    (before.roster.player slot).Overwritten saved (after.roster.player slot)
  inactive : ∀ slot : Slot, before.roster.count ≤ slot.val →
    after.roster.player slot = before.roster.player slot
  count : after.roster.count = before.roster.count
  localSlot : after.roster.localSlot = before.roster.localSlot
  humans : after.roster.humans = before.roster.humans
  objectRecords : record.objects.length = before.objects.length
  objects : List.Forall₂ (fun pair after => pair.1.Overwritten pair.2 after)
    (before.objects.zip record.objects) after.objects
  teams : after.teams = before.teams
  sides : after.sides = before.sides
  options : after.options = before.options
  blueprints : after.blueprints = before.blueprints
  registry : after.registry = before.registry

/-- A record as it is saved again: the last stance towards every team, in ascending order. -/
def PlayerRecord.normal (record : PlayerRecord) : PlayerRecord :=
  { record with stances := sortedLast record.stances }

/-- A record of a game as it is saved again. -/
def GameRecord.normal (record : GameRecord) : GameRecord :=
  { record with
    roster := { record.roster with players := record.roster.players.map PlayerRecord.normal } }

/-- Combining with the same partners again changes nothing if it does so one by one. -/
theorem zipWith_zipWith_right {α β : Type} {f : α → β → α}
    (again : ∀ a b, f (f a b) b = f a b) (as : List α) (bs : List β) :
    List.zipWith f (List.zipWith f as bs) bs = List.zipWith f as bs := by
  induction as generalizing bs with
  | nil => rfl
  | cons a as ih =>
      cases bs with
      | nil => rfl
      | cons b bs => rw [List.zipWith_cons_cons, List.zipWith_cons_cons, again, ih]

/-! ## Players -/

namespace Player

theorem overwritten_restore (p : Player) (record : PlayerRecord) :
    p.Overwritten record (p.restore record) where
  name := rfl
  controller := rfl
  defaultTeam := rfl
  upgrades := rfl
  stances := get?_ofList record.stances
  commander := commander_restore p record
  displayName := rfl
  faction := rfl
  lobbySlot := rfl
  buildings := rfl
  isLocal := rfl

theorem record_restore (p : Player) (record : PlayerRecord) :
    (p.restore record).record = record.normal := by
  unfold PlayerRecord.normal
  rw [← entries_ofList]
  rfl

/-- The commander that a record leaves or brings is there when it is taken over again. -/
theorem restore_restore (p : Player) (record : PlayerRecord) :
    (p.restore record).restore record = p.restore record := by
  cases controller : record.controller <;> simp [restore, control, controller]

end Player

namespace Roster

theorem withRecords_withRecords (r : Roster) (records : List PlayerRecord) :
    (r.withRecords records).withRecords records = r.withRecords records := by
  refine ext_player (fun slot => ?_) rfl rfl rfl
  rw [player_withRecords, player_withRecords]
  cases records[slot.val]? with
  | none => rfl
  | some record => exact Player.restore_restore _ record

/-- A roster has the records that its active players have, one by one. -/
theorem players_record_eq {r : Roster} (sound : r.Sound) {records : List PlayerRecord}
    (length : records.length = r.count)
    (each : ∀ (slot : Slot) saved, records[slot.val]? = some saved →
      (r.player slot).record = saved) : r.record.players = records := by
  have bound := sound.count
  have filled : r.record.players.length = r.count := by
    rw [record, List.length_map, active_eq_take sound, List.length_take, Slot.all,
      List.length_finRange]
    omega
  refine List.ext_getElem (filled.trans length.symm) fun i active here => ?_
  have lt : i < r.count := filled ▸ active
  have found := getElem?_players_record sound ⟨i, by omega⟩
  rw [if_pos lt, List.getElem?_eq_getElem active, Option.some.injEq] at found
  exact found.trans (each _ _ (List.getElem?_eq_getElem here))

/-- What is saved after a record was taken over. -/
theorem record_withRecords {r : Roster} (sound : r.Sound) {record : RosterRecord}
    (fits : record.Fits r) :
    (r.withRecords record.players).record =
      { record with players := record.players.map PlayerRecord.normal } := by
  obtain ⟨version, count, players⟩ := record
  obtain ⟨rfl, declared, length⟩ := fits
  have saved : (r.withRecords players).record.players = players.map PlayerRecord.normal := by
    refine players_record_eq (sound.withRecords players) ((List.length_map _).trans length)
      fun slot saved here => ?_
    rw [List.getElem?_map] at here
    obtain ⟨record, found, rfl⟩ := Option.map_eq_some_iff.mp here
    rw [player_withRecords, found]
    exact Player.record_restore _ record
  have counted : UInt64.ofNat r.count = count :=
    (congrArg UInt64.ofNat declared.symm).trans UInt64.ofNat_toNat
  calc (r.withRecords players).record
    _ = { version := 1, count := UInt64.ofNat r.count,
          players := (r.withRecords players).record.players } := rfl
    _ = _ := by rw [counted, saved]

end Roster

/-! ## Objects -/

theorem Module.resume_resume (m : Module) (record : GateRecord) :
    (m.resume record).resume record = m.resume record :=
  rfl

namespace Bearer

theorem overwritten_resume {b : Bearer} {record : ObjectRecord} (fits : record.Fits b) :
    b.Overwritten record (b.resume record) where
  records := fits.modules
  modules := rfl
  name := rfl
  owner := rfl
  upgrades := rfl
  statuses := rfl
  cues := rfl

theorem gateRecords_resume {modules : List Module} {records : List GateRecord}
    (length : records.length = modules.length)
    (current : ∀ entry ∈ records, entry.version = 1) :
    (List.zipWith Module.resume modules records).map (·.gate.record) = records := by
  induction modules generalizing records with
  | nil => exact (List.eq_nil_of_length_eq_zero length).symm
  | cons m modules ih =>
      cases records with
      | nil => cases length
      | cons record records =>
          obtain ⟨version, rest⟩ := List.forall_mem_cons.mp current
          have first : (m.resume record).gate.record = record := by
            obtain ⟨found, executed⟩ := record
            obtain rfl : found = 1 := version
            rfl
          rw [List.zipWith_cons_cons, List.map_cons, first, ih (by simpa using length) rest]

theorem record_resume {b : Bearer} {record : ObjectRecord} (fits : record.Fits b) :
    (b.resume record).record = record := by
  have saved := gateRecords_resume fits.modules fits.versions
  obtain ⟨name, modules⟩ := record
  obtain rfl : name = b.name := fits.name
  exact congrArg (ObjectRecord.mk b.name) saved

theorem resume_resume (b : Bearer) (record : ObjectRecord) :
    (b.resume record).resume record = b.resume record := by
  have modules := zipWith_zipWith_right Module.resume_resume b.modules record.modules
  unfold resume
  rw [modules]

theorem fits_resume {b : Bearer} {record : ObjectRecord} (fits : record.Fits b) :
    record.Fits (b.resume record) := by
  refine ⟨fits.name, ?_, fits.versions⟩
  rw [resume, List.length_zipWith, fits.modules, Nat.min_self]

end Bearer

/-! ## Games -/

namespace Game

section Objects

variable {bearers : List Bearer} {records : List ObjectRecord}
  (fits : List.Forall₂ ObjectRecord.Fits records bearers)
include fits

theorem overwritten_resumed :
    List.Forall₂ (fun pair after => pair.1.Overwritten pair.2 after)
      (bearers.zip records) (List.zipWith Bearer.resume bearers records) := by
  induction fits with
  | nil => exact .nil
  | cons fit fits ih => exact .cons (Bearer.overwritten_resume fit) ih

theorem records_resumed :
    (List.zipWith Bearer.resume bearers records).map Bearer.record = records := by
  induction fits with
  | nil => rfl
  | cons fit fits ih =>
      rw [List.zipWith_cons_cons, List.map_cons, Bearer.record_resume fit, ih]

theorem fits_resumed :
    List.Forall₂ ObjectRecord.Fits records (List.zipWith Bearer.resume bearers records) := by
  induction fits with
  | nil => exact .nil
  | cons fit fits ih => exact .cons (Bearer.fits_resume fit) ih

end Objects

/-- A game with the states of a record. -/
def resume (g : Game) (record : GameRecord) : Game :=
  { g with
    roster := g.roster.withRecords record.roster.players
    objects := List.zipWith Bearer.resume g.objects record.objects }

theorem takeOver_eq_ok {g g' : Game} {record : GameRecord} :
    g.takeOver record = (.ok (), g') ↔ record.Fits g ∧ g' = g.resume record := by
  rcases fits_or_fault g record with fits | ⟨e, fault⟩
  · rw [takeOver_of_fits fits]
    simp [fits, resume, eq_comm]
  · rw [takeOver_of_fault fault]
    refine iff_of_false (by simp) fun taken => ?_
    have same := (takeOver_of_fits taken.1).symm.trans (takeOver_of_fault fault)
    cases same

theorem overwritten_resume {g : Game} {record : GameRecord} (fits : record.Fits g) :
    g.Overwritten record (g.resume record) where
  records := fits.roster.players
  players slot saved here := by
    change (g.roster.player slot).Overwritten saved
      ((g.roster.withRecords record.roster.players).player slot)
    rw [Roster.player_withRecords, here]
    exact Player.overwritten_restore _ saved
  inactive slot beyond := by
    change (g.roster.withRecords record.roster.players).player slot = g.roster.player slot
    rw [Roster.player_withRecords, List.getElem?_eq_none (fits.roster.players ▸ beyond)]
  count := rfl
  localSlot := rfl
  humans := rfl
  objectRecords := fits.objects.length_eq
  objects := overwritten_resumed fits.objects
  teams := rfl
  sides := rfl
  options := rfl
  blueprints := rfl
  registry := rfl

theorem record_resume {g : Game} (sound : g.Sound) {record : GameRecord} (fits : record.Fits g) :
    (g.resume record).record = record.normal := by
  have roster := Roster.record_withRecords sound.roster fits.roster
  have objects := records_resumed fits.objects
  calc (g.resume record).record
    _ = { roster := (g.roster.withRecords record.roster.players).record
          objects := (List.zipWith Bearer.resume g.objects record.objects).map Bearer.record } :=
      rfl
    _ = record.normal := by rw [roster, objects]; rfl

/-- A record that was taken over fits again, and changes nothing then. -/
theorem takeOver_resume {g : Game} {record : GameRecord} (fits : record.Fits g) :
    (g.resume record).takeOver record = (.ok (), g.resume record) := by
  obtain ⟨version, count, players⟩ := fits.roster
  refine takeOver_eq_ok.mpr ⟨⟨fits_resumed fits.objects, version, count, players⟩, ?_⟩
  have roster := Roster.withRecords_withRecords g.roster record.roster.players
  have objects := zipWith_zipWith_right Bearer.resume_resume g.objects record.objects
  unfold resume
  rw [roster, objects]

/--
A game that takes over a record has what the record says in its active players and its
modules, and everything else as it was.  It saves the record again, with the last
stance of everyone towards every team in order, and taking over the record a second
time changes nothing.
-/
theorem takeOver_overwrites {g g' : Game} (reachable : g.Reachable) {record : GameRecord}
    (accepted : g.takeOver record = (.ok (), g')) :
    g.Overwritten record g' ∧ g'.record = record.normal ∧
      g'.takeOver record = (.ok (), g') := by
  obtain ⟨fits, rfl⟩ := takeOver_eq_ok.mp accepted
  exact ⟨overwritten_resume fits, record_resume reachable.sound fits, takeOver_resume fits⟩

/-- A record of other players, whose stances are out of order, and of a module that has fired. -/
theorem takeOver_overwrites_foreign :
    let files : Files := { find := fun _ => .ok "[[\"Saw\",[\"Steel\"]]]".toUTF8 }
    let g := Game.run {} [(files, .addSide "playerName=Red;playerIsHuman=true;build=Camp"),
      (files, .newGame), (files, .loadBlueprints "mill"), (files, .spawn "Red" "Mill" ["Saw"])]
    let record : GameRecord := {
      roster := {
        version := 1
        count := 2
        players := [
          { name := "Gaia", controller := .neutral, defaultTeam := none, stances := [],
            upgrades := ∅ },
          { name := "Blue", controller := .computer, defaultTeam := some ⟨9⟩,
            stances := [(⟨3⟩, .enemies), (⟨1⟩, .neutral), (⟨3⟩, .allies)],
            upgrades := ∅ }] }
      objects := [{ name := "Mill", modules := [{ version := 1, executed := true }] }] }
    g.Reachable ∧ ∃ g', g.takeOver record = (.ok (), g') ∧
      (g'.roster.player 1).name = "Blue" ∧ (g'.roster.player 1).displayName = "Red" ∧
      (g'.roster.player 1).buildings.length = 1 ∧ (g'.roster.player 1).commander = some {} ∧
      g'.record.roster.players.map (·.stances) =
        [[], [(⟨1⟩, .neutral), (⟨3⟩, .allies)]] ∧
      g'.record.objects = record.objects ∧ g'.takeOver record = (.ok (), g') := by
  intro files g record
  have reachable : g.Reachable := (Reachable.start {}).run _
  have checked : (g.takeOver record).1 = .ok () := by decide +kernel
  have fits : record.Fits g := (fits_or_fault g record).resolve_right fun ⟨e, fault⟩ => by
    rw [takeOver_of_fault fault] at checked
    cases checked
  obtain ⟨g', accepted⟩ : ∃ g', g.takeOver record = (.ok (), g') :=
    ⟨_, takeOver_of_fits fits⟩
  obtain ⟨overwritten, saved, again⟩ := takeOver_overwrites reachable accepted
  have blue := overwritten.players 1 _ rfl
  refine ⟨reachable, g', accepted, blue.name, ?_⟩
  rw [blue.displayName, blue.buildings, blue.commander, saved]
  exact ⟨by decide +kernel, by decide +kernel, by decide +kernel, by decide +kernel, rfl, again⟩

end Game

end BattleRoster
