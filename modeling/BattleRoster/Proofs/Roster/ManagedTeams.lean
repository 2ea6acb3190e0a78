import BattleRoster.Proofs.Roster.Order
import BattleRoster.Proofs.Roster.Stances

/-!
# The teams that commanders manage

When a game is set up, each commander is given the default team of its player.  A
record has default teams, but nothing of commanders, and restoring one does not
give the team to the commander.  So what a commander manages is settled by how
the game was set up, and by whether the computer has held the player ever since.
-/

namespace BattleRoster

/-- If the computer controls a player, the default team and no other is managed. -/
def Player.ManagesOwn (p : Player) : Prop :=
  p.controller = .computer → p.commander = some { teams := p.defaultTeam.toList }

namespace Player

theorem managesOwn_vacant : vacant.ManagesOwn := by
  intro computer
  cases computer

theorem managesOwn_ofSide (side : Side) : (ofSide side).ManagesOwn := by
  intro computer
  cases human : side.isHuman with
  | true => simp [ofSide, control, human] at computer
  | false => simp [ofSide, control, human]

theorem managesOwn_control_human (p : Player) : (p.control .human).ManagesOwn := by
  intro computer
  cases computer

theorem ManagesOwn.setStance {p : Player} (own : p.ManagesOwn) (team : TeamId) (stance : Stance) :
    (p.setStance team stance).ManagesOwn :=
  own

/-- A commander without a team is given the first one. -/
theorem ManagesOwn.setDefaultTeam {p : Player} (own : p.ManagesOwn) (free : p.defaultTeam = none)
    (team : Option TeamId) : (p.setDefaultTeam team).ManagesOwn := by
  intro computer
  have commander : p.commander = some {} := by
    rw [own computer, free]
    rfl
  cases team <;> simp [Player.setDefaultTeam, commander]

end Player

namespace Roster

/-- In a new game every commander manages the default team of its player. -/
theorem managesOwn_newGame {o : Options} {sides : List Side} {r : Roster} {teams : TeamTable}
    {set : NewGame TeamTable} (started : newGame o sides r teams = .ok set) (slot : Slot) :
    (set.roster.player slot).ManagesOwn := by
  rw [newGame_eq o (namedCount_le_of_newGame started)] at started
  cases started
  have seated : ∀ slot, ((seatAll o sides initial).player slot).defaultTeam = none ∧
      ((seatAll o sides initial).player slot).ManagesOwn :=
    forall_player_seatAll (P := fun p => p.defaultTeam = none ∧ p.ManagesOwn)
      (fun _ _ kept => kept) ⟨rfl, Player.managesOwn_vacant⟩
      (fun side => ⟨rfl, Player.managesOwn_ofSide side⟩)
      (fun p kept => ⟨kept.1, p.managesOwn_control_human⟩) o sides
  refine stances_induction (Q := fun r => ∀ slot, (r.player slot).ManagesOwn)
    (fun r slot other stance own => ?_) (fun slot => ?_) _ slot
  · unfold setStance
    split
    · next team _ => exact forall_player_modify own (fun _ own => own.setStance team stance) slot
    · exact own
  · obtain ⟨free, own⟩ := seated slot
    rw [player_teamed]
    split
    · exact own.setDefaultTeam free _
    · exact own

/-- A roster as it is set up: before any game, or for a new one, whatever came before it. -/
inductive SetUp : Roster → Prop where
  | initial : SetUp initial
  | newGame {o : Options} {sides : List Side} {r : Roster} {teams : TeamTable}
      {set : NewGame TeamTable} (started : newGame o sides r teams = .ok set) :
      SetUp set.roster

theorem SetUp.sound {r : Roster} (setUp : r.SetUp) : r.Sound := by
  cases setUp with
  | initial => exact sound_initial
  | newGame started => exact sound_newGame started

theorem SetUp.managesOwn {r : Roster} (setUp : r.SetUp) (slot : Slot) :
    (r.player slot).ManagesOwn := by
  cases setUp with
  | initial => exact forall_player_initial (fun _ _ own => own) Player.managesOwn_vacant slot
  | newGame started => exact managesOwn_newGame started slot

/-! ## Restoring again and again -/

/-- Take over one record after the other; one that does not fit is refused. -/
def restoreAll (r : Roster) (records : List RosterRecord) : Except RecordError Roster :=
  records.foldlM restore r

theorem restoreAll_cons_eq_ok {r later : Roster} {record : RosterRecord}
    {records : List RosterRecord} :
    r.restoreAll (record :: records) = .ok later ↔
      record.Fits r ∧ (r.withRecords record.players).restoreAll records = .ok later := by
  unfold restoreAll
  rw [List.foldlM_cons]
  constructor
  · intro taken
    cases first : r.restore record with
    | error e =>
        rw [first] at taken
        cases taken
    | ok restored =>
        obtain ⟨fits, rfl⟩ := restore_eq_ok.mp first
        rw [first] at taken
        exact ⟨fits, taken⟩
  · rintro ⟨fits, taken⟩
    rw [restore_eq_ok.mpr ⟨fits, rfl⟩]
    exact taken

/-- The computer controls a player at the start and in all records since. -/
structure HeldThroughout (start : Roster) (records : List RosterRecord) (slot : Slot) : Prop where
  start : (start.player slot).controller = .computer
  since : ∀ record ∈ records, ∀ saved, record.players[slot.val]? = some saved →
    saved.controller = .computer

/-- One more record at the start goes on holding a player, or it breaks the hold. -/
theorem heldThroughout_cons {start : Roster} (sound : start.Sound) {record : RosterRecord}
    {records : List RosterRecord} {slot : Slot} {team : TeamId} :
    (HeldThroughout start (record :: records) slot ∧
        ∃ c, (start.player slot).commander = some c ∧ team ∈ c.teams) ↔
      HeldThroughout (start.withRecords record.players) records slot ∧
        ∃ c, ((start.withRecords record.players).player slot).commander = some c ∧
          team ∈ c.teams := by
  have commanded := sound.commanded slot
  have after := player_withRecords start record.players slot
  cases found : record.players[slot.val]? with
  | none =>
      rw [found] at after
      dsimp only at after
      rw [after]
      constructor
      · rintro ⟨⟨held, since⟩, manages⟩
        exact ⟨⟨after.symm ▸ held, fun r mem => since r (List.mem_cons_of_mem _ mem)⟩,
          manages⟩
      · rintro ⟨⟨held, since⟩, manages⟩
        refine ⟨⟨after ▸ held, List.forall_mem_cons.mpr ⟨fun saved here => ?_, since⟩⟩,
          manages⟩
        rw [found] at here
        cases here
  | some saved =>
      rw [found] at after
      dsimp only at after
      rw [after, Player.commander_restore]
      constructor
      · rintro ⟨⟨held, since⟩, c, commander, among⟩
        obtain ⟨here, since⟩ := List.forall_mem_cons.mp since
        have computer := here saved found
        refine ⟨⟨?_, since⟩, c, ?_, among⟩
        · rw [after]
          exact computer
        · rw [if_pos computer, commander]
          rfl
      · rintro ⟨⟨held, since⟩, c, commander, among⟩
        rw [after] at held
        have computer : saved.controller = .computer := held
        rw [if_pos computer] at commander
        -- A fresh commander manages nothing, so there was one before the record.
        cases before : (start.player slot).commander with
        | none =>
            rw [before] at commander
            cases commander
            cases among
        | some earlier =>
            rw [before] at commander
            cases commander
            refine ⟨⟨commanded.mp (by rw [before]; rfl), ?_⟩, earlier, rfl, among⟩
            refine List.forall_mem_cons.mpr ⟨fun other here => ?_, since⟩
            obtain rfl := Option.some.inj (found.symm.trans here)
            exact computer

/-- A commander manages what it managed at the start if its player was held throughout. -/
theorem commander_restoreAll {start r : Roster} (sound : start.Sound)
    {records : List RosterRecord} (taken : start.restoreAll records = .ok r) {slot : Slot}
    (computer : (r.player slot).controller = .computer) :
    ∃ commander, (r.player slot).commander = some commander ∧ ∀ team,
      team ∈ commander.teams ↔ start.HeldThroughout records slot ∧
        ∃ c, (start.player slot).commander = some c ∧ team ∈ c.teams := by
  induction records generalizing start with
  | nil =>
      cases taken
      obtain ⟨commander, present⟩ := Option.isSome_iff_exists.mp
        ((sound.commanded slot).mpr computer)
      refine ⟨commander, present, fun team => ⟨fun among => ?_, ?_⟩⟩
      · exact ⟨⟨computer, List.forall_mem_nil _⟩, commander, present, among⟩
      · rintro ⟨-, c, same, among⟩
        obtain rfl := Option.some.inj (present.symm.trans same)
        exact among
  | cons record records ih =>
      obtain ⟨-, rest⟩ := restoreAll_cons_eq_ok.mp taken
      obtain ⟨commander, present, manages⟩ := ih (sound.withRecords record.players) rest
      exact ⟨commander, present,
        fun team => (manages team).trans (heldThroughout_cons sound).symm⟩

/--
Whatever has been restored since a roster was set up, a computer's player has a
commander, and it manages the default team that the player was set up with if the
computer has held the player ever since, and nothing else.
-/
theorem managed_teams_iff {start r : Roster} (setUp : start.SetUp)
    {records : List RosterRecord} (taken : start.restoreAll records = .ok r) {slot : Slot}
    (computer : (r.player slot).controller = .computer) :
    ∃ commander, (r.player slot).commander = some commander ∧ ∀ team,
      team ∈ commander.teams ↔
        start.HeldThroughout records slot ∧ (start.player slot).defaultTeam = some team := by
  obtain ⟨commander, present, manages⟩ := commander_restoreAll setUp.sound taken computer
  refine ⟨commander, present, fun team => (manages team).trans (and_congr_right fun held => ?_)⟩
  rw [setUp.managesOwn slot held.start]
  simp

/-- The sides of a game between Red, a human, and Blue. -/
def redAndBlue : List Side := [
  { attributes := .ofList [("playerName", .text "Red"), ("playerIsHuman", .flag true)] },
  { attributes := .ofList [("playerName", .text "Blue")] }]

/-- What is saved when Blue has the first slot and Red the second. -/
def blueFirst : RosterRecord where
  version := 1
  count := 3
  players := [
    { name := "", controller := .neutral, defaultTeam := some ⟨0⟩,
      stances := [(⟨0⟩, .allies)], upgrades := ∅ },
    { name := "Blue", controller := .computer, defaultTeam := some ⟨1⟩,
      stances := [(⟨0⟩, .neutral), (⟨1⟩, .allies)], upgrades := ∅ },
    { name := "Red", controller := .human, defaultTeam := some ⟨2⟩,
      stances := [(⟨0⟩, .neutral), (⟨2⟩, .allies)], upgrades := ∅ }]

/-- Red and Blue are seated in this order, whatever came before. -/
theorem redAndBlue_seated (r : Roster) (teams : TeamTable) :
    ∃ set, newGame {} redAndBlue r teams = .ok set ∧ set.roster.count = 3 ∧
      (set.roster.player 1).commander = none ∧ (set.roster.player 2).controller = .computer ∧
      (set.roster.player 2).defaultTeam = some ⟨2⟩ := by
  rw [newGame_eq {} (by decide)]
  exact ⟨_, rfl, by decide +kernel, by decide +kernel, by decide +kernel, by decide +kernel⟩

/-- Blue's commander keeps the team that it was set up with when Blue joins another one. -/
theorem managed_teams_iff_moved :
    let moved (team : TeamId) : RosterRecord := { blueFirst with
      players := blueFirst.players.map fun p =>
        { p with controller := .computer, defaultTeam := some team } }
    ∃ set r, newGame {} redAndBlue initial ({} : TeamTable) = .ok set ∧
      set.roster.restoreAll [moved ⟨1⟩, moved ⟨7⟩] = .ok r ∧
      (r.player 2).defaultTeam = some ⟨7⟩ ∧ ∃ commander,
        (r.player 2).commander = some commander ∧ ⟨2⟩ ∈ commander.teams ∧
          ⟨7⟩ ∉ commander.teams := by
  intro moved
  obtain ⟨set, started, count, -, computer, team⟩ := redAndBlue_seated initial {}
  have fits (team : TeamId) (r : Roster) (three : r.count = 3) : (moved team).Fits r :=
    ⟨rfl, three.symm, three.symm⟩
  have taken : set.roster.restoreAll [moved ⟨1⟩, moved ⟨7⟩] =
      .ok ((set.roster.withRecords (moved ⟨1⟩).players).withRecords (moved ⟨7⟩).players) :=
    restoreAll_cons_eq_ok.mpr
      ⟨fits _ _ count, restoreAll_cons_eq_ok.mpr ⟨fits _ _ count, rfl⟩⟩
  have written (r : Roster) (team : TeamId) :
      ((r.withRecords (moved team).players).player 2).controller = .computer ∧
        ((r.withRecords (moved team).players).player 2).defaultTeam = some team := by
    rw [player_withRecords]
    exact ⟨rfl, rfl⟩
  obtain ⟨commander, present, manages⟩ :=
    managed_teams_iff (.newGame started) taken (written _ ⟨7⟩).1
  have held : set.roster.HeldThroughout [moved ⟨1⟩, moved ⟨7⟩] 2 := by
    refine ⟨computer, List.forall_mem_cons.mpr ⟨?_, List.forall_mem_singleton.mpr ?_⟩⟩
    · rintro saved found
      cases found
      rfl
    · rintro saved found
      cases found
      rfl
  refine ⟨set, _, started, taken, (written _ ⟨7⟩).2, commander, present,
    (manages _).mpr ⟨held, team⟩, fun among => ?_⟩
  have same := team.symm.trans ((manages _).mp among).2
  exact absurd same (by decide)

/--
A game with Blue in the first slot is saved, and taken over in one with Red there.
Blue is controlled by the computer then, but its commander does not manage its team.
-/
theorem default_team_unmanaged :
    ∃ saved live restored, newGame {} redAndBlue.reverse initial ({} : TeamTable) = .ok saved ∧
      newGame {} redAndBlue saved.roster saved.teams = .ok live ∧
      live.roster.count = saved.roster.count ∧
      live.roster.restore saved.roster.record = .ok restored ∧
      (1 : Slot).val < restored.count ∧ (restored.player 1).controller = .computer ∧
      (restored.player 1).defaultTeam = some ⟨1⟩ ∧ ∃ commander,
        (restored.player 1).commander = some commander ∧ ⟨1⟩ ∉ commander.teams := by
  obtain ⟨saved, first, three, record⟩ : ∃ saved,
      newGame {} redAndBlue.reverse initial ({} : TeamTable) = .ok saved ∧
        saved.roster.count = 3 ∧ saved.roster.record = blueFirst :=
    ⟨_, rfl, by decide +kernel, by decide +kernel⟩
  obtain ⟨live, second, count, nobody, -⟩ := redAndBlue_seated saved.roster saved.teams
  have accepted : live.roster.restore saved.roster.record =
      .ok (live.roster.withRecords blueFirst.players) := by
    rw [record]
    exact restore_eq_ok.mpr ⟨⟨rfl, count.symm, count.symm⟩, rfl⟩
  have blue : (live.roster.withRecords blueFirst.players).player 1 =
      (live.roster.player 1).restore blueFirst.players[1] :=
    player_withRecords _ _ _
  refine ⟨saved, live, _, first, second, count.trans three.symm, accepted, ?_, ?_, ?_,
    {}, ?_, ?_⟩
  · change 1 < live.roster.count
    rw [count]
    decide
  · rw [blue]
    rfl
  · rw [blue]
    rfl
  · rw [blue, Player.commander_restore, nobody]
    rfl
  · exact List.not_mem_nil

end Roster

end BattleRoster
