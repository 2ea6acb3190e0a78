import BattleRoster.Proofs.Roster.Order
import BattleRoster.Team.Table

/-!
# What can happen to a roster

A roster is set up, reset and restored as a whole, it changes its local player,
and its players are related to one another and given upgrades.  Whichever of
these happen, and however often a request is refused, the roster is in order.
-/

namespace BattleRoster.Roster

/-- One request to a roster, whatever keeps the teams; a refused one changes nothing. -/
inductive Step : Roster → Roster → Prop where
  | newGame {σ : Type} [TeamSource σ] {o : Options} {sides : List Side} {r : Roster} {teams : σ}
      {set : NewGame σ} (started : r.newGame o sides teams = .ok set) : Step r set.roster
  | newGameRefused {σ : Type} [TeamSource σ] {o : Options} {sides : List Side} {r : Roster}
      {teams : σ} {e : RosterError} (refused : r.newGame o sides teams = .error e) : Step r r
  | reset {σ : Type} [TeamSource σ] (r : Roster) (teams : σ) : Step r (r.reset teams).1
  | restore {r restored : Roster} {record : RosterRecord}
      (accepted : r.restore record = .ok restored) : Step r restored
  | restoreRefused {r : Roster} {record : RosterRecord} {e : RecordError}
      (refused : r.restore record = .error e) : Step r r
  | setLocal (r : Roster) (slot : Option Slot) : Step r (r.setLocal slot)
  | setStance (r : Roster) (slot other : Slot) (stance : Stance) :
      Step r (r.setStance slot other stance)
  | forgetTeam (r : Roster) (team : TeamId) : Step r (r.forgetTeam team)
  | setTeamStance (r : Roster) (slot : Slot) (team : TeamId) (stance : Stance) :
      Step r (r.modify slot (·.setStance team stance))
  | forgetTeamOf (r : Roster) (slot : Slot) (team : TeamId) :
      Step r (r.modify slot (·.forget team))
  | addUpgrades (r : Roster) (slot : Slot) (upgrades : UpgradeSet) :
      Step r (r.modify slot (·.addUpgrades upgrades))
  | removeUpgrades (r : Roster) (slot : Slot) (upgrades : UpgradeSet) :
      Step r (r.modify slot (·.removeUpgrades upgrades))

inductive Reachable : Roster → Prop where
  | initial : Reachable initial
  | step {r r' : Roster} (earlier : Reachable r) (request : Step r r') : Reachable r'

/-- One request keeps a roster in order. -/
theorem Orderly.step {r r' : Roster} (orderly : r.Orderly) (request : Step r r') :
    r'.Orderly := by
  cases request with
  | newGame started => exact orderly_newGame started
  | newGameRefused refused => exact orderly
  | reset r teams =>
      rw [show (r.reset teams).1 = Roster.initial from vacate_eq_initial r]
      exact orderly_initial
  | restore accepted => exact orderly.restore accepted
  | restoreRefused refused => exact orderly
  | setLocal r slot => exact orderly.setLocal slot
  | setStance r slot other stance => exact orderly.setStance slot other stance
  | forgetTeam r team => exact orderly.forgetTeam team
  | setTeamStance r slot team stance =>
      exact orderly.modify (fun _ commanded => commanded.setStance team stance) (fun _ => rfl)
        fun _ _ absent => absent.setStance team stance
  | forgetTeamOf r slot team =>
      exact orderly.modify (fun _ commanded => commanded.forget team) (fun _ => rfl)
        fun _ _ absent => absent.forget team
  | addUpgrades r slot upgrades =>
      exact orderly.modify (fun _ commanded => commanded) (fun _ => rfl)
        fun _ _ absent => absent.addUpgrades upgrades
  | removeUpgrades r slot upgrades =>
      exact orderly.modify (fun _ commanded => commanded) (fun _ => rfl)
        fun _ _ absent => absent.removeUpgrades upgrades

theorem Reachable.orderly {r : Roster} (reachable : r.Reachable) : r.Orderly := by
  induction reachable with
  | initial => exact orderly_initial
  | step earlier request ih => exact ih.step request

/--
Whatever has been asked of a roster, its sixteen players stand at the places
that number their slots, one of them alone is marked, the local one, and the
roster is in order.
-/
theorem reachable_in_order {r : Roster} (reachable : r.Reachable) :
    r.players.toList = Slot.all.map r.player ∧ Slot.all.map (·.val) = List.range slotCount ∧
      Slot.all.filter (fun slot => (r.player slot).isLocal) = [r.localSlot] ∧
      r.localPlayer.isLocal = true ∧ r.Orderly := by
  have orderly := reachable.orderly
  refine ⟨?_, by decide, ?_, (orderly.marked _).mpr rfl, orderly⟩
  · refine List.ext_getElem (by simp [Slot.all]) fun i placed _ => ?_
    simp [Slot.all, player]
  · have marks : (fun slot => (r.player slot).isLocal) =
        fun slot => decide (slot = r.localSlot) := by
      funext slot
      rw [Bool.eq_iff_iff, orderly.marked, decide_eq_true_eq]
    have alone : ∀ slot : Slot,
        Slot.all.filter (fun other => decide (other = slot)) = [slot] := by
      decide
    rw [marks, alone]

/-- A campaign's local player is moved to a vacant slot, and its human handed to the computer. -/
theorem reachable_in_order_moved :
    let o : Options := { campaign := true, skirmish := false }
    let sides : List Side := [
      { attributes := .ofList [("playerName", .text "Red"), ("playerIsHuman", .flag true)] },
      { attributes := .ofList [("playerName", .text "Blue")] }]
    let taken (name : String) : PlayerRecord :=
      { name, controller := .computer, defaultTeam := none, stances := [], upgrades := ∅ }
    let record : RosterRecord :=
      { version := 1, count := 3, players := [taken "", taken "Gold", taken "Blue"] }
    ∃ set restored, newGame o sides initial ({} : TeamTable) = .ok set ∧
      set.roster.localSlot = 1 ∧ set.roster.humans = [1] ∧
      (set.roster.setLocal (some 9)).restore record = .ok restored ∧ restored.Reachable ∧
      restored.count = 3 ∧ restored.localSlot = 9 ∧ restored.humans = [1] ∧
      (restored.player 1).commander.isSome = true ∧ (restored.player 9).Absent ∧
      Slot.all.filter (fun slot => (restored.player slot).isLocal) = [9] := by
  intro o sides taken record
  obtain ⟨set, started, chosen, count, humans⟩ : ∃ set,
      newGame o sides initial ({} : TeamTable) = .ok set ∧ set.roster.localSlot = 1 ∧
        set.roster.count = 3 ∧ set.roster.humans = [1] :=
    ⟨_, rfl, by decide +kernel, by decide +kernel, by decide +kernel⟩
  have moved : (set.roster.setLocal (some 9)).Reachable :=
    .step (.step .initial (.newGame started)) (.setLocal _ _)
  have fits : record.Fits (set.roster.setLocal (some 9)) := by
    constructor <;> simp [record, count_setLocal, count]
  have accepted : (set.roster.setLocal (some 9)).restore record =
      .ok ((set.roster.setLocal (some 9)).withRecords record.players) := by
    unfold restore
    rw [checkRecord_eq_ok.mpr fits]
  have three : ((set.roster.setLocal (some 9)).withRecords record.players).count = 3 :=
    (count_setLocal _ _).trans count
  have reachable := Reachable.step moved (.restore accepted)
  obtain ⟨-, -, alone, -, orderly⟩ := reachable_in_order reachable
  refine ⟨set, _, started, chosen, humans, accepted, reachable, three, ?_, ?_, ?_, ?_, ?_⟩
  · exact localSlot_setLocal _ _
  · exact (humans_setLocal _ _).trans humans
  · rw [player_withRecords]
    rfl
  · exact orderly.absent 9 (by rw [three]; decide)
  · rw [alone]
    exact congrArg (fun slot => [slot]) (localSlot_setLocal _ _)

end BattleRoster.Roster
