import BattleRoster.Proofs.Roster.Seating
import BattleRoster.Roster.Record

/-!
# Commanders

The computer's players have a commander and the others have none.  A record
does not say whether there is one, so it has to follow from who controls the
player, in every roster that setting up games and restoring can lead to.
-/

namespace BattleRoster

/-- A player has a commander exactly when the computer controls it. -/
def Player.Commanded (p : Player) : Prop :=
  p.commander.isSome = true ↔ p.controller = .computer

namespace Player

theorem commanded_vacant : vacant.Commanded := by
  simp [Commanded, vacant]

/-- Whoever takes over a player brings a commander or dismisses the one it had. -/
theorem commanded_control (p : Player) (controller : Controller) :
    (p.control controller).Commanded := by
  cases controller <;> simp [control, Commanded]

theorem commanded_ofSide (side : Side) : (ofSide side).Commanded :=
  commanded_control _ _

theorem Commanded.markLocal {p : Player} (commanded : p.Commanded) (isLocal : Bool) :
    (p.markLocal isLocal).Commanded :=
  commanded

/-- A commander that takes command of a team stays. -/
theorem Commanded.setDefaultTeam {p : Player} (commanded : p.Commanded) (team : Option TeamId) :
    (p.setDefaultTeam team).Commanded := by
  unfold Commanded at commanded ⊢
  unfold Player.setDefaultTeam
  rw [← commanded]
  cases p.commander <;> cases team <;> simp

theorem Commanded.setStance {p : Player} (commanded : p.Commanded) (team : TeamId)
    (stance : Stance) : (p.setStance team stance).Commanded :=
  commanded

/-- A record with the computer keeps the commander there was, and any other dismisses it. -/
theorem commander_restore (p : Player) (record : PlayerRecord) :
    (p.restore record).commander =
      if record.controller = .computer then some (p.commander.getD {}) else none := by
  cases controller : record.controller <;> simp [restore, control, controller]

theorem commanded_restore (p : Player) (record : PlayerRecord) :
    (p.restore record).Commanded :=
  commanded_control p record.controller

end Player

namespace Roster

/-- A roster with no more players than slots, each commanded as it should be. -/
structure Sound (r : Roster) : Prop where
  count : r.count ≤ 16
  commanded : ∀ slot, (r.player slot).Commanded

/-! ## One change at a time -/

theorem Sound.modify {r : Roster} (sound : r.Sound) {change : Player → Player}
    (keeps : ∀ p : Player, p.Commanded → (change p).Commanded) (slot : Slot) :
    (r.modify slot change).Sound :=
  ⟨sound.count, forall_player_modify sound.commanded keeps slot⟩

theorem commanded_setLocal {r : Roster} (commanded : ∀ slot, (r.player slot).Commanded)
    (slot : Option Slot) (other : Slot) : ((r.setLocal slot).player other).Commanded :=
  forall_player_setLocal (fun _ isLocal kept => kept.markLocal isLocal) commanded slot other

theorem sound_initial : initial.Sound :=
  ⟨by decide, forall_player_initial (fun _ isLocal kept => kept.markLocal isLocal)
    Player.commanded_vacant⟩

/-! ## Setting up a game -/

theorem sound_seatAll (o : Options) {sides : List Side} (few : namedCount sides ≤ 15) :
    (seatAll o sides initial).Sound := by
  refine ⟨by rw [count_seatAll o few]; omega, ?_⟩
  exact forall_player_seatAll (fun _ isLocal kept => kept.markLocal isLocal)
    Player.commanded_vacant Player.commanded_ofSide (fun p _ => p.commanded_control .human) o sides

/-- A new game has a sound roster, whatever came before it. -/
theorem sound_newGame {σ : Type} [TeamSource σ] {o : Options} {sides : List Side} {r : Roster}
    {teams : σ} {set : NewGame σ} (started : newGame o sides r teams = .ok set) :
    set.roster.Sound :=
  newGame_induction
    (fun _ slot team _ sound => sound.modify (fun _ kept => kept.setDefaultTeam team) slot)
    (fun _ slot team stance sound => sound.modify (fun _ kept => kept.setStance team stance) slot)
    started (sound_seatAll o (namedCount_le_of_newGame started))

/-! ## Restoring -/

theorem player_withRecords (r : Roster) (records : List PlayerRecord) (slot : Slot) :
    (r.withRecords records).player slot =
      match records[slot.val]? with
      | some record => (r.player slot).restore record
      | none => r.player slot := by
  cases found : records[slot.val]? <;> simp [withRecords, player, found]

theorem Sound.withRecords {r : Roster} (sound : r.Sound) (records : List PlayerRecord) :
    (r.withRecords records).Sound := by
  refine ⟨sound.count, fun slot => ?_⟩
  rw [player_withRecords]
  split
  · exact Player.commanded_restore _ _
  · exact sound.commanded slot

end Roster

end BattleRoster
