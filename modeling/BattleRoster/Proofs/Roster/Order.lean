import BattleRoster.Proofs.Roster.Commanders
import BattleRoster.Proofs.Session.Restore

/-!
# The order of a roster

Who is local is kept with the players and once more as a slot; the slots of a
campaign's humans are kept apart from the players; and the slots after the
active ones stay vacant, although marks, stances and upgrades reach every slot.
Every operation of a roster keeps these in step with one another.
-/

namespace BattleRoster

/-- Nobody plays in a slot: it has no name, no controller, and nothing of a side. -/
structure Player.Absent (p : Player) : Prop where
  name : p.name = ""
  controller : p.controller = .neutral
  commander : p.commander = none
  defaultTeam : p.defaultTeam = none
  lobbySlot : p.lobbySlot = none
  buildings : p.buildings = []

namespace Player

variable {p : Player}

theorem absent_vacant : vacant.Absent :=
  ⟨rfl, rfl, rfl, rfl, rfl, rfl⟩

theorem Absent.markLocal (absent : p.Absent) (isLocal : Bool) : (p.markLocal isLocal).Absent :=
  { absent with }

theorem Absent.setStance (absent : p.Absent) (team : TeamId) (stance : Stance) :
    (p.setStance team stance).Absent :=
  { absent with }

theorem Absent.addUpgrades (absent : p.Absent) (upgrades : UpgradeSet) :
    (p.addUpgrades upgrades).Absent :=
  { absent with }

theorem Absent.removeUpgrades (absent : p.Absent) (upgrades : UpgradeSet) :
    (p.removeUpgrades upgrades).Absent :=
  { absent with }

/-- Whoever has neither a commander nor a team has none to forget. -/
theorem Absent.forget (absent : p.Absent) (team : TeamId) : (p.forget team).Absent := by
  refine { absent with commander := ?_, defaultTeam := ?_ }
  · simp [Player.forget, absent.commander]
  · simp [Player.forget, absent.defaultTeam]

theorem Commanded.forget (commanded : p.Commanded) (team : TeamId) :
    (p.forget team).Commanded := by
  unfold Commanded at commanded ⊢
  simpa [Player.forget] using commanded

end Player

namespace Roster

/--
Between requests the neutral player is active, just one player is marked as the
local one, nobody plays beyond the active slots, and a campaign's humans are
different active players.
-/
structure Orderly (r : Roster) : Prop extends r.Sound where
  positive : 1 ≤ r.count
  marked : ∀ slot, (r.player slot).isLocal = true ↔ slot = r.localSlot
  absent : ∀ slot : Slot, r.count ≤ slot.val → (r.player slot).Absent
  distinct : r.humans.Nodup
  seated : ∀ slot ∈ r.humans, slot.val < r.count

/-! ## Changes of single players -/

/-- Players may change while they keep their marks and the vacant slots stay vacant. -/
theorem Orderly.of_players {r r' : Roster} (orderly : r.Orderly) (count : r'.count = r.count)
    (localSlot : r'.localSlot = r.localSlot) (humans : r'.humans = r.humans)
    (commanded : ∀ slot, (r'.player slot).Commanded)
    (marks : ∀ slot, (r'.player slot).isLocal = (r.player slot).isLocal)
    (absent : ∀ slot : Slot, r.count ≤ slot.val → (r'.player slot).Absent) : r'.Orderly where
  count := count ▸ orderly.count
  commanded := commanded
  positive := count ▸ orderly.positive
  marked slot := by rw [marks, localSlot, orderly.marked]
  absent slot beyond := absent slot (count ▸ beyond)
  distinct := humans ▸ orderly.distinct
  seated := by rw [humans, count]; exact orderly.seated

theorem Orderly.modify {r : Roster} (orderly : r.Orderly) {change : Player → Player} {slot : Slot}
    (commanded : ∀ p : Player, p.Commanded → (change p).Commanded)
    (mark : ∀ p, (change p).isLocal = p.isLocal)
    (absent : r.count ≤ slot.val → ∀ p : Player, p.Absent → (change p).Absent) :
    (r.modify slot change).Orderly := by
  refine orderly.of_players rfl rfl rfl
    (forall_player_modify orderly.commanded commanded slot) ?_ ?_
  · intro other
    rw [player_modify]
    split
    · next here => rw [mark, here]
    · rfl
  · intro other beyond
    rw [player_modify]
    split
    · next here => exact absent (here ▸ beyond) _ (orderly.absent slot (here ▸ beyond))
    · exact orderly.absent other beyond

theorem Orderly.setStance {r : Roster} (orderly : r.Orderly) (slot other : Slot)
    (stance : Stance) : (r.setStance slot other stance).Orderly := by
  unfold Roster.setStance
  split
  · next team _ =>
      exact orderly.modify (fun _ commanded => commanded.setStance team stance) (fun _ => rfl)
        fun _ _ absent => absent.setStance team stance
  · exact orderly

theorem Orderly.forgetTeam {r : Roster} (orderly : r.Orderly) (team : TeamId) :
    (r.forgetTeam team).Orderly := by
  refine orderly.of_players rfl rfl rfl ?_ ?_ ?_
  · intro slot
    rw [player_forgetTeam]
    exact (orderly.commanded slot).forget team
  · intro slot
    rw [player_forgetTeam]
    rfl
  · intro slot beyond
    rw [player_forgetTeam]
    exact (orderly.absent slot beyond).forget team

/-! ## The local player -/

/-- Making a slot local marks its player, and takes the mark from the one that had it. -/
theorem Orderly.player_setLocal {r : Roster} (orderly : r.Orderly) (slot : Option Slot)
    (other : Slot) :
    (r.setLocal slot).player other =
      (r.player other).markLocal (decide (other = slot.getD Slot.neutral)) := by
  have unchanged {p : Player} {isLocal : Bool} (same : p.isLocal = isLocal) :
      p.markLocal isLocal = p := by
    subst same
    rfl
  have mark : (r.player other).isLocal = decide (other = r.localSlot) := by
    rw [Bool.eq_iff_iff, orderly.marked, decide_eq_true_eq]
  unfold setLocal
  dsimp only
  split
  · next already =>
      rw [already]
      exact (unchanged mark).symm
  · next moved =>
      rw [player_modify]
      by_cases here : slot.getD Slot.neutral = other
      · subst here
        rw [if_pos rfl, decide_eq_true rfl]
        change ((r.modify r.localSlot (·.markLocal false)).player
          (slot.getD Slot.neutral)).markLocal true = _
        rw [player_modify, if_neg (Ne.symm moved)]
      · rw [if_neg here, decide_eq_false (Ne.symm here)]
        change (r.modify r.localSlot (·.markLocal false)).player other = _
        rw [player_modify]
        split
        · next before => rw [before]
        · next before =>
            have unmarked : (r.player other).isLocal = false := by
              rw [mark, decide_eq_false (Ne.symm before)]
            exact (unchanged unmarked).symm

@[simp] theorem localSlot_setLocal (r : Roster) (slot : Option Slot) :
    (r.setLocal slot).localSlot = slot.getD Slot.neutral := by
  unfold setLocal
  dsimp only
  split
  · next already => exact already.symm
  · rfl

@[simp] theorem humans_setLocal (r : Roster) (slot : Option Slot) :
    (r.setLocal slot).humans = r.humans := by
  unfold setLocal
  dsimp only
  split <;> rfl

theorem Orderly.setLocal {r : Roster} (orderly : r.Orderly) (slot : Option Slot) :
    (r.setLocal slot).Orderly where
  count := by rw [count_setLocal]; exact orderly.count
  commanded := commanded_setLocal orderly.commanded slot
  positive := by rw [count_setLocal]; exact orderly.positive
  marked other := by
    rw [orderly.player_setLocal, localSlot_setLocal]
    exact decide_eq_true_iff
  absent other beyond := by
    rw [count_setLocal] at beyond
    rw [orderly.player_setLocal]
    exact (orderly.absent other beyond).markLocal _
  distinct := by rw [humans_setLocal]; exact orderly.distinct
  seated := by rw [humans_setLocal, count_setLocal]; exact orderly.seated

theorem orderly_initial : initial.Orderly where
  toSound := sound_initial
  positive := Nat.le_refl 1
  marked slot := by
    unfold initial
    rw [player_vacate]
    split
    · next neutral => exact iff_of_true rfl neutral
    · next player => exact iff_of_false Bool.false_ne_true player
  absent slot beyond := by
    have player : slot ≠ Slot.neutral := by
      rintro rfl
      exact absurd beyond (by decide)
    unfold initial
    rw [player_vacate, if_neg player]
    exact Player.absent_vacant
  distinct := List.nodup_nil
  seated slot mem := by cases mem

/-! ## Taking seats -/

/-- While seats are taken the local player is one of those who have a seat. -/
structure Filling (r : Roster) : Prop extends r.Orderly where
  localSeated : r.localSlot.val < r.count

theorem filling_initial : initial.Filling :=
  ⟨orderly_initial, by decide⟩

theorem Filling.setLocal {r : Roster} (filling : r.Filling) {slot : Slot}
    (seated : slot.val < r.count) : (r.setLocal (some slot)).Filling where
  toOrderly := filling.toOrderly.setLocal (some slot)
  localSeated := by
    rw [localSlot_setLocal, count_setLocal]
    exact seated

/--
The next slot takes the player of a side.  Whoever was local keeps the mark,
since it belongs to a slot before this one.
-/
theorem Filling.grow {r : Roster} (filling : r.Filling) {slot : Slot} (next : slot.val = r.count)
    (side : Side) :
    Filling { r.modify slot (·.seat side) with count := r.count + 1 } := by
  have player (other : Slot) :
      Roster.player { r.modify slot (·.seat side) with count := r.count + 1 } other =
        if slot = other then Player.ofSide side else r.player other :=
    player_modify r slot other (·.seat side)
  have fresh : r.localSlot ≠ slot := by
    intro same
    have seated := filling.localSeated
    rw [same, next] at seated
    exact Nat.lt_irrefl _ seated
  constructor
  case localSeated => exact Nat.lt_succ_of_lt filling.localSeated
  constructor
  case positive => exact Nat.succ_le_succ (Nat.zero_le _)
  case distinct => exact filling.distinct
  case seated => exact fun other mem => Nat.lt_succ_of_lt (filling.seated other mem)
  case toSound =>
    constructor
    · exact next ▸ slot.isLt
    · intro other
      rw [player]
      split
      · exact Player.commanded_ofSide side
      · exact filling.commanded other
  case marked =>
    intro other
    rw [player]
    split
    · next here => exact iff_of_false Bool.false_ne_true fun same => fresh (here ▸ same.symm)
    · exact filling.marked other
  case absent =>
    intro other beyond
    have later : r.count + 1 ≤ other.val := beyond
    rw [player, if_neg]
    · exact filling.absent other (Nat.le_of_succ_le later)
    · rintro rfl
      omega

theorem Filling.seat {s : Seating} (filling : s.roster.Filling) (o : Options) (side : Side) :
    (s.seat o side).roster.Filling := by
  unfold Seating.seat
  split
  · split
    · exact filling
    · next slot place =>
        have next : slot.val = s.roster.count := by
          unfold Slot.ofNat? at place
          split at place
          · cases place
            rfl
          · cases place
        have grown := filling.grow next side
        dsimp only
        split
        · exact grown.setLocal (next ▸ Nat.lt_succ_self _)
        · exact grown
  · exact filling

/-! ## The humans of a campaign -/

theorem mem_numberedHumans {r : Roster} {numbers : List Nat} {slot : Slot}
    (mem : slot ∈ r.numberedHumans numbers) :
    ∃ n ∈ numbers, r.find? ("player" ++ Text.writeNat n) = some slot := by
  induction numbers with
  | nil => cases mem
  | cons n numbers ih =>
      unfold numberedHumans at mem
      split at mem
      · next found =>
          rcases List.mem_cons.mp mem with rfl | mem
          · exact ⟨n, by simp, found⟩
          · obtain ⟨m, among, found⟩ := ih mem
            exact ⟨m, by simp [among], found⟩
      · cases mem

/-- Different numbers are found in different slots, since a slot has one name. -/
theorem nodup_numberedHumans (r : Roster) {numbers : List Nat} (distinct : numbers.Nodup) :
    (r.numberedHumans numbers).Nodup := by
  induction numbers with
  | nil => exact List.nodup_nil
  | cons n numbers ih =>
      obtain ⟨fresh, distinct⟩ := List.nodup_cons.mp distinct
      unfold numberedHumans
      split
      · next slot found =>
          refine List.nodup_cons.mpr ⟨fun mem => ?_, ih distinct⟩
          obtain ⟨m, among, again⟩ := mem_numberedHumans mem
          have names := (name_of_find? found).symm.trans (name_of_find? again)
          have same : n = m := Text.writeNat_injective (String.append_right_inj _ |>.mp names)
          exact fresh (same ▸ among)
      · exact List.nodup_nil

/-- Whoever is found as a human of a campaign is active, and nobody is found twice. -/
theorem Orderly.campaignHumans {r : Roster} (orderly : r.Orderly) (lobby : Bool) :
    (r.campaignHumans lobby).Nodup ∧ ∀ slot ∈ r.campaignHumans lobby, slot.val < r.count := by
  unfold Roster.campaignHumans
  split
  · have first {slot : Slot} (mem : slot ∈ (campaignNames.findSome? r.find?).toList) :
        ∃ name ∈ campaignNames, r.find? name = some slot :=
      List.exists_of_findSome?_eq_some (Option.mem_toList.mp mem)
    have apart : ∀ name ∈ campaignNames, ∀ n ∈ List.range' 1 campaignExtraSlots,
        name ≠ "player" ++ Text.writeNat n := by
      decide
    constructor
    · refine List.nodup_append.mpr ⟨?_, nodup_numberedHumans r List.nodup_range', ?_⟩
      · cases campaignNames.findSome? r.find? <;> simp
      · rintro slot mem other among rfl
        obtain ⟨name, listed, found⟩ := first mem
        obtain ⟨n, counted, again⟩ := mem_numberedHumans among
        have names := (name_of_find? found).symm.trans (name_of_find? again)
        exact apart name listed n counted names
    · intro slot mem
      rcases List.mem_append.mp mem with mem | mem
      · obtain ⟨name, -, found⟩ := first mem
        exact active_of_find? found
      · obtain ⟨n, -, found⟩ := mem_numberedHumans mem
        exact active_of_find? found
  · constructor
    · cases Slot.all.find? fun slot => (r.player slot).controller == .human <;> simp
    · intro slot mem
      have human := List.find?_some (Option.mem_toList.mp mem)
      refine Nat.lt_of_not_le fun beyond => ?_
      rw [(orderly.absent slot beyond).controller] at human
      cases human

/-! ## Setting up a game -/

theorem Orderly.chooseFallback {s : Seating} (orderly : s.roster.Orderly) :
    (chooseFallback s).Orderly := by
  unfold Roster.chooseFallback
  split
  · exact orderly
  · split
    · next slot found =>
        have active : slot.val < s.roster.count :=
          mem_active.mp (List.mem_of_find?_eq_some found)
        refine Orderly.setLocal ?_ (some slot)
        exact orderly.modify (fun p _ => p.commanded_control .human) (fun _ => rfl)
          fun beyond => absurd beyond (Nat.not_le.mpr active)
    · exact orderly

theorem orderly_seatAll (o : Options) (sides : List Side) :
    (seatAll o sides initial).Orderly := by
  have filling : (sides.foldl (Seating.seat o) { roster := initial }).roster.Filling :=
    List.foldlRecOn sides (Seating.seat o) (motive := fun s => s.roster.Filling)
      filling_initial fun _ filling side _ => filling.seat o side
  unfold seatAll
  refine Orderly.chooseFallback ?_
  dsimp only
  split
  · obtain ⟨distinct, seated⟩ := filling.toOrderly.campaignHumans o.skirmish
    exact { filling.toOrderly with distinct, seated }
  · exact filling.toOrderly

/-- A new game leaves an orderly roster, whatever came before it. -/
theorem orderly_newGame {σ : Type} [TeamSource σ] {o : Options} {sides : List Side} {r : Roster}
    {teams : σ} {set : NewGame σ} (started : newGame o sides r teams = .ok set) :
    set.roster.Orderly := by
  refine newGame_induction (fun r slot team active orderly => ?_)
    (fun r slot team stance orderly => ?_) started (orderly_seatAll o sides)
  · exact orderly.modify (fun _ commanded => commanded.setDefaultTeam team) (fun _ => rfl)
      fun beyond => absurd active (Nat.not_lt.mpr beyond)
  · exact orderly.modify (fun _ commanded => commanded.setStance team stance) (fun _ => rfl)
      fun _ _ absent => absent.setStance team stance

/-! ## Restoring -/

/-- A record reaches active players only, and says nothing about who is local. -/
theorem Orderly.restore {r restored : Roster} (orderly : r.Orderly) {record : RosterRecord}
    (accepted : r.restore record = .ok restored) : restored.Orderly := by
  obtain ⟨fits, rfl⟩ := restore_eq_ok.mp accepted
  refine orderly.of_players rfl rfl rfl ?_ ?_ ?_
  · exact (orderly.toSound.withRecords record.players).commanded
  · intro slot
    rw [player_withRecords]
    split <;> rfl
  · intro slot beyond
    have missing : record.players[slot.val]? = none :=
      List.getElem?_eq_none (fits.players ▸ beyond)
    rw [player_withRecords, missing]
    exact orderly.absent slot beyond

end Roster

end BattleRoster
