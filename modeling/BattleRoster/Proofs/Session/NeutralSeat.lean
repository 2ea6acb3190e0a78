import BattleRoster.Proofs.Roster.Order
import BattleRoster.Proofs.Session.Holdings
import BattleRoster.Proofs.Session.TakingBack

/-!
# The neutral player's slot

No command names slot zero or hands it to a player, and a new game leaves it to
the neutral player.  Restoring a saved game does not tell it from the others:
its first player gets the slot, whoever that is.
-/

namespace BattleRoster

/-! ## New games -/

/-- What makes a player the neutral one: its name and its controller. -/
def Player.title (p : Player) : String × Controller :=
  (p.name, p.controller)

namespace Roster

/-- The title of the player in the neutral player's slot. -/
def neutralSeat (r : Roster) : String × Controller :=
  r.neutral.title

theorem neutralSeat_modify {change : Player → Player} (same : ∀ p, (change p).title = p.title)
    (r : Roster) (slot : Slot) : (r.modify slot change).neutralSeat = r.neutralSeat := by
  unfold neutralSeat neutral
  rw [player_modify]
  split
  · next here => rw [same, here]
  · rfl

theorem neutralSeat_modify_of_ne {slot : Slot} (elsewhere : slot ≠ Slot.neutral) (r : Roster)
    (change : Player → Player) : (r.modify slot change).neutralSeat = r.neutralSeat := by
  unfold neutralSeat neutral
  rw [player_modify, if_neg elsewhere]

theorem neutralSeat_setLocal (r : Roster) (slot : Option Slot) :
    (r.setLocal slot).neutralSeat = r.neutralSeat := by
  have marked (isLocal : Bool) (p : Player) : (p.markLocal isLocal).title = p.title := rfl
  unfold setLocal
  dsimp only
  split
  · rfl
  · rw [neutralSeat_modify (marked true)]
    exact neutralSeat_modify (marked false) r r.localSlot

/-- A side takes a slot after the neutral player's. -/
theorem neutralSeat_seat (o : Options) {s : Seating} (positive : 1 ≤ s.roster.count)
    (side : Side) :
    1 ≤ (s.seat o side).roster.count ∧
      (s.seat o side).roster.neutralSeat = s.roster.neutralSeat := by
  unfold Seating.seat
  split
  · split
    · exact ⟨positive, rfl⟩
    · next slot free =>
        have elsewhere : slot ≠ Slot.neutral := by
          rintro rfl
          unfold Slot.ofNat? at free
          split at free
          · have zero := congrArg Fin.val (Option.some.inj free)
            change s.roster.count = 0 at zero
            omega
          · cases free
        have taken := neutralSeat_modify_of_ne elsewhere s.roster (·.seat side)
        dsimp only
        split
        · rw [count_setLocal, neutralSeat_setLocal]
          exact ⟨Nat.le_add_left 1 _, taken⟩
        · exact ⟨Nat.le_add_left 1 _, taken⟩
  · exact ⟨positive, rfl⟩

theorem neutralSeat_initial : initial.neutralSeat = ("", .neutral) := by
  unfold neutralSeat neutral initial
  rw [player_vacate]
  rfl

theorem neutralSeat_seatAll (o : Options) (sides : List Side) :
    (seatAll o sides initial).neutralSeat = ("", .neutral) := by
  have seated : 1 ≤ (sides.foldl (Seating.seat o) { roster := initial }).roster.count ∧
      (sides.foldl (Seating.seat o) { roster := initial }).roster.neutralSeat = ("", .neutral) :=
    List.foldlRecOn sides (Seating.seat o)
      (motive := fun s => 1 ≤ s.roster.count ∧ s.roster.neutralSeat = ("", .neutral))
      ⟨Nat.le_refl 1, neutralSeat_initial⟩ fun s ⟨positive, neutral⟩ side _ =>
        let ⟨positive', same⟩ := neutralSeat_seat o positive side
        ⟨positive', same.trans neutral⟩
  have fallback (s : Seating) : (chooseFallback s).neutralSeat = s.roster.neutralSeat := by
    unfold chooseFallback
    split
    · rfl
    · split
      · next slot found =>
          have elsewhere : slot ≠ Slot.neutral := by simpa using List.find?_some found
          rw [neutralSeat_setLocal]
          exact neutralSeat_modify_of_ne elsewhere s.roster _
      · rfl
  unfold seatAll
  rw [fallback]
  dsimp only
  split
  · exact seated.2
  · exact seated.2

/-- A new game leaves its slot to the neutral player. -/
theorem neutralSeat_newGame {o : Options} {sides : List Side} {r : Roster} {teams : TeamTable}
    {set : NewGame TeamTable} (started : newGame o sides r teams = .ok set) :
    set.roster.neutralSeat = ("", .neutral) := by
  have written (team : TeamId) (stance : Stance) (p : Player) :
      (p.setStance team stance).title = p.title := rfl
  have assigned (team : Option TeamId) (p : Player) : (p.setDefaultTeam team).title = p.title :=
    rfl
  exact newGame_induction (Q := fun r => r.neutralSeat = ("", .neutral))
    (fun r slot team _ neutral => (neutralSeat_modify (assigned team) r slot).trans neutral)
    (fun r slot team stance neutral =>
      (neutralSeat_modify (written team stance) r slot).trans neutral)
    started (neutralSeat_seatAll o sides)

end Roster

/-! ## Turns -/

/-- The title that a turn writes into the neutral player's slot. -/
def Turn.reseats (turn : Turn) : Option (String × Controller) :=
  match turn.command with
  | .newGame =>
      match turn.game.newGame.1 with
      | .ok () => some ("", .neutral)
      | .error _ => none
  | .restore text =>
      match GameRecord.read? text with
      | none => none
      | some record =>
          match (turn.game.takeOver record).1 with
          | .ok () => record.roster.players.head?.map fun p => (p.name, p.controller)
          | .error _ => none
  | _ => none

/-- What a command restores, if anything, has the neutral player first. -/
def Command.RestoresNeutral (c : Command) : Prop :=
  ∀ text record, c = .restore text → GameRecord.read? text = some record →
    ∀ p ∈ record.roster.players.head?, p.name = "" ∧ p.controller = .neutral

namespace Roster

theorem neutralSeat_withRecords (r : Roster) (records : List PlayerRecord) :
    (r.withRecords records).neutralSeat =
      (records.head?.map fun p => (p.name, p.controller)).getD r.neutralSeat := by
  have first : records[Slot.neutral.val]? = records.head? := List.head?_eq_getElem?.symm
  unfold neutralSeat neutral
  rw [player_withRecords, first]
  cases records.head? with
  | none => rfl
  | some record => rfl

end Roster

namespace Game

/-- Only new games and saved ones write into the neutral player's slot, and all keep it in play. -/
theorem neutralSeat_turn (turn : Turn) (active : 1 ≤ turn.game.roster.count) :
    1 ≤ turn.next.roster.count ∧
      turn.next.roster.neutralSeat = turn.reseats.getD turn.game.roster.neutralSeat := by
  obtain ⟨g, files, c⟩ := turn
  change 1 ≤ g.roster.count at active
  have unchanged {r : Roster} (same : r = g.roster) :
      1 ≤ r.count ∧ r.neutralSeat = g.roster.neutralSeat := by
    rw [same]
    exact ⟨active, rfl⟩
  -- grants and revocations change upgrades at most, and the other commands no player
  have kept {c : Command} (going : c ≠ .newGame) (unrestored : c.isRestore = false) :
      1 ≤ (g.step files c).2.roster.count ∧
        (g.step files c).2.roster.neutralSeat = g.roster.neutralSeat := by
    obtain ⟨count, -, -, players, -⟩ :=
      Roster.of_frame_eq (rosterFrame_step files g going unrestored)
    exact ⟨count ▸ active, (congrArg Player.title (players Slot.neutral) :)⟩
  cases c with
  | newGame =>
      unfold Turn.next Turn.reseats step
      dsimp only
      cases started : Roster.newGame g.options g.sides g.roster g.teams with
      | error e =>
          have refused : g.newGame = (.error (.roster e), { g with objects := [] }) := by
            rw [newGame, started]
          rw [refused]
          exact unchanged rfl
      | ok set =>
          have accepted : g.newGame = (.ok (), { g with
              objects := [], roster := set.roster, teams := set.teams, sides := set.sides }) := by
            rw [newGame, started]
          rw [accepted]
          exact ⟨(Roster.orderly_newGame started).positive, Roster.neutralSeat_newGame started⟩
  | restore text =>
      unfold Turn.next Turn.reseats step
      dsimp only
      cases read : GameRecord.read? text with
      | none => exact unchanged rfl
      | some record =>
          dsimp only
          rcases fits_or_fault g record with fits | ⟨e, fault⟩
          · rw [takeOver_of_fits fits]
            exact ⟨active, g.roster.neutralSeat_withRecords record.roster.players⟩
          · rw [takeOver_of_fault fault]
            exact unchanged rfl
  | _ => exact kept nofun rfl

/-- After a run the slot has the title that was written last. -/
theorem neutralSeat_run {g : Game} (active : 1 ≤ g.roster.count)
    (commands : List (Files × Command)) :
    1 ≤ (g.run commands).roster.count ∧ (g.run commands).roster.neutralSeat =
      ((g.turns commands).filterMap Turn.reseats).getLast?.getD g.roster.neutralSeat := by
  induction commands generalizing g with
  | nil => exact ⟨active, rfl⟩
  | cons command commands ih =>
      obtain ⟨active', first⟩ := neutralSeat_turn ⟨g, command.1, command.2⟩ active
      obtain ⟨active', rest⟩ := ih active'
      refine ⟨active', rest.trans ?_⟩
      rw [turns]
      cases written : Turn.reseats ⟨g, command.1, command.2⟩ with
      | none =>
          rw [written, Option.getD_none] at first
          rw [List.filterMap_cons_none written]
          exact congrArg _ first
      | some title =>
          rw [written, Option.getD_some] at first
          rw [List.filterMap_cons_some written, List.getLast?_cons, Option.getD_some]
          exact congrArg _ first

/-- A dash stands for slot zero if the player there has no name. -/
theorem resolve_dash {g : Game} (active : 1 ≤ g.roster.count) :
    g.resolve "-" = .ok Slot.neutral ↔ g.roster.neutral.name = "" := by
  unfold resolve
  rw [if_pos rfl]
  dsimp only
  constructor
  · intro resolved
    split at resolved
    · next slot found =>
        obtain rfl := Except.ok.inj resolved
        exact Roster.name_of_find? found
    · cases resolved
  · intro nameless
    have found : g.roster.find? "" = some Slot.neutral := nameless ▸ Roster.find?_neutral active
    rw [found]

/-- A turn that only restores saved games with the neutral player first writes no other title. -/
theorem reseats_of_restoresNeutral {turn : Turn} (neutral : turn.command.RestoresNeutral) :
    ∀ title ∈ turn.reseats, title = ("", .neutral) := by
  obtain ⟨g, files, c⟩ := turn
  intro title mem
  unfold Turn.reseats at mem
  split at mem
  · split at mem
    · exact (Option.some.inj mem).symm
    · cases mem
  · next text same =>
      split at mem
      · cases mem
      · next record read =>
          split at mem
          · obtain ⟨p, first, rfl⟩ := Option.map_eq_some_iff.mp mem
            obtain ⟨name, controller⟩ := neutral text record same read p first
            rw [name, controller]
          · cases mem
  · cases mem

/--
The neutral player's slot has the name and the controller that were written there
last: none after a new game, and after a saved game is taken over those of the
first player in it.  The dash stands for this slot exactly as long as nobody with
a name is in it, which is the case as long as all saved games have the neutral
player first.
-/
theorem neutral_by_history (options : Options) (commands : List (Files × Command)) :
    let start : Game := { options }
    let g := start.run commands
    let kept := ((start.turns commands).filterMap Turn.reseats).getLast?.getD ("", .neutral)
    ((g.roster.player Slot.neutral).name, (g.roster.player Slot.neutral).controller) = kept ∧
      (g.resolve "-" = .ok Slot.neutral ↔ kept.1 = "") ∧
      ((∀ command ∈ commands, command.2.RestoresNeutral) →
        kept = ("", .neutral) ∧ g.resolve "-" = .ok Slot.neutral) := by
  intro start g kept
  obtain ⟨active, seat⟩ := neutralSeat_run (g := start) (Nat.le_refl 1) commands
  have title : (g.roster.neutral.name, g.roster.neutral.controller) = kept := by
    rw [Roster.neutralSeat_initial] at seat
    exact seat
  have dash : g.resolve "-" = .ok Slot.neutral ↔ kept.1 = "" := by
    rw [resolve_dash active, ← title]
  refine ⟨title, dash, fun neutral => ?_⟩
  have same : kept = ("", .neutral) := by
    have each := forall_commands neutral start
    change ((start.turns commands).filterMap Turn.reseats).getLast?.getD ("", .neutral) = _
    cases last : ((start.turns commands).filterMap Turn.reseats).getLast? with
    | none => rfl
    | some title =>
        obtain ⟨turn, mem, written⟩ := List.mem_filterMap.mp (List.mem_of_getLast? last)
        exact reseats_of_restoresNeutral (each turn mem) title written
  exact ⟨same, dash.mpr (by rw [same])⟩

/-- A saved game of the neutral player alone, who has been given an upgrade. -/
def peaceful : GameRecord where
  roster := {
    version := 1
    count := 1
    players := [{
      name := "", controller := .neutral, defaultTeam := none, stances := [],
      upgrades := ⟨1#128⟩ }] }
  objects := []

/-- It is taken over, and leaves the title of the neutral player as it is. -/
theorem neutral_by_history_peaceful :
    let files : Files := { find := fun _ => .error .missing }
    let commands : List (Files × Command) :=
      [(files, .newGame), (files, .restore peaceful.encode)]
    (∀ command ∈ commands, command.2.RestoresNeutral) ∧
      (run {} commands).roster.neutral.upgrades = ⟨1#128⟩ ∧
      (run {} commands).roster.neutral.name = "" ∧
      (run {} commands).roster.neutral.controller = .neutral ∧
      (run {} commands).resolve "-" = .ok Slot.neutral := by
  intro files commands
  have restored : (Command.restore peaceful.encode).RestoresNeutral := by
    intro text record same read p first
    obtain rfl := Command.restore.inj same
    obtain rfl := Option.some.inj (peaceful.read?_encode.symm.trans read)
    obtain rfl := Option.some.inj first
    exact ⟨rfl, rfl⟩
  have neutral : ∀ command ∈ commands, command.2.RestoresNeutral :=
    List.forall_mem_cons.mpr
      ⟨fun text record same => (nomatch same), List.forall_mem_singleton.mpr restored⟩
  have taken : (run {} commands).roster.neutral.upgrades = ⟨1#128⟩ := by
    rw [run, run, run, step_restore_encode]
    decide +kernel
  obtain ⟨title, -, law⟩ := neutral_by_history {} commands
  obtain ⟨kept, dash⟩ := law neutral
  obtain ⟨name, controller⟩ := Prod.mk.inj (title.trans kept)
  exact ⟨neutral, taken, name, controller, dash⟩

/-- A saved game of one player, who has a name and is human. -/
def usurped : GameRecord where
  roster := {
    version := 1
    count := 1
    players := [{
      name := "X", controller := .human, defaultTeam := none, stances := [], upgrades := ∅ }] }
  objects := []

/-- A line with a named player first takes the neutral player's slot, and the dash from it. -/
theorem neutral_usurped :
    let files : Files := { find := fun _ => .error .missing }
    let start : Game := {}
    let g := (start.step files (.restore usurped.encode)).2
    Command.parse? ("restore " ++ usurped.encode) = some (.restore usurped.encode) ∧
      (start.step files (.restore usurped.encode)).1 = .responses [.restored] ∧ g.Reachable ∧
      (g.roster.player Slot.neutral).name = "X" ∧
      (g.roster.player Slot.neutral).controller = .human ∧
      g.resolve "-" = .error (.roster (.unknownName "")) := by
  intro files start g
  have parsed := Command.parse?_restore usurped.encode_ne_empty usurped.encode_trimmed
  rw [Command.render_restore] at parsed
  have done := step_restore_encode files start usurped
  have state : g = (start.takeOver usurped).2 := congrArg Prod.snd done
  refine ⟨parsed, ?_, .step files _ (.start {}), ?_⟩
  · rw [done]
    decide +kernel
  · rw [state]
    decide +kernel

end Game

end BattleRoster
