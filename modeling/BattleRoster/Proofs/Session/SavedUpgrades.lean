import BattleRoster.Proofs.Session.Holdings
import BattleRoster.Proofs.Session.Rightful

/-!
# Upgrades of saved games

A saved game has the places of the upgrades that its players hold, and not their
names.  Whatever game takes it over, each player holds the same places again; the
names are those that the registry of that game has at these places.  They are the
names of the game that was saved if the registries agree there, as they do on every
named place when the game was saved earlier in the same session.
-/

namespace BattleRoster

/-! ## Players out of play -/

/-- The slots of a roster that are not in play hold nothing. -/
def Roster.Bare (r : Roster) : Prop :=
  ∀ slot : Slot, r.count ≤ slot.val → (r.player slot).upgrades = ∅

theorem Roster.Bare.modify {r : Roster} (bare : r.Bare) {slot : Slot}
    (active : slot.val < r.count) (change : Player → Player) : (r.modify slot change).Bare := by
  intro other inactive
  have apart : slot ≠ other := fun same => absurd active (Nat.not_lt.mpr (same ▸ inactive))
  rw [Roster.player_modify, if_neg apart]
  exact bare other inactive

/-- A record that fits has nothing for slots that are not in play. -/
theorem Roster.Bare.withRecords {r : Roster} (bare : r.Bare) {record : RosterRecord}
    (fits : record.Fits r) : (r.withRecords record.players).Bare := by
  intro slot inactive
  have missing : record.players[slot.val]? = none :=
    List.getElem?_eq_none (fits.players ▸ inactive)
  rw [Roster.player_withRecords, missing]
  exact bare slot inactive

namespace Game

theorem bare_step (files : Files) {g : Game} (bare : g.roster.Bare) (c : Command) :
    (g.step files c).2.roster.Bare := by
  have unchanged {c : Command} (passive : c.isPassive = true) : (g.step files c).2.roster.Bare :=
    (state_step files g passive).1.symm ▸ bare
  cases c with
  | newGame =>
      change g.newGame.2.roster.Bare
      unfold Game.newGame
      split
      · next begun => exact fun slot _ => Roster.upgrades_newGame begun slot
      · exact bare
  | spawn owner object modules => exact (roster_spawn g owner object modules).symm ▸ bare
  | grant player upgrade =>
      change (g.grant player upgrade).2.roster.Bare
      rcases grant_cases g player upgrade with
        ⟨e, refused⟩ | ⟨slot, set, registry, resolved, -, granted⟩
      · rwa [refused]
      · rw [granted]
        exact bare.modify (active_of_resolve resolved) _
  | revoke player upgrade =>
      change (g.revoke player upgrade).2.roster.Bare
      rcases revoke_cases g player upgrade with ⟨e, refused⟩ |
        ⟨slot, set, resolved, -, revoked⟩
      · rwa [refused]
      · rw [revoked]
        exact bare.modify (active_of_resolve resolved) _
  | restore text =>
      rcases step_restore files g text with ⟨record, -, fits, accepted⟩ | refused
      · rw [accepted, takeOver_of_fits fits]
        exact bare.withRecords fits.roster
      · rwa [refused]
  | _ => exact unchanged rfl

theorem Reachable.bare {g : Game} (reachable : g.Reachable) : g.roster.Bare := by
  induction reachable with
  | start options => exact fun slot _ => upgrades_start options slot
  | step files c earlier ih => exact bare_step files ih c

/-! ## Taking upgrades over -/

/-- Every slot has the places of a saved game that is taken over, in play or not. -/
theorem upgrades_takeOver {saved later : Game} (reachable : saved.Reachable)
    (laterReachable : later.Reachable) (fits : saved.record.Fits later) (slot : Slot) :
    ((later.takeOver saved.record).2.roster.player slot).upgrades =
      (saved.roster.player slot).upgrades := by
  rw [takeOver_of_fits fits]
  change ((later.roster.withRecords saved.roster.record.players).player slot).upgrades = _
  have sound := reachable.sound.roster
  by_cases active : slot.val < saved.roster.count
  · exact upgrades_withRecords sound active
  · -- a slot that is not in play has no record, and holds nothing in either game
    have inactive := Nat.not_lt.mp active
    have count : saved.roster.count = later.roster.count :=
      (Roster.fits_record sound rfl).players.symm.trans fits.roster.players
    rw [Roster.player_withRecords, Roster.getElem?_players_record sound, if_neg active]
    exact (laterReachable.bare slot (count ▸ inactive)).trans (reachable.bare slot inactive).symm

/-- A printed line that is accepted is that of a saved game that fits. -/
theorem turn_restored {saved later restored : Game} {files files' : Files} {text : String}
    (printed : Response.write (saved.step files .save).1.written = "snapshot " ++ text ++ "\n")
    (accepted : Console.turn files' later ("restore " ++ text).toUTF8 =
      some ([.restored], restored)) :
    saved.record.Fits later ∧ restored = (later.takeOver saved.record).2 := by
  obtain rfl : text = saved.record.encode := by
    have line := printed.symm.trans (write_saved saved files).2
    exact (String.append_right_inj _).mp ((String.append_left_inj _).mp line)
  have parsed := Command.parse?_restore saved.record.encode_ne_empty saved.record.encode_trimmed
  rw [Command.render_restore] at parsed
  rw [Console.turn, fromUTF8?_toUTF8] at accepted
  simp only [stepLine, parsed, Option.map_some, step_restore_encode] at accepted
  rcases fits_or_fault later saved.record with fits | ⟨e, fault⟩
  · refine ⟨fits, ?_⟩
    rw [takeOver_of_fits fits] at accepted ⊢
    cases accepted
    rfl
  · rw [takeOver_of_fault fault] at accepted
    cases accepted

/--
Whatever game accepts the printed line of a saved one, each player holds the same
places as in the game that was saved, under the names of the game that accepted it.
Where the registries agree on these places, a player holds the same upgrades again;
so it does in a later game of the same session if it held no place without a name.
-/
theorem upgrades_restored {saved later restored : Game} (reachable : saved.Reachable)
    (laterReachable : later.Reachable) {files files' : Files} {text : String}
    (printed : Response.write (saved.step files .save).1.written = "snapshot " ++ text ++ "\n")
    (accepted : Console.turn files' later ("restore " ++ text).toUTF8 =
      some ([.restored], restored)) (slot : Slot) :
    (restored.roster.player slot).upgrades = (saved.roster.player slot).upgrades ∧
    restored.heldNames slot = later.registry.namesIn (saved.roster.player slot).upgrades ∧
    ((∀ place ∈ (saved.roster.player slot).upgrades,
        later.registry.names[place]? = saved.registry.names[place]?) →
      restored.heldNames slot = saved.heldNames slot) ∧
    ∀ since, later = saved.run since →
      (∀ place ∈ (saved.roster.player slot).upgrades, place < saved.registry.names.length) →
      restored.heldNames slot = saved.heldNames slot := by
  obtain ⟨fits, rfl⟩ := turn_restored printed accepted
  have places := upgrades_takeOver reachable laterReachable fits slot
  have names : (later.takeOver saved.record).2.heldNames slot =
      later.registry.namesIn (saved.roster.player slot).upgrades := by
    rw [heldNames, places, takeOver_of_fits fits]
  refine ⟨places, names, fun agree => ?_, ?_⟩
  · rw [names, Registry.namesIn_congr agree, heldNames]
  · rintro since rfl named
    rw [names, (growth_run saved since).later.namesIn named, heldNames]

/-- A session in which the neutral player is granted upgrades. -/
def granted (upgrades : List String) : Game :=
  Game.run {}
    (upgrades.map fun upgrade => ({ find := fun _ => .error .missing }, .grant "-" upgrade))

theorem reachable_granted (upgrades : List String) : (granted upgrades).Reachable :=
  (Reachable.start {}).run _

/-- A session that knows more takes the oak over as oak. -/
theorem upgrades_restored_oak :
    let saved := granted ["Oak"]
    let later := granted ["Oak", "Iron"]
    let files : Files := { find := fun _ => .error .missing }
    ∃ text restored, saved.Reachable ∧ later.Reachable ∧
      Response.write (saved.step files .save).1.written = "snapshot " ++ text ++ "\n" ∧
      Console.turn files later ("restore " ++ text).toUTF8 = some ([.restored], restored) ∧
      later.heldNames 0 = ["Oak", "Iron"] ∧ restored.heldNames 0 = ["Oak"] := by
  intro saved later files
  have reachable : saved.Reachable := reachable_granted _
  have laterReachable : later.Reachable := reachable_granted _
  have printed := (write_saved saved files).2
  have same : later.frame = saved.frame := by decide +kernel
  have accepted := (turn_restore reachable.sound same files).2
  obtain ⟨-, -, held, -⟩ := upgrades_restored reachable laterReachable printed accepted 0
  have agree : ∀ place ∈ (saved.roster.player 0).upgrades.places,
      later.registry.names[place]? = saved.registry.names[place]? := by decide +kernel
  have oak := held fun place mem => agree place (UpgradeSet.mem_places.mpr mem)
  refine ⟨_, _, reachable, laterReachable, printed, accepted, by decide +kernel, ?_⟩
  rw [oak]
  decide +kernel

/-- A session that has registered other upgrades takes the oak over as iron. -/
theorem upgrades_renamed :
    ¬ ∀ (saved later restored : Game) (files files' : Files) (text : String),
      saved.Reachable → later.Reachable →
      Response.write (saved.step files .save).1.written = "snapshot " ++ text ++ "\n" →
      Console.turn files' later ("restore " ++ text).toUTF8 = some ([.restored], restored) →
      ∀ slot name, name ∈ restored.heldNames slot ↔ name ∈ saved.heldNames slot := by
  intro sameNames
  let files : Files := { find := fun _ => .error .missing }
  have same : (granted ["Iron", "Oak"]).frame = (granted ["Oak"]).frame := by decide +kernel
  have accepted := (turn_restore (reachable_granted ["Oak"]).sound same files).2
  have oak := sameNames _ _ _ files files _ (reachable_granted ["Oak"])
    (reachable_granted ["Iron", "Oak"]) (write_saved _ files).2 accepted 0 "Oak"
  have kept : "Oak" ∈ (granted ["Oak"]).heldNames 0 := by decide +kernel
  exact absurd (oak.mpr kept) (by decide +kernel)

end Game

end BattleRoster
