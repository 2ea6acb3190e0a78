import BattleRoster.Proofs.Roster.Order
import Mathlib.Data.List.Induction

/-!
# The local player

Who is local is decided while the seats are taken: a side that is declared local
takes the mark from whoever has it, and a human gets it if nobody has been chosen.
So the last declared side counts, and then the first human, unless a network or a
campaign has to decide.  If nobody is chosen the first player is made human.
-/

namespace BattleRoster

namespace Attributes

/-- An attribute says yes: it is a flag that is set, or a number other than zero. -/
def Affirms (a : Attributes) (key : String) : Prop :=
  a.get? key = some (.flag true) ∨ ∃ n, n ≠ 0 ∧ a.get? key = some (.number n)

/-- A text never says yes, whatever it says. -/
theorem flag_eq_true {a : Attributes} {key : String} : a.flag key = true ↔ a.Affirms key := by
  unfold flag flag? Affirms
  cases a.get? key with
  | none => simp
  | some value => cases value <;> simp

end Attributes

namespace Roster

/-! ## The choice among the sides -/

/-- The numbers of the slots of the named sides with a property, in order. -/
def placesOf (P : Side → Bool) (sides : List Side) : List Nat :=
  (((sides.filter (·.isNamed)).zipIdx 1).filter fun entry => P entry.1).map Prod.snd

/--
The number of the slot that is chosen to be local: that of the last side that is
declared local, or else, unless the game has a network or is a campaign, that of the
first human.
-/
def chosenPlace? (o : Options) (sides : List Side) : Option Nat :=
  (placesOf (·.isLocal) sides).getLast?.or
    (if o.network || o.campaign then none else (placesOf (·.isHuman) sides).head?)

/-- The number of the local player's slot; without a choice it is the first player's. -/
def localPlace (o : Options) (sides : List Side) : Nat :=
  (chosenPlace? o sides).getD (if namedCount sides = 0 then 0 else 1)

/-- Who controls a player: the human or the computer of its side, or a human without a choice. -/
def controllerAt (o : Options) (sides : List Side) (slot : Slot) : Controller :=
  match sideAt? sides slot with
  | none => .neutral
  | some side =>
      if side.isHuman || (slot.val == 1 && (chosenPlace? o sides).isNone) then .human
      else .computer

theorem namedCount_concat (sides : List Side) (side : Side) :
    namedCount (sides ++ [side]) = namedCount sides + if side.isNamed then 1 else 0 := by
  unfold namedCount
  rw [List.filter_append, List.length_append]
  cases named : side.isNamed <;> simp [named]

/-- One more side has the next place, if it is named and has the property. -/
theorem placesOf_concat (P : Side → Bool) (sides : List Side) (side : Side) :
    placesOf P (sides ++ [side]) =
      placesOf P sides ++
        if side.isNamed && P side then [namedCount sides + 1] else [] := by
  unfold placesOf namedCount
  rw [List.filter_append, List.zipIdx_append, List.filter_append, List.map_append]
  congr 1
  cases named : side.isNamed <;> cases has : P side <;> simp [named, has, Nat.add_comm]

theorem chosenPlace?_concat_unnamed (o : Options) (sides : List Side) {side : Side}
    (unnamed : side.isNamed = false) : chosenPlace? o (sides ++ [side]) = chosenPlace? o sides := by
  unfold chosenPlace?
  rw [placesOf_concat, placesOf_concat, unnamed]
  simp

/-- One more named side is chosen if it is declared local, or human while nobody is chosen. -/
theorem chosenPlace?_concat (o : Options) (sides : List Side) {side : Side}
    (named : side.isNamed = true) :
    chosenPlace? o (sides ++ [side]) =
      if side.isLocal ||
          (!(chosenPlace? o sides).isSome && !o.network && !o.campaign && side.isHuman) then
        some (namedCount sides + 1)
      else chosenPlace? o sides := by
  unfold chosenPlace?
  rw [placesOf_concat, placesOf_concat, named, List.getLast?_append, List.head?_append]
  cases declared : side.isLocal with
  | true => simp
  | false =>
      cases (placesOf (·.isLocal) sides).getLast? with
      | some place => simp
      | none =>
          cases o.network <;> cases o.campaign <;> cases side.isHuman <;>
            cases (placesOf (·.isHuman) sides).head? <;> simp

/-! ## Taking seats -/

/-- Seats are being taken, and the choice is the one among the sides that have had their turn. -/
structure Choosing (o : Options) (sides : List Side) (s : Seating) : Prop where
  count : s.roster.count = namedCount sides + 1
  chosen : s.localChosen = (chosenPlace? o sides).isSome
  place : s.roster.localSlot.val = (chosenPlace? o sides).getD 0

theorem choosing_initial (o : Options) : Choosing o [] { roster := initial } where
  count := rfl
  chosen := by simp [chosenPlace?, placesOf]
  place := by simp [chosenPlace?, placesOf]; rfl

theorem Choosing.seat {o : Options} {sides : List Side} {s : Seating}
    (choosing : Choosing o sides s) {side : Side} (few : namedCount (sides ++ [side]) ≤ 15) :
    Choosing o (sides ++ [side]) (s.seat o side) := by
  obtain ⟨count, chosen, place⟩ := choosing
  rw [namedCount_concat] at few
  by_cases named : side.isNamed = true
  · have free : s.roster.count < 16 := by
      rw [if_pos named] at few
      omega
    have next := chosenPlace?_concat o sides named
    rw [← chosen] at next
    refine ⟨?_, ?_, ?_⟩
    · rw [count_seat o s named free, count, namedCount_concat, if_pos named]
    · unfold Seating.seat Seating.choosesLocal
      rw [next, if_pos named]
      simp only [Slot.ofNat?, free, ↓reduceDIte]
      split
      · rfl
      · exact chosen
    · unfold Seating.seat Seating.choosesLocal
      rw [next, if_pos named]
      simp only [Slot.ofNat?, free, ↓reduceDIte]
      split
      · rw [localSlot_setLocal]
        exact count
      · exact place
  · have unnamed : side.isNamed = false := by simpa using named
    have same := chosenPlace?_concat_unnamed o sides unnamed
    rw [seat_of_unnamed o s unnamed]
    refine ⟨?_, same ▸ chosen, same ▸ place⟩
    rw [namedCount_concat, unnamed]
    exact count

theorem choosing_seats (o : Options) {sides : List Side} (few : namedCount sides ≤ 15) :
    Choosing o sides (sides.foldl (Seating.seat o) { roster := initial }) := by
  induction sides using List.reverseRecOn with
  | nil => exact choosing_initial o
  | append_singleton sides side ih =>
      have fewer := few
      rw [namedCount_concat] at fewer
      rw [List.foldl_append]
      exact (ih (by omega)).seat few

/-! ## Without a choice -/

/-- The first player who is not the neutral one has the slot after it. -/
theorem find?_active_player {r : Roster} (bound : r.count ≤ 16) :
    r.active.find? (· ≠ Slot.neutral) = if r.count ≤ 1 then none else some 1 := by
  have first : ∀ n ≤ 16, (Slot.all.filter (·.val < n)).find? (· ≠ Slot.neutral) =
      if n ≤ 1 then none else some 1 := by
    decide
  exact first r.count bound

/-- Without a choice the first player, if there is one, is made human and local. -/
theorem chooseFallback_eq {s : Seating} (bound : s.roster.count ≤ 16) :
    chooseFallback s =
      if s.localChosen = true ∨ s.roster.count ≤ 1 then s.roster
      else (s.roster.modify 1 (·.control .human)).setLocal (some 1) := by
  unfold chooseFallback
  rw [find?_active_player bound]
  by_cases chosen : s.localChosen = true
  · rw [if_pos chosen, if_pos (.inl chosen)]
  · by_cases alone : s.roster.count ≤ 1
    · rw [if_neg chosen, if_pos alone, if_pos (.inr alone)]
    · rw [if_neg chosen, if_neg alone, if_neg (not_or.mpr ⟨chosen, alone⟩)]

section Fallback

variable {o : Options} {sides : List Side}

theorem sideAt?_eq_none (empty : namedCount sides = 0) (slot : Slot) :
    sideAt? sides slot = none := by
  unfold sideAt?
  rw [List.eq_nil_of_length_eq_zero empty]
  split <;> rfl

/-- Where there was a choice, or nobody to choose, everyone is controlled as the sides say. -/
theorem controllerAt_settled
    (settled : (chosenPlace? o sides).isSome = true ∨ namedCount sides = 0) (slot : Slot) :
    controllerAt o sides slot =
      match sideAt? sides slot with
      | some side => if side.isHuman then .human else .computer
      | none => .neutral := by
  unfold controllerAt
  cases seated : sideAt? sides slot with
  | none => rfl
  | some side =>
      rcases settled with chosen | empty
      · obtain ⟨place, choice⟩ := Option.isSome_iff_exists.mp chosen
        simp [choice]
      · rw [sideAt?_eq_none empty] at seated
        cases seated

theorem localPlace_settled
    (settled : (chosenPlace? o sides).isSome = true ∨ namedCount sides = 0) :
    localPlace o sides = (chosenPlace? o sides).getD 0 := by
  unfold localPlace
  cases choice : chosenPlace? o sides with
  | some place => rfl
  | none =>
      rcases settled with chosen | empty
      · rw [choice] at chosen
        cases chosen
      · rw [if_pos empty]

/-- A first player who is local for want of a choice is human, whatever its side says. -/
theorem controllerAt_fallback {slot : Slot} (nobody : chosenPlace? o sides = none)
    (anyone : 0 < namedCount sides) (here : slot.val = localPlace o sides) :
    controllerAt o sides slot = .human := by
  have first : slot.val = 1 := by
    rw [here, localPlace, nobody, if_neg (Nat.ne_of_gt anyone)]
    rfl
  have seated : sideAt? sides slot = (sides.filter (·.isNamed))[0]? := by
    unfold sideAt?
    rw [if_neg fun neutral => absurd (first.symm.trans (congrArg Fin.val neutral)) (by decide),
      first]
  unfold controllerAt
  rw [seated, List.getElem?_eq_getElem (by exact anyone), nobody, first]
  simp

/-- Who is local and who controls whom when all seats are taken and the choice is made. -/
theorem Choosing.fallback {s : Seating} (choosing : Choosing o sides s)
    (few : namedCount sides ≤ 15)
    (controllers : ∀ slot, (s.roster.player slot).controller =
      match sideAt? sides slot with
      | some side => if side.isHuman then .human else .computer
      | none => .neutral) :
    (chooseFallback s).localSlot.val = localPlace o sides ∧
      ∀ slot, ((chooseFallback s).player slot).controller = controllerAt o sides slot := by
  obtain ⟨count, chosen, place⟩ := choosing
  rw [chooseFallback_eq (by omega)]
  by_cases kept : s.localChosen = true ∨ s.roster.count ≤ 1
  · have settled : (chosenPlace? o sides).isSome = true ∨ namedCount sides = 0 :=
      kept.imp (chosen ▸ ·) fun alone => by omega
    rw [if_pos kept]
    exact ⟨place.trans (localPlace_settled settled).symm,
      fun slot => (controllers slot).trans (controllerAt_settled settled slot).symm⟩
  · obtain ⟨unchosen, alone⟩ := not_or.mp kept
    have nobody : chosenPlace? o sides = none := by simpa [chosen] using unchosen
    have anyone : 0 < namedCount sides := by omega
    have first : localPlace o sides = 1 := by
      rw [localPlace, nobody, if_neg (Nat.ne_of_gt anyone)]
      rfl
    rw [if_neg kept, first]
    refine ⟨by rw [localSlot_setLocal]; rfl, fun slot => ?_⟩
    rw [view_setLocal (f := Player.controller) fun _ _ => rfl, player_modify]
    by_cases here : 1 = slot
    · subst here
      rw [if_pos rfl, controllerAt_fallback nobody anyone first.symm]
      rfl
    · have other : (slot.val == 1) = false :=
        beq_eq_false_iff_ne.mpr fun same => here (Fin.ext same.symm)
      rw [if_neg here, controllers, controllerAt]
      cases sideAt? sides slot <;> simp [other]

end Fallback

theorem seatAll_choice (o : Options) {sides : List Side} (few : namedCount sides ≤ 15) :
    (seatAll o sides initial).localSlot.val = localPlace o sides ∧
      ∀ slot, ((seatAll o sides initial).player slot).controller = controllerAt o sides slot := by
  have choosing := choosing_seats o few
  have filled (slot : Slot) := view_filled (f := Player.controller) (fun _ _ => rfl) o few slot
  unfold seatAll
  refine Choosing.fallback (o := o) ?_ few fun slot => ?_
  · split
    · exact ⟨choosing.count, choosing.chosen, choosing.place⟩
    · exact choosing
  · have seated :
      ((sides.foldl (Seating.seat o) { roster := initial }).roster.player slot).controller =
        match sideAt? sides slot with
        | some side => if side.isHuman then .human else .computer
        | none => .neutral := by
      rw [filled]
      cases sideAt? sides slot <;> rfl
    split
    · exact seated
    · exact seated

/-! ## The local player of a new game -/

section NewGame

variable {σ : Type} [TeamSource σ] {o : Options} {sides : List Side} {r : Roster} {teams : σ}
  {set : NewGame σ}

theorem localSlot_newGame (started : newGame o sides r teams = .ok set) :
    set.roster.localSlot.val = localPlace o sides :=
  newGame_induction (Q := fun r => r.localSlot.val = localPlace o sides)
    (fun _ _ _ _ same => same) (fun _ _ _ _ same => same) started
    (seatAll_choice o (namedCount_le_of_newGame started)).1

theorem controller_newGame (started : newGame o sides r teams = .ok set) (slot : Slot) :
    (set.roster.player slot).controller = controllerAt o sides slot :=
  (view_newGame (fun _ _ => rfl) (fun _ _ _ => rfl) started slot).trans
    ((seatAll_choice o (namedCount_le_of_newGame started)).2 slot)

end NewGame

/--
After setting up a game, with whatever came before it, the local player is the one of
the last side that is declared local; without one, and without a network or a campaign,
that of the first human side; otherwise the first player, or the neutral one if there is
no other.  That player alone is marked.  Humans and the computer control the players as
their sides say, except that a first player who is local for want of a choice is human.
-/
theorem newGame_local_player {σ : Type} [TeamSource σ] (o : Options) {sides : List Side}
    (few : namedCount sides ≤ 15) (r : Roster) (teams : σ) :
    ∃ set, newGame o sides r teams = .ok set ∧
      set.roster.localSlot.val = localPlace o sides ∧
      (∀ slot, (set.roster.player slot).isLocal = true ↔ slot = set.roster.localSlot) ∧
      (∀ slot, (set.roster.player slot).name = nameAt sides slot ∧
        (set.roster.player slot).controller = controllerAt o sides slot) ∧
      (chosenPlace? o sides = none → 0 < namedCount sides →
        set.roster.localPlayer.controller = .human ∧ set.roster.localPlayer.commander = none) ∧
      ∀ side : Side, (side.isLocal = true ↔ side.attributes.Affirms "multiplayerIsLocal") ∧
        (side.isHuman = true ↔ side.attributes.Affirms "playerIsHuman") := by
  obtain ⟨set, started⟩ := exists_newGame o r teams few
  obtain ⟨place, controllers⟩ := seatAll_choice o few
  have localSlot : set.roster.localSlot = (seatAll o sides initial).localSlot :=
    newGame_induction (Q := fun r => r.localSlot = (seatAll o sides initial).localSlot)
      (fun _ _ _ _ same => same) (fun _ _ _ _ same => same) started rfl
  have name (slot : Slot) : (set.roster.player slot).name = nameAt sides slot :=
    (view_newGame (fun _ _ => rfl) (fun _ _ _ => rfl) started slot).trans
      (name_seatAll o few slot)
  have controller (slot : Slot) :
      (set.roster.player slot).controller = controllerAt o sides slot :=
    (view_newGame (fun _ _ => rfl) (fun _ _ _ => rfl) started slot).trans (controllers slot)
  have orderly := orderly_newGame started
  have here : set.roster.localSlot.val = localPlace o sides := localSlot ▸ place
  refine ⟨set, started, here, orderly.marked, fun slot => ⟨name slot, controller slot⟩,
    fun nobody anyone => ?_, fun side => ⟨Attributes.flag_eq_true, Attributes.flag_eq_true⟩⟩
  have human : set.roster.localPlayer.controller = .human :=
    (controller _).trans (controllerAt_fallback nobody anyone here)
  refine ⟨human, Option.not_isSome_iff_eq_none.mp fun present => ?_⟩
  have computer := (orderly.commanded _).mp present
  rw [show (set.roster.player set.roster.localSlot).controller = .human from human] at computer
  cases computer

/-- A late declaration takes the mark from a human, and a text declares nothing. -/
theorem newGame_local_player_declared :
    let named (name key : String) (value : AttributeValue) : Side :=
      { attributes := .ofList [("playerName", .text name), (key, value)] }
    let sides : List Side := [
      named "" "multiplayerIsLocal" (.flag true), named "Red" "playerIsHuman" (.number 3),
      named "Blue" "multiplayerIsLocal" (.number 1),
      named "Gold" "multiplayerIsLocal" (.text "true")]
    let campaign : Options := { campaign := true }
    namedCount sides ≤ 15 ∧
      (∃ set, newGame {} sides initial ({} : TeamTable) = .ok set ∧
        set.roster.localSlot.val = 2 ∧ (set.roster.player 1).controller = .human ∧
        (set.roster.player 2).controller = .computer) ∧
      ∃ set, newGame campaign (sides.drop 3) initial ({} : TeamTable) = .ok set ∧
        set.roster.localSlot.val = 1 ∧ set.roster.localPlayer.controller = .human := by
  intro named sides campaign
  have few : namedCount sides ≤ 15 := by decide
  have fewer : namedCount (sides.drop 3) ≤ 15 := by decide
  obtain ⟨set, started, place, -, controllers, -⟩ :=
    newGame_local_player {} few initial ({} : TeamTable)
  obtain ⟨set', started', place', -, -, fallback, -⟩ :=
    newGame_local_player campaign fewer initial ({} : TeamTable)
  refine ⟨few, ⟨set, started, place.trans (by decide), ?_, ?_⟩, set', started',
    place'.trans (by decide), (fallback (by decide) (by decide)).1⟩
  · exact (controllers 1).2.trans (by decide)
  · exact (controllers 2).2.trans (by decide)

end Roster

end BattleRoster
