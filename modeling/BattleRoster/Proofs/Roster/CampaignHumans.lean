import BattleRoster.Proofs.Roster.LocalPlayer
import BattleRoster.Proofs.Roster.Names
import Mathlib.Data.List.Find
import Mathlib.Data.List.Forall2

/-!
# The humans of a campaign

A campaign keeps the slots of its humans.  From a lobby they are found by their names,
and then they are those that the sides suggest.  Otherwise the first human is kept, and
it is looked for before a player may be made human for want of a local one.
-/

namespace BattleRoster

namespace Roster

/-! ## What is kept -/

theorem humans_chooseFallback (s : Seating) : (chooseFallback s).humans = s.roster.humans := by
  unfold chooseFallback
  split
  · rfl
  · split
    · rw [humans_setLocal]
      rfl
    · rfl

theorem humans_seat (o : Options) (s : Seating) (side : Side) :
    (s.seat o side).roster.humans = s.roster.humans := by
  unfold Seating.seat
  split
  · split
    · rfl
    · dsimp only
      split
      · rw [humans_setLocal]
        rfl
      · rfl
  · rfl

/-- The roster when the seats are taken, and nobody has been made local for want of a choice. -/
def seated (o : Options) (sides : List Side) : Roster :=
  (sides.foldl (Seating.seat o) { roster := initial }).roster

theorem humans_seated (o : Options) (sides : List Side) : (seated o sides).humans = [] :=
  List.foldlRecOn sides (Seating.seat o) (motive := fun s => s.roster.humans = []) rfl
    fun s none side _ => (humans_seat o s side).trans none

/-- A campaign looks for its humans when the seats are taken. -/
theorem humans_seatAll (o : Options) (sides : List Side) :
    (seatAll o sides initial).humans =
      if o.campaign then (seated o sides).campaignHumans o.skirmish else [] := by
  unfold seatAll
  rw [humans_chooseFallback]
  dsimp only
  split
  · rfl
  · exact humans_seated o sides

section NewGame

variable {σ : Type} [TeamSource σ] {o : Options} {sides : List Side} {r : Roster} {teams : σ}
  {set : NewGame σ}

theorem humans_newGame (started : newGame o sides r teams = .ok set) :
    set.roster.humans =
      if o.campaign then (seated o sides).campaignHumans o.skirmish else [] :=
  newGame_induction
    (Q := fun r => r.humans = if o.campaign then (seated o sides).campaignHumans o.skirmish else [])
    (fun _ _ _ _ same => same) (fun _ _ _ _ same => same) started (humans_seatAll o sides)

/-- Names lead where they led when the seats were taken. -/
theorem find?_seated (started : newGame o sides r teams = .ok set) (name : String) :
    set.roster.find? name = (seated o sides).find? name := by
  have few := namedCount_le_of_newGame started
  refine find?_congr ?_ (fun slot => ?_) name
  · rw [count_newGame started]
    exact (choosing_seats o few).count.symm
  · rw [name_newGame started]
    have filled := view_filled (f := Player.name) (fun _ _ => rfl) o few slot
    refine Eq.trans ?_ filled.symm
    unfold nameAt
    cases sideAt? sides slot <;> rfl

end NewGame

/-! ## Humans from a lobby -/

theorem numberedHumans_congr {r r' : Roster} (same : ∀ name, r'.find? name = r.find? name)
    (numbers : List Nat) : r'.numberedHumans numbers = r.numberedHumans numbers := by
  induction numbers with
  | nil => rfl
  | cons n numbers ih =>
      unfold numberedHumans
      rw [same, ih]

/-- The humans from a lobby are a matter of names. -/
theorem campaignHumans_lobby_congr {r r' : Roster}
    (same : ∀ name, r'.find? name = r.find? name) :
    r'.campaignHumans true = r.campaignHumans true := by
  unfold campaignHumans
  rw [if_pos rfl, if_pos rfl, funext same, numberedHumans_congr same]

/-- The numbered humans are those of the numbers before the first gap. -/
theorem forall₂_numberedHumans (r : Roster) (numbers : List Nat) :
    List.Forall₂ (fun n slot => r.find? ("player" ++ Text.writeNat n) = some slot)
      (numbers.takeWhile fun n => (r.find? ("player" ++ Text.writeNat n)).isSome)
      (r.numberedHumans numbers) := by
  induction numbers with
  | nil => exact .nil
  | cons n numbers ih =>
      unfold numberedHumans
      rw [List.takeWhile_cons]
      cases found : r.find? ("player" ++ Text.writeNat n) with
      | some slot => exact .cons found ih
      | none => exact .nil

/-- The first human is that of the first name that leads to anybody. -/
theorem forall₂_findSome? (r : Roster) (names : List String) :
    List.Forall₂ (fun name slot => r.find? name = some slot)
      (names.find? fun name => (r.find? name).isSome).toList (names.findSome? r.find?).toList := by
  induction names with
  | nil => exact .nil
  | cons name names ih =>
      rw [List.find?_cons, List.findSome?_cons]
      cases found : r.find? name with
      | some slot => exact .cons found .nil
      | none => exact ih

/-- There may be as many further humans as lobby slots besides the host's. -/
theorem campaignExtraSlots_eq : campaignExtraSlots = lobbySlotCount - 1 := rfl

/-- The numbers up to the first gap are as many as the sides suggest slots besides the host's. -/
theorem takeWhile_suggested (sides : List Side) :
    ((List.range' 1 (lobbySlotCount - 1)).takeWhile fun n =>
        sides.any fun side => side.playerName == "player" ++ Text.writeNat n) =
      List.range' 1 (suggestedSlots sides - 1) := by
  have count : suggestedSlots sides - 1 =
      ((List.range' 1 (lobbySlotCount - 1)).takeWhile fun n =>
        sides.any fun side => side.playerName == "player" ++ Text.writeNat n).length := by
    unfold suggestedSlots
    dsimp only
    split
    · next none => exact none.symm
    · next more => exact more.symm
  have ahead := List.takeWhile_prefix (l := List.range' 1 (lobbySlotCount - 1)) fun n =>
    sides.any fun side => side.playerName == "player" ++ Text.writeNat n
  have short := ahead.length_le
  rw [List.length_range'] at short
  rw [count]
  exact (List.prefix_iff_eq_take.mp ahead).trans (List.take_range'_of_length_ge short)

/--
The names of the humans that the sides of a lobby suggest: the first of the names of a
host that a side has, and the numbered ones that go with the suggested slots.
-/
def lobbyNames (sides : List Side) : List String :=
  (campaignNames.find? fun name => sides.any (·.playerName == name)).toList ++
    (List.range' 1 (suggestedSlots sides - 1)).map fun n => "player" ++ Text.writeNat n

theorem ne_empty_of_mem_lobbyNames {sides : List Side} {name : String}
    (mem : name ∈ lobbyNames sides) : name ≠ "" := by
  have hosts : ∀ host ∈ campaignNames, host ≠ "" := by decide
  rcases List.mem_append.mp mem with host | numbered
  · exact hosts name (List.mem_of_find?_eq_some (Option.mem_toList.mp host))
  · obtain ⟨n, -, rfl⟩ := List.mem_map.mp numbered
    simp [String.append_eq_empty_iff]

section NewGame

variable {σ : Type} [TeamSource σ] {o : Options} {sides : List Side} {r : Roster} {teams : σ}
  {set : NewGame σ}

/-- From a lobby the names that the sides suggest lead to the humans. -/
theorem forall₂_campaignHumans (started : newGame o sides r teams = .ok set) :
    List.Forall₂ (fun name slot => set.roster.find? name = some slot) (lobbyNames sides)
      (set.roster.campaignHumans true) := by
  have numbered (n : Nat) : (set.roster.find? ("player" ++ Text.writeNat n)).isSome =
      sides.any fun side => side.playerName == "player" ++ Text.writeNat n :=
    isSome_find?_newGame started (by simp [String.append_eq_empty_iff])
  have host : ∀ name ∈ campaignNames, (set.roster.find? name).isSome =
      sides.any (·.playerName == name) := fun name mem =>
    isSome_find?_newGame started ((by decide : ∀ host ∈ campaignNames, host ≠ "") name mem)
  unfold campaignHumans lobbyNames
  rw [if_pos rfl]
  refine List.rel_append ?_ (List.forall₂_map_left_iff.mpr ?_)
  · have hosts := forall₂_findSome? set.roster campaignNames
    rwa [List.find?_congr host] at hosts
  · have rest := forall₂_numberedHumans set.roster (List.range' 1 campaignExtraSlots)
    rwa [funext numbered, campaignExtraSlots_eq, takeWhile_suggested] at rest

/--
A campaign from a lobby has the humans that its sides suggest: the first player with the
first of the names of a host that a side has, and then for each suggested slot the first
player with its number.  None of them is the neutral player, and nobody is there twice.
Without a campaign there are none.
-/
theorem newGame_lobby_humans (started : newGame o sides r teams = .ok set) :
    (o.campaign = true → o.skirmish = true →
      List.Forall₂ (fun name slot => set.roster.FirstNamed name slot ∧ slot ≠ Slot.neutral)
        (lobbyNames sides) set.roster.humans ∧ set.roster.humans.Nodup) ∧
    (o.campaign = false → set.roster.humans = []) := by
  have kept := humans_newGame started
  refine ⟨fun campaign lobby => ⟨?_, (orderly_newGame started).distinct⟩, fun none => ?_⟩
  · rw [if_pos campaign, lobby, ← campaignHumans_lobby_congr (find?_seated started)] at kept
    have filled := (List.forall₂_and_left _ _).mpr
      ⟨fun _ mem => ne_empty_of_mem_lobbyNames mem, forall₂_campaignHumans started⟩
    rw [kept]
    refine filled.imp fun name slot ⟨nonempty, found⟩ => ?_
    have first := firstNamed_of_find? found
    refine ⟨first, fun neutral => nonempty ?_⟩
    rw [← first.named, neutral, name_newGame started, nameAt_neutral]
  · rwa [if_neg (by rw [none]; decide)] at kept

end NewGame

/-- Two sides share a number, and a text that is no name and a number after a gap do not count. -/
theorem newGame_lobby_humans_gap :
    let named (value : AttributeValue) : Side := { attributes := .ofList [("playerName", value)] }
    let sides : List Side := ["player1", "Player", "player2", "player1", "player4", "player0"].map
      fun name => named (.text name)
    let lobby : Options := { campaign := true, skirmish := true }
    ∃ set, newGame lobby (named (.number 3) :: sides) initial ({} : TeamTable) = .ok set ∧
      suggestedSlots (named (.number 3) :: sides) = 3 ∧
      lobbyNames (named (.number 3) :: sides) = ["Player", "player1", "player2"] ∧
      set.roster.humans = [2, 1, 3] := by
  intro named sides lobby
  have few : namedCount (named (.number 3) :: sides) ≤ 15 := by decide
  obtain ⟨set, started⟩ := exists_newGame lobby initial ({} : TeamTable) few
  have suggested : suggestedSlots (named (.number 3) :: sides) = 3 := by decide +kernel
  have names : lobbyNames (named (.number 3) :: sides) = ["Player", "player1", "player2"] := by
    decide +kernel
  obtain ⟨humans, -⟩ := (newGame_lobby_humans started).1 rfl rfl
  have expected :
      List.Forall₂ set.roster.FirstNamed ["Player", "player1", "player2"] [2, 1, 3] := by
    simp only [List.forall₂_cons, List.forall₂_nil_left_iff, firstNamed_newGame started]
    decide
  have unique : Relator.RightUnique set.roster.FirstNamed := fun _ _ _ this that => this.unique that
  rw [names] at humans
  exact ⟨set, started, suggested, names,
    unique.forall₂ (humans.imp fun _ _ human => human.1) expected⟩

/-! ## The first human -/

/-- The first slot whose side has a human. -/
def firstHuman? (sides : List Side) : Option Slot :=
  Slot.all.find? fun slot => (sideAt? sides slot).any Side.isHuman

/--
No side is declared local, so that in a campaign the first player is made local and human
for want of a choice, and the side of the first player has no human.
-/
structure Overtaken (sides : List Side) : Prop where
  undeclared : ∀ side ∈ sides, side.isNamed = true → side.isLocal = false
  first : ∃ side ∈ (sides.filter (·.isNamed)).head?, side.isHuman = false

theorem campaignHumans_alone {r : Roster} {human : Slot → Bool}
    (controlled : ∀ slot, ((r.player slot).controller == .human) = human slot) :
    r.campaignHumans false = (Slot.all.find? human).toList := by
  unfold campaignHumans
  rw [if_neg Bool.false_ne_true, funext controlled]

section FirstHuman

variable {o : Options} {sides : List Side}

/-- When the seats are taken, humans control the players of the sides that have one. -/
theorem human_seated (few : namedCount sides ≤ 15) (slot : Slot) :
    (((seated o sides).player slot).controller == .human) =
      (sideAt? sides slot).any Side.isHuman := by
  have filled := view_filled (f := Player.controller) (fun _ _ => rfl) o few slot
  rw [seated, filled]
  cases sideAt? sides slot with
  | none => rfl
  | some side =>
      cases human : side.isHuman <;> simp [Player.ofSide, Player.control, human]

/-- In a campaign nobody is chosen to be local unless a side is declared local. -/
theorem chosenPlace?_campaign (campaign : o.campaign = true) :
    chosenPlace? o sides = none ↔
      ∀ side ∈ sides, side.isNamed = true → side.isLocal = false := by
  induction sides using List.reverseRecOn with
  | nil => simp [chosenPlace?, placesOf, campaign]
  | append_singleton sides side ih =>
      rw [List.forall_mem_append, List.forall_mem_singleton, ← ih]
      cases named : side.isNamed with
      | false => simp [chosenPlace?_concat_unnamed o sides named]
      | true =>
          rw [chosenPlace?_concat o sides named, campaign]
          cases side.isLocal <;> simp

theorem sideAt?_first : sideAt? sides 1 = (sides.filter (·.isNamed)).head? := by
  rw [sideAt?, if_neg (by decide), List.head?_eq_getElem?]
  rfl

/-- A player that is made human for want of a choice is overtaken, or human anyway. -/
theorem human_of_fallback (campaign : o.campaign = true) (kept : ¬ Overtaken sides) {slot : Slot}
    {side : Side} (here : sideAt? sides slot = some side)
    (fallback : (slot.val == 1 && (chosenPlace? o sides).isNone) = true) :
    side.isHuman = true := by
  rw [Bool.and_eq_true, beq_iff_eq, Option.isNone_iff_eq_none] at fallback
  obtain ⟨first, nobody⟩ := fallback
  obtain rfl : slot = 1 := Fin.ext first
  have undeclared := (chosenPlace?_campaign campaign).mp nobody
  refine Decidable.of_not_not fun computer => kept ⟨undeclared, ?_⟩
  rw [← sideAt?_first, here]
  exact ⟨side, rfl, by simpa using computer⟩

/-- Unless the first player is overtaken, humans control the players of the sides that have one. -/
theorem human_controllerAt (campaign : o.campaign = true) (kept : ¬ Overtaken sides)
    (slot : Slot) :
    (controllerAt o sides slot == .human) = (sideAt? sides slot).any Side.isHuman := by
  unfold controllerAt
  cases here : sideAt? sides slot with
  | none => rfl
  | some side =>
      cases human : side.isHuman with
      | true => simp [human]
      | false =>
          have settled : ¬ (slot.val == 1 && (chosenPlace? o sides).isNone) = true := by
            intro fallback
            have other := human_of_fallback campaign kept here fallback
            exact Bool.false_ne_true (human.symm.trans other)
          dsimp only
          rw [human, Bool.false_or, if_neg settled]
          exact human.symm

/-- An overtaken first player is controlled by a human, although its side has none. -/
theorem Overtaken.controllers (campaign : o.campaign = true) (overtaken : Overtaken sides) :
    (sideAt? sides 1).any Side.isHuman = false ∧ controllerAt o sides 1 = .human := by
  obtain ⟨side, first, computer⟩ := overtaken.first
  have nobody : chosenPlace? o sides = none :=
    (chosenPlace?_campaign campaign).mpr overtaken.undeclared
  rw [controllerAt, sideAt?_first, Option.mem_def.mp first, nobody]
  exact ⟨computer, by simp⟩

end FirstHuman

section NewGame

variable {σ : Type} [TeamSource σ] {o : Options} {sides : List Side} {r : Roster} {teams : σ}
  {set : NewGame σ}

/-- Without a lobby the human that is kept is the first one of the sides. -/
theorem humans_alone (started : newGame o sides r teams = .ok set) (campaign : o.campaign = true)
    (alone : o.skirmish = false) : set.roster.humans = (firstHuman? sides).toList := by
  rw [humans_newGame started, if_pos campaign, alone]
  exact campaignHumans_alone (human_seated (namedCount_le_of_newGame started))

theorem campaignHumans_kept (started : newGame o sides r teams = .ok set)
    (campaign : o.campaign = true) (kept : ¬ Overtaken sides) :
    set.roster.campaignHumans false = (firstHuman? sides).toList := by
  refine campaignHumans_alone fun slot => ?_
  rw [controller_newGame started]
  exact human_controllerAt campaign kept slot

theorem campaignHumans_overtaken (started : newGame o sides r teams = .ok set)
    (campaign : o.campaign = true) (overtaken : Overtaken sides) :
    set.roster.campaignHumans false = [1] := by
  have first : (set.roster.player 1).controller = .human :=
    (controller_newGame started 1).trans (overtaken.controllers campaign).2
  have neutral : (set.roster.player Slot.neutral).controller = .neutral :=
    controller_newGame started Slot.neutral
  have slots : Slot.all = Slot.neutral :: 1 :: Slot.all.drop 2 := by decide
  rw [campaignHumans_alone fun _ => rfl, slots, List.find?_cons, neutral, List.find?_cons, first]
  rfl

/--
The humans that a campaign keeps are those of the finished roster, except without a lobby
where the first player is overtaken: they are looked for before that player is made human.
So what is kept is always the first human of the sides, whereas an overtaken first player
is the first human of the finished roster.
-/
theorem newGame_humans_early (started : newGame o sides r teams = .ok set)
    (campaign : o.campaign = true) :
    (set.roster.humans = set.roster.campaignHumans o.skirmish ↔
      ¬ (o.skirmish = false ∧ Overtaken sides)) ∧
    (o.skirmish = false → set.roster.humans = (firstHuman? sides).toList ∧
      (Overtaken sides → set.roster.campaignHumans false = [1])) := by
  refine ⟨?_, fun alone => ⟨humans_alone started campaign alone,
    campaignHumans_overtaken started campaign⟩⟩
  cases session : o.skirmish with
  | true =>
      refine iff_of_true ?_ (by simp)
      rw [humans_newGame started, if_pos campaign, session]
      exact (campaignHumans_lobby_congr (find?_seated started)).symm
  | false =>
      rw [humans_alone started campaign session]
      by_cases overtaken : Overtaken sides
      · refine iff_of_false (fun same => ?_) fun kept => kept ⟨rfl, overtaken⟩
        -- the first slot would have a human by its side
        rw [campaignHumans_overtaken started campaign overtaken] at same
        have human := List.find?_some (Option.toList_eq_singleton_iff.mp same)
        rw [(overtaken.controllers campaign).1] at human
        cases human
      · exact iff_of_true (campaignHumans_kept started campaign overtaken).symm
          fun both => overtaken both.2

end NewGame

/-- The side of Red, which has no human, comes before that of Blue, which has one. -/
def blueAfterRed : List Side := [
  { attributes := .ofList [("playerName", .text "Red")] },
  { attributes := .ofList [("playerName", .text "Blue"), ("playerIsHuman", .flag true)] }]

theorem overtaken_blueAfterRed : Overtaken blueAfterRed where
  undeclared := by decide
  first := ⟨_, rfl, by decide⟩

/-- Blue is kept where Red is overtaken; the other way around nobody is. -/
theorem newGame_humans_early_blue :
    let alone : Options := { campaign := true, skirmish := false }
    ∃ set, newGame alone blueAfterRed initial ({} : TeamTable) = .ok set ∧
      set.roster.humans = [2] ∧ set.roster.campaignHumans false = [1] ∧
      ∃ set', newGame alone blueAfterRed.reverse initial ({} : TeamTable) = .ok set' ∧
        set'.roster.humans = set'.roster.campaignHumans false := by
  intro alone
  have few : namedCount blueAfterRed ≤ 15 := by decide
  have few' : namedCount blueAfterRed.reverse ≤ 15 := by decide
  obtain ⟨set, started⟩ := exists_newGame alone initial ({} : TeamTable) few
  obtain ⟨set', started'⟩ := exists_newGame alone initial ({} : TeamTable) few'
  obtain ⟨first, finished⟩ := (newGame_humans_early started rfl).2 rfl
  have settled : ¬ Overtaken blueAfterRed.reverse := by
    rintro ⟨-, side, first, computer⟩
    obtain rfl := Option.some.inj first
    exact absurd computer (by decide)
  have kept := (newGame_humans_early started' rfl).1.mpr fun both => settled both.2
  exact ⟨set, started, first.trans (by decide), finished overtaken_blueAfterRed, set', started',
    kept⟩

/-- What a campaign keeps are not always the humans of the finished roster. -/
theorem newGame_humans_stale :
    ¬ ∀ (o : Options) (sides : List Side) (r : Roster) (teams : TeamTable)
        (set : NewGame TeamTable), newGame o sides r teams = .ok set → o.campaign = true →
        set.roster.humans = set.roster.campaignHumans o.skirmish := by
  intro claim
  let alone : Options := { campaign := true, skirmish := false }
  have few : namedCount blueAfterRed ≤ 15 := by decide
  obtain ⟨set, started⟩ := exists_newGame alone initial ({} : TeamTable) few
  have same := claim alone blueAfterRed initial {} set started rfl
  rw [humans_alone started rfl rfl,
    campaignHumans_overtaken started rfl overtaken_blueAfterRed] at same
  exact absurd same (by decide)

end Roster

end BattleRoster
