import BattleRoster.Proofs.Roster.Seating
import BattleRoster.Session.Game
import Mathlib.Data.List.Forall2
import Mathlib.Data.List.Perm.Basic

/-!
# Handing over buildings

Setting up a game seats the named sides one after the other, and each hands its
buildings over to its player.  The sides without a name stay as they are, so every
building of a side is afterwards either with its player or still with its side.
-/

namespace BattleRoster

/-- A player is the one that a side describes, and has what the side had for it. -/
structure Player.Portrays (p : Player) (side : Side) : Prop where
  name : p.name = side.playerName
  displayName : p.displayName =
    match side.attributes.get? "playerDisplayName" with
    | some (.text shown) => if shown = "" then side.playerName else shown
    | _ => side.playerName
  faction : p.faction = side.faction
  lobbySlot : p.lobbySlot = side.lobbySlot
  upgrades : p.upgrades = ∅
  buildings : p.buildings = side.buildings.getD []

/-- A side after a game was set up: its buildings are gone if it has a player. -/
structure Side.Left (before after : Side) : Prop where
  attributes : after.attributes = before.attributes
  lobbySlot : after.lobbySlot = before.lobbySlot
  teams : after.teams = before.teams
  buildings : after.buildings = if before.isNamed then none else before.buildings

/-- What a player has from its side, whoever controls it and whatever it knows of others. -/
def Player.origin (p : Player) : Player :=
  { p.clear with
    controller := .neutral
    lobbySlot := p.lobbySlot
    buildings := p.buildings
    upgrades := p.upgrades }

/-- A side's player portrays it. -/
theorem Player.portrays_of_origin {p : Player} {side : Side}
    (same : p.origin = (Player.ofSide side).origin) : p.Portrays side where
  name := congrArg Player.name same
  displayName := by
    have shown := congrArg Player.displayName same
    change p.displayName = side.displayName at shown
    rw [shown]
    unfold Side.displayName Attributes.text
    cases side.attributes.get? "playerDisplayName" with
    | none => rfl
    | some value => cases value <;> rfl
  faction := congrArg Player.faction same
  lobbySlot := congrArg Player.lobbySlot same
  upgrades := congrArg Player.upgrades same
  buildings := congrArg Player.buildings same

namespace Roster

theorem forall₂_left_released (sides : List Side) :
    List.Forall₂ Side.Left sides (released sides) := by
  unfold released
  rw [List.forall₂_map_right_iff, List.forall₂_same]
  intro side _
  by_cases named : side.isNamed = true
  · rw [if_pos named]
    exact ⟨rfl, rfl, rfl, (if_pos named).symm⟩
  · rw [if_neg named]
    exact ⟨rfl, rfl, rfl, (if_neg named).symm⟩

/-- What is left with the sides is what those without a name had. -/
theorem buildings_released (sides : List Side) :
    (released sides).flatMap (·.release.1) =
      (sides.filter (!·.isNamed)).flatMap (·.release.1) := by
  induction sides with
  | nil => rfl
  | cons side sides ih =>
      rw [released, List.map_cons, List.flatMap_cons, ← released, ih, List.filter_cons]
      cases side.isNamed <;> rfl

/-- Looking up as many places as there are, or more, gives the members of a list in order. -/
theorem flatMap_finRange_getElem? {α β : Type} (f : α → List β) {n : Nat} {members : List α}
    (room : members.length ≤ n) :
    ((List.finRange n).flatMap fun i => (members[i.val]?.map f).getD []) =
      members.flatMap f := by
  induction n generalizing members with
  | zero => rw [List.eq_nil_of_length_eq_zero (Nat.le_zero.mp room)]; rfl
  | succ n ih =>
      rw [List.finRange_succ, List.flatMap_cons, List.flatMap_map]
      cases members with
      | nil => simp
      | cons first rest =>
          rw [List.flatMap_cons, ← ih (Nat.le_of_succ_le_succ room)]
          rfl

section NewGame

variable {σ : Type} [TeamSource σ] {o : Options} {sides : List Side} {r : Roster} {teams : σ}
  {set : NewGame σ}

theorem origin_newGame (started : newGame o sides r teams = .ok set) (slot : Slot) :
    (set.roster.player slot).origin =
      match sideAt? sides slot with
      | some side => (Player.ofSide side).origin
      | none => Player.vacant := by
  have same := identity_seatAll o (namedCount_le_of_newGame started) slot
  have seated := view_newGame (f := Player.origin) (fun _ _ => rfl) (fun _ _ _ => rfl) started slot
  rw [seated]
  change ((seatAll o sides initial).player slot).identity.origin = _
  rw [same]
  cases sideAt? sides slot <;> rfl

/-- The named sides become the players after the neutral one, in their order. -/
theorem portrays_newGame (started : newGame o sides r teams = .ok set) {k : Nat} {side : Side}
    (here : (sides.filter (·.isNamed))[k]? = some side) :
    ∃ slot : Slot, slot.val = k + 1 ∧ (set.roster.player slot).Portrays side := by
  obtain ⟨within, -⟩ := List.getElem?_eq_some_iff.mp here
  have few : k < 15 := Nat.lt_of_lt_of_le within (namedCount_le_of_newGame started)
  refine ⟨⟨k + 1, Nat.succ_lt_succ few⟩, rfl, Player.portrays_of_origin ?_⟩
  have seated : sideAt? sides ⟨k + 1, Nat.succ_lt_succ few⟩ = some side := by
    unfold sideAt?
    rw [if_neg fun neutral => Nat.succ_ne_zero k (congrArg Fin.val neutral)]
    exact here
  rw [origin_newGame started, seated]

/-- The players have the buildings of the named sides, in the order of both. -/
theorem buildings_newGame (started : newGame o sides r teams = .ok set) :
    (Slot.all.flatMap fun slot => (set.roster.player slot).buildings) =
      (sides.filter (·.isNamed)).flatMap (·.release.1) := by
  have had (slot : Slot) : (set.roster.player slot).buildings =
      ((sideAt? sides slot).map (·.release.1)).getD [] := by
    have same := congrArg Player.buildings (origin_newGame started slot)
    cases seated : sideAt? sides slot <;> rw [seated] at same <;> exact same
  simp only [had]
  rw [Slot.all, List.finRange_succ, List.flatMap_cons, List.flatMap_map,
    ← flatMap_finRange_getElem? _ (namedCount_le_of_newGame started)]
  rfl

end NewGame

end Roster

namespace Game

/-- What setting up a game does to the sides, and what the players have from them. -/
structure HandedOver (before after : Game) : Prop where
  count : after.roster.count = Roster.namedCount before.sides + 1
  seated : ∀ k side, (before.sides.filter (·.isNamed))[k]? = some side →
    ∃ slot : Slot, slot.val = k + 1 ∧ (after.roster.player slot).Portrays side
  sides : List.Forall₂ Side.Left before.sides after.sides
  buildings :
    ((Slot.all.flatMap fun slot => (after.roster.player slot).buildings) ++
      after.sides.flatMap (·.buildings.getD [])).Perm
        (before.sides.flatMap (·.buildings.getD []))

/-- Of two namesakes each gets its own building; the side between them keeps its one. -/
example :
    let side (name building : String) : Side :=
      { attributes := .ofList [("playerName", .text name)]
        buildings := some [{ blueprint := building }] }
    let started := newGame { sides := [side "Red" "Barracks", side "" "Mill", side "Red" "Camp"] }
    (started.2.roster.players.toList.take 4).map (·.buildings.map (·.blueprint)) =
        [[], ["Barracks"], ["Camp"], []] ∧
      started.2.sides.map (·.buildings.isSome) = [false, true, false] := by
  decide +kernel

end Game

end BattleRoster
