import BattleRoster.Proofs.Roster.Stances
import BattleRoster.Proofs.Session.Holdings

/-!
# Exchanges with players

A grant or a revocation of a registered upgrade is an exchange with one player:
it changes what the player holds, and the player's own objects.  It neither reads
nor writes anything of another player.  So exchanges with two players lead to the
same game in either order, and each is answered alike in both.
-/

namespace BattleRoster

/-- A player gains an upgrade or loses it. -/
inductive Exchange where
  | gain
  | loss

namespace Exchange

def command (player upgrade : String) : Exchange → Command
  | gain => .grant player upgrade
  | loss => .revoke player upgrade

def upgrades (set held : UpgradeSet) : Exchange → UpgradeSet
  | gain => held ∪ set
  | loss => held \ set

def change (set held : UpgradeSet) : Exchange → Bearer → List String × Bearer
  | gain, b => b.update (held ∪ set)
  | loss, b => b.resetModules set

def responses : Exchange → List (String × String) → List Response
  | gain, fired => fired.map (fun (object, module) => .activated object module) ++ [.granted]
  | loss, lost => lost.map (fun (object, module) => .undone object module) ++ [.revoked]

/-- No object changes hands. -/
theorem owner_change (set held : UpgradeSet) (x : Exchange) (b : Bearer) :
    (x.change set held b).2.owner = b.owner := by
  cases x with
  | gain => exact b.owner_update _
  | loss => rfl

/-- What becomes of any object in an exchange with the player of a slot. -/
def affect (slot : Slot) (set held : UpgradeSet) (x : Exchange) (b : Bearer) : Bearer :=
  if b.owner = slot then (x.change set held b).2 else b

theorem owner_affect (slot : Slot) (set held : UpgradeSet) (x : Exchange) (b : Bearer) :
    (x.affect slot set held b).owner = b.owner := by
  unfold affect
  split
  · exact x.owner_change set held b
  · rfl

theorem affect_of_ne {slot : Slot} {b : Bearer} (other : b.owner ≠ slot) (set held : UpgradeSet)
    (x : Exchange) : x.affect slot set held b = b :=
  if_neg other

/-- An object has one owner, so exchanges with two players do not meet in it. -/
theorem affect_comm {p q : Slot} (apart : p ≠ q) (u v holdsP holdsQ : UpgradeSet)
    (x y : Exchange) (b : Bearer) :
    y.affect q v holdsQ (x.affect p u holdsP b) = x.affect p u holdsP (y.affect q v holdsQ b) := by
  by_cases owned : b.owner = p
  · have others : b.owner ≠ q := fun same => apart (owned.symm.trans same)
    have unaffected : (x.affect p u holdsP b).owner ≠ q := by rwa [owner_affect]
    rw [affect_of_ne unaffected, affect_of_ne others]
  · have unaffected : (y.affect q v holdsQ b).owner ≠ p := by rwa [owner_affect]
    rw [affect_of_ne unaffected, affect_of_ne owned]

end Exchange

/-- A registered name is not registered again. -/
theorem Registry.register_of_find? {r : Registry} {name : String} {set : UpgradeSet}
    (found : r.find? name = some set) : r.register name = (.ok set, r) := by
  rw [register, found]

namespace Game

/-- The game after an exchange with the player of a slot. -/
def exchange (g : Game) (slot : Slot) (set : UpgradeSet) (x : Exchange) : Game :=
  { g with
    roster := g.roster.modify slot fun p => { p with upgrades := x.upgrades set p.upgrades }
    objects := g.objects.map (x.affect slot set (g.roster.player slot).upgrades) }

/-- What the objects of a player report of an exchange. -/
def exchanged (g : Game) (slot : Slot) (set : UpgradeSet) (x : Exchange) :
    List (String × String) :=
  g.objects.flatMap fun b =>
    if b.owner = slot then
      (x.change set (g.roster.player slot).upgrades b).1.map
        ((x.change set (g.roster.player slot).upgrades b).2.name, ·)
    else []

/-- The command for an exchange of a registered upgrade is carried out. -/
theorem step_exchange (files : Files) {g : Game} {player upgrade : String} {slot : Slot}
    {set : UpgradeSet} (resolved : g.resolve player = .ok slot)
    (found : g.registry.find? upgrade = some set) (x : Exchange) :
    g.step files (x.command player upgrade) =
      (.responses (x.responses (g.exchanged slot set x)), g.exchange slot set x) := by
  cases x with
  | gain =>
      simp only [Exchange.command, step, grant, resolved, Registry.register_of_find? found,
        Roster.upgrades_addUpgrades, objects_changeObjects, reports_changeObjects]
      rfl
  | loss =>
      simp only [Exchange.command, step, revoke, resolved, found, objects_changeObjects,
        reports_changeObjects]
      rfl

/-! ## One exchange -/

/-- What an exchange with the player of a slot leaves alone. -/
structure Spares (g g' : Game) (slot : Slot) : Prop where
  players : ∀ other, other ≠ slot → g'.roster.player other = g.roster.player other
  player : (g'.roster.player slot).unarmed = (g.roster.player slot).unarmed
  objects :
    List.Forall₂ (fun b b' : Bearer => b'.owner = b.owner ∧ (b.owner ≠ slot → b' = b))
    g.objects g'.objects
  others : g' = { g with
    roster := { g.roster with players := g'.roster.players }, objects := g'.objects }

variable (g : Game) {p q : Slot} (u v : UpgradeSet) (x y : Exchange)

theorem player_exchange (slot : Slot) :
    (g.exchange p u x).roster.player slot =
      if p = slot then
        { g.roster.player p with upgrades := x.upgrades u (g.roster.player p).upgrades }
      else g.roster.player slot :=
  Roster.player_modify ..

theorem spares_exchange : g.Spares (g.exchange p u x) p := by
  refine ⟨fun other apart => ?_, ?_, ?_, rfl⟩
  · rw [player_exchange, if_neg (Ne.symm apart)]
  · rw [player_exchange, if_pos rfl]
    rfl
  · refine List.forall₂_map_right_iff.mpr (List.forall₂_same.mpr fun b _ => ?_)
    exact ⟨x.owner_affect .., fun other => Exchange.affect_of_ne other ..⟩

theorem resolve_exchange (name : String) : (g.exchange p u x).resolve name = g.resolve name := by
  have same : Roster.SameSeats g.roster (g.exchange p u x).roster := by
    unfold exchange
    dsimp only
    exact (Roster.SameSeats.refl g.roster).modify p (fun _ => rfl) fun _ => rfl
  simp only [resolve, same.find?]

/-- A player that gains an upgrade holds it, and one that loses it does not. -/
theorem mem_heldNames_exchange {name : String} (sound : g.registry.Sound)
    (found : g.registry.find? name = some u) :
    name ∈ (g.exchange p u x).heldNames p ↔ x = .gain := by
  have marks := Registry.marks_of_find? found
  change name ∈ g.registry.namesIn ((g.exchange p u x).roster.player p).upgrades ↔ _
  rw [player_exchange, if_pos rfl]
  cases x with
  | gain => exact iff_of_true (marks.mem_namesIn_union.mpr (.inl rfl)) rfl
  | loss =>
      refine iff_of_false (fun kept => ?_) (by simp)
      exact ((marks.mem_namesIn_sdiff sound).mp kept).1 rfl

/-! ## Two exchanges -/

section Apart

variable (apart : p ≠ q)
include apart

theorem upgrades_exchange_of_ne :
    ((g.exchange p u x).roster.player q).upgrades = (g.roster.player q).upgrades := by
  rw [player_exchange, if_neg apart]

/-- Exchanges with two players can change places. -/
theorem exchange_comm :
    (g.exchange p u x).exchange q v y = (g.exchange q v y).exchange p u x := by
  have roster : ((g.exchange p u x).exchange q v y).roster =
      ((g.exchange q v y).exchange p u x).roster := by
    refine Roster.ext_player (fun slot => ?_) rfl rfl rfl
    simp only [player_exchange, if_neg apart, if_neg (Ne.symm apart)]
    by_cases ofP : p = slot
    · rw [if_pos ofP, if_neg fun ofQ => apart (ofP.trans ofQ.symm), if_pos ofP]
    · rw [if_neg ofP, if_neg ofP]
  have objects : ((g.exchange p u x).exchange q v y).objects =
      ((g.exchange q v y).exchange p u x).objects := by
    have holdsQ := g.upgrades_exchange_of_ne u x apart
    have holdsP := g.upgrades_exchange_of_ne v y (Ne.symm apart)
    unfold exchange at holdsP holdsQ ⊢
    dsimp only at holdsP holdsQ ⊢
    rw [holdsP, holdsQ, List.map_map, List.map_map]
    exact List.map_congr_left fun b _ => Exchange.affect_comm apart ..
  exact congrArg₂ (fun roster objects => { g with roster, objects }) roster objects

/-- What one player's objects report does not depend on an exchange with another player. -/
theorem exchanged_exchange : (g.exchange p u x).exchanged q v y = g.exchanged q v y := by
  have held := g.upgrades_exchange_of_ne u x apart
  unfold exchanged
  rw [held]
  unfold exchange
  rw [List.flatMap_map]
  refine List.flatMap_congr fun b _ => ?_
  by_cases owned : b.owner = q
  · have others : b.owner ≠ p := fun same => apart (same.symm.trans owned)
    rw [Exchange.affect_of_ne others]
  · rw [Exchange.owner_affect, if_neg owned, if_neg owned]

end Apart

/--
An exchange of a registered upgrade with one player is carried out, and spares all
other players and their objects.  Exchanges with two players lead to the same game
in either order, and each is answered alike in both.
-/
theorem exchanges_apart {g : Game} (reachable : g.Reachable) {first second : String}
    {p q : Slot} (ofFirst : g.resolve first = .ok p) (ofSecond : g.resolve second = .ok q)
    (apart : p ≠ q) {u v : String} (knownU : u ∈ g.registry.names)
    (knownV : v ∈ g.registry.names) (x y : Exchange) (files files' : Files) :
    let one := g.step files (x.command first u)
    let other := g.step files' (y.command second v)
    (∃ reports, one.1 = .responses (x.responses reports)) ∧
    (u ∈ one.2.heldNames p ↔ x = .gain) ∧ g.Spares one.2 p ∧
    (one.2.step files' (y.command second v)).2 = (other.2.step files (x.command first u)).2 ∧
    (one.2.step files' (y.command second v)).1 = other.1 ∧
    (other.2.step files (x.command first u)).1 = one.1 := by
  intro one other
  obtain ⟨setU, foundU⟩ := reachable.registry.find?_of_mem knownU
  obtain ⟨setV, foundV⟩ := reachable.registry.find?_of_mem knownV
  have oneFirst : one = _ := step_exchange files ofFirst foundU x
  have otherFirst : other = _ := step_exchange files' ofSecond foundV y
  have otherNext := step_exchange files' ((resolve_exchange g setU x second).trans ofSecond)
    (show (g.exchange p setU x).registry.find? v = some setV from foundV) y
  have oneNext := step_exchange files ((resolve_exchange g setV y first).trans ofFirst)
    (show (g.exchange q setV y).registry.find? u = some setU from foundU) x
  rw [oneFirst, otherFirst]
  dsimp only
  rw [otherNext, oneNext]
  refine ⟨⟨_, rfl⟩, g.mem_heldNames_exchange setU x reachable.registry foundU,
    g.spares_exchange setU x, g.exchange_comm setU setV x y apart, ?_, ?_⟩
  · rw [g.exchanged_exchange setU setV x y apart]
  · rw [g.exchanged_exchange setV setU y x (Ne.symm apart)]

/-- Red and Blue have a saw each, and Blue's has fired for steel. -/
def sawmills : List String :=
  ["loadupgrades mill", "side playerName=Red", "side playerName=Blue", "newgame",
    "spawn Red Mill Saw", "spawn Blue Yard Saw", "grant Blue Steel"]

/-- Red's saw fires and Blue's is reset, in either order. -/
theorem exchanges_apart_sawmills :
    let files : Files := { find := fun _ => .ok "[[\"Saw\",[\"Steel\"]]]".toUTF8 }
    let g := Game.run {} ((sawmills.filterMap Command.parse?).map fun c => (files, c))
    let gain : Command := .grant "Red" "Steel"
    let loss : Command := .revoke "Blue" "Steel"
    g.Reachable ∧ g.resolve "Red" = .ok 1 ∧ g.resolve "Blue" = .ok 2 ∧
      "Steel" ∈ g.registry.names ∧
      (g.step files gain).1 = .responses [.activated "Mill" "Saw", .granted] ∧
      (g.step files loss).1 = .responses [.undone "Yard" "Saw", .revoked] ∧
      g.Spares (g.step files gain).2 1 ∧
      ((g.step files gain).2.step files loss).2 = ((g.step files loss).2.step files gain).2 ∧
      ((g.step files gain).2.step files loss).1 = (g.step files loss).1 ∧
      ((g.step files loss).2.step files gain).1 = (g.step files gain).1 := by
  intro files g gain loss
  have reachable : g.Reachable := (Reachable.start {}).run _
  obtain ⟨red, blue, known, fires, lost⟩ :
      g.resolve "Red" = .ok 1 ∧ g.resolve "Blue" = .ok 2 ∧ "Steel" ∈ g.registry.names ∧
        (g.step files gain).1 = .responses [.activated "Mill" "Saw", .granted] ∧
        (g.step files loss).1 = .responses [.undone "Yard" "Saw", .revoked] := by
    decide +kernel
  obtain ⟨-, -, spares, order⟩ :=
    exchanges_apart reachable red blue (by decide) known known .gain .loss files files
  exact ⟨reachable, red, blue, known, fires, lost, spares, order⟩

end Game

end BattleRoster
