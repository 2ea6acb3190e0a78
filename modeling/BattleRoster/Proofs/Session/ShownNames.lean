import BattleRoster.Proofs.Roster.Names
import BattleRoster.Proofs.Session.NeutralSeat

/-!
# Shown names

A listing of the players shows a dash for an empty name, and a command takes a dash for
it.  So where names are different and have no blanks, the word that is shown for a player
is a word that leads to that player again, in every command that takes one.  Only a
player whose name is a dash is shown like the neutral player.
-/

namespace BattleRoster

/-! ## Telling players apart -/

namespace Roster

/-- Each active player is the first with its name, which has no blanks; the neutral one has none. -/
structure Distinguished (r : Roster) : Prop where
  positive : 1 ≤ r.count
  neutral : r.neutral.name = ""
  found : ∀ slot : Slot, slot.val < r.count → r.find? (r.player slot).name = some slot
  solid : ∀ slot, ∀ c ∈ (r.player slot).name.toList, Text.isBlank c = false

/-- The frame of a roster tells its players apart. -/
theorem Distinguished.of_frame {r r' : Roster} (apart : r.Distinguished)
    (same : r'.frame = r.frame) : r'.Distinguished := by
  obtain ⟨count, -, -, players, -⟩ := of_frame_eq same
  have names (slot : Slot) : (r'.player slot).name = (r.player slot).name :=
    (congrArg Player.name (players slot) :)
  obtain ⟨positive, neutral, found, solid⟩ := apart
  refine ⟨count ▸ positive, (names Slot.neutral).trans neutral, fun slot active => ?_,
    fun slot => names slot ▸ solid slot⟩
  rw [find?_congr count names, names]
  exact found slot (count ▸ active)

/-- Sides with different names without blanks make players that can be told apart. -/
theorem distinguished_newGame {σ : Type} [TeamSource σ] {o : Options} {sides : List Side}
    {r : Roster} {teams : σ} {set : NewGame σ} (started : newGame o sides r teams = .ok set)
    (distinct : ((sides.filter (·.isNamed)).map Side.playerName).Nodup)
    (solid : ∀ side ∈ sides, ∀ c ∈ side.playerName.toList, Text.isBlank c = false) :
    set.roster.Distinguished := by
  have named (slot : Slot) : (set.roster.player slot).name = nameAt sides slot :=
    name_newGame started slot
  refine ⟨(orderly_newGame started).positive, (named Slot.neutral).trans (nameAt_neutral sides),
    fun slot active => find?_name_newGame started distinct active, fun slot c mem => ?_⟩
  rw [named] at mem
  have filled : nameAt sides slot ≠ "" := by
    intro empty
    rw [empty] at mem
    cases mem
  obtain ⟨side, among, same⟩ := exists_side_of_nameAt filled
  exact solid side among c (same ▸ mem)

end Roster

/-! ## Words for players -/

/-- What is shown for a name without blanks is a word. -/
theorem isWord_shownName {name : String} (solid : ∀ c ∈ name.toList, Text.isBlank c = false) :
    Text.IsWord (shownName name) := by
  unfold shownName
  split
  · decide
  · next filled => exact ⟨filled, solid⟩

/-- The line of a player has the number of its slot and then what is shown for its name. -/
theorem words_playerLine {slot : Slot} {p : Player} (shown : Text.IsWord (shownName p.name)) :
    (Text.words (playerLine slot p)).take 3 =
      ["player", Text.writeNat slot.val, shownName p.name] := by
  have fixed : Text.IsWord "player" := by decide
  have number : Text.IsWord (Text.writeNat slot.val) := Text.isWord_writeNat _
  obtain ⟨rest, line⟩ : ∃ rest, playerLine slot p =
      "player" ++ " " ++ (Text.writeNat slot.val ++ " " ++ (shownName p.name ++ " " ++ rest)) := by
    have keyword : "player " = "player" ++ " " := rfl
    unfold playerLine
    dsimp only
    rw [keyword]
    simp only [String.append_assoc]
    exact ⟨_, rfl⟩
  rw [line, Text.words_append_space, Text.words_append_space, Text.words_append_space,
    Text.words_of_isWord fixed, Text.words_of_isWord number, Text.words_of_isWord shown]
  rfl

namespace Game

variable {g : Game} {slot : Slot}

/-- What is shown for a player leads to it, unless it looks like the neutral player. -/
theorem resolve_shownName (apart : g.roster.Distinguished) (active : slot.val < g.roster.count)
    (clear : (g.roster.player slot).name ≠ "-") :
    g.resolve (shownName (g.roster.player slot).name) = .ok slot := by
  have found := apart.found slot active
  unfold resolve shownName
  by_cases empty : (g.roster.player slot).name = ""
  · -- the dash that is shown is read as the empty name again
    rw [if_pos empty, if_pos rfl]
    rw [empty] at found
    dsimp only
    rw [found]
  · rw [if_neg empty, if_neg clear]
    dsimp only
    rw [found]

/-! ## Commands that take a player -/

/-- Each command that takes a player takes a text for the one in a slot. -/
structure Addresses (g : Game) (name : String) (slot : Slot) : Prop where
  resolved : g.resolve name = .ok slot
  stance : ∀ files other otherSlot, g.resolve other = .ok otherSlot →
    (g.step files (.stance name other)).1 =
        .responses [.stance (g.roster.stance slot otherSlot)] ∧
      (g.step files (.stance other name)).1 =
        .responses [.stance (g.roster.stance otherSlot slot)]
  spawn : ∀ files object modules,
    (∃ e, (buildModules g.blueprints modules g.registry).1 = .error e ∧
      (g.step files (.spawn name object modules)).1 = .responses [.refused e]) ∨
    ∃ b, b.name = object ∧ b.owner = slot ∧
      (g.step files (.spawn name object modules)).2.objects = g.objects ++ [b]
  grant : ∀ files upgrade,
    (∃ e, (g.registry.register upgrade).1 = .error e ∧
      (g.step files (.grant name upgrade)).1 = .responses [.refused (.upgrade e)]) ∨
    ∃ set, (g.registry.register upgrade).1 = .ok set ∧
      (g.step files (.grant name upgrade)).2.roster = g.roster.modify slot (·.addUpgrades set)
  revoke : ∀ files upgrade,
    (g.registry.find? upgrade = none ∧
      (g.step files (.revoke name upgrade)).1 =
        .responses [.refused (.upgrade (.unknown upgrade))]) ∨
    ∃ set, g.registry.find? upgrade = some set ∧
      (g.step files (.revoke name upgrade)).2.roster = g.roster.modify slot (·.removeUpgrades set)

theorem addresses_of_resolve {name : String} (resolved : g.resolve name = .ok slot) :
    g.Addresses name slot where
  resolved := resolved
  stance files other otherSlot found := by
    simp only [step, resolved, found]
    exact ⟨rfl, rfl⟩
  spawn files object modules := by
    rcases built : buildModules g.blueprints modules g.registry with ⟨e | modules, registry⟩
    · simp only [step, Game.spawn, resolved, built]
      exact .inl ⟨e, rfl, rfl⟩
    · simp only [step, Game.spawn, resolved, built]
      exact .inr ⟨_, Bearer.name_update _ _, Bearer.owner_update _ _, rfl⟩
  grant files upgrade := by
    rcases registered : g.registry.register upgrade with ⟨e | set, registry⟩
    · simp only [step, Game.grant, resolved, registered]
      exact .inl ⟨e, rfl, rfl⟩
    · simp only [step, Game.grant, resolved, registered]
      exact .inr ⟨set, rfl, rfl⟩
  revoke files upgrade := by
    cases found : g.registry.find? upgrade with
    | none =>
        refine .inl ⟨rfl, ?_⟩
        simp only [step, Game.revoke, resolved, found]
        rfl
    | some set =>
        simp only [step, Game.revoke, resolved, found]
        exact .inr ⟨set, rfl, rfl⟩

/-! ## Listings -/

/-- The line for an active player is in the place of its slot. -/
theorem getElem?_listPlayers (sound : g.roster.Sound) (files : Files)
    (active : slot.val < g.roster.count) :
    ((g.step files .listPlayers).1.written.map Response.line)[slot.val]? =
      some (playerLine slot (g.roster.player slot)) := by
  have place : g.roster.active[slot.val]? = some slot := by
    rw [Roster.active_eq_take sound, List.getElem?_take_of_lt active]
    simp [Slot.all]
  have here : slot.val < (g.roster.active.map fun slot =>
      Response.player slot (g.roster.player slot)).length := by
    rw [List.length_map]
    exact (List.getElem?_eq_some_iff.mp place).1
  simp only [step, Reply.written]
  rw [List.getElem?_map, List.getElem?_append_left here, List.getElem?_map, place]
  rfl

/-! ## New games -/

/-- A game that is begun has the roster of a new game. -/
theorem roster_of_begun (begun : g.newGame.1 = .ok ()) :
    ∃ set, Roster.newGame g.options g.sides g.roster g.teams = .ok set ∧
      g.newGame.2.roster = set.roster := by
  unfold newGame at begun ⊢
  split
  · next set started => exact ⟨set, started, rfl⟩
  · next refused =>
      rw [refused] at begun
      cases begun

/--
Shown names address their players.  After a new game from sides whose names are
different and have no blanks, and as long as no game is set up or restored, each active
player is listed in the line of its slot with a word that every command takes for this
player.  The exception is a player with the name `-`: it is listed like the neutral
player, and the dash stands for that one.
-/
theorem shown_names_address (begun : g.newGame.1 = .ok ())
    (distinct : ((g.sides.filter (·.isNamed)).map Side.playerName).Nodup)
    (solid : ∀ side ∈ g.sides, ∀ c ∈ side.playerName.toList, Text.isBlank c = false)
    {later : List (Files × Command)}
    (going : ∀ command ∈ later, command.2 ≠ .newGame ∧ command.2.isRestore = false)
    (files : Files) :
    let now := g.newGame.2.run later
    now.roster.count = Roster.namedCount g.sides + 1 ∧
      ∀ slot : Slot, slot.val < now.roster.count →
        (now.roster.player slot).name = Roster.nameAt g.sides slot ∧
        ∃ line shown,
          ((now.step files .listPlayers).1.written.map Response.line)[slot.val]? = some line ∧
          (Text.words line).take 3 = ["player", Text.writeNat slot.val, shown] ∧
          Text.IsWord shown ∧
          ((now.roster.player slot).name ≠ "-" → now.Addresses shown slot) ∧
          ((now.roster.player slot).name = "-" →
            shown = "-" ∧ now.Addresses shown Slot.neutral) := by
  intro now
  obtain ⟨set, started, roster⟩ := roster_of_begun begun
  have same : now.roster.frame = set.roster.frame :=
    roster ▸ rosterFrame_run going g.newGame.2
  have apart := (Roster.distinguished_newGame started distinct solid).of_frame same
  have sound := (Roster.sound_newGame started).of_frame same
  obtain ⟨count, -, -, players, -⟩ := Roster.of_frame_eq same
  refine ⟨count.trans (Roster.count_newGame started), fun slot active => ⟨?_, ?_⟩⟩
  · exact (congrArg Player.name (players slot) :).trans (Roster.name_newGame started slot)
  · have shown := isWord_shownName (apart.solid slot)
    refine ⟨_, _, getElem?_listPlayers sound files active, words_playerLine shown, shown,
      fun clear => addresses_of_resolve (resolve_shownName apart active clear), fun dash => ?_⟩
    rw [dash]
    exact ⟨rfl, addresses_of_resolve ((resolve_dash apart.positive).mpr apart.neutral)⟩

/-- Two sides are pending, and the first of them has a dash for a name. -/
def dashed : Game where
  sides := ["-", "Red"].map fun name => { attributes := .ofList [("playerName", .text name)] }

theorem reachable_dashed : dashed.Reachable := by
  have told : run {} ([.addSide "playerName=-", .addSide "playerName=Red"].map
      ({ find := fun _ => .error .missing }, ·)) = dashed := by
    decide +kernel
  exact told ▸ Reachable.run (.start {}) _

theorem isWord_dashed : ∀ side ∈ dashed.sides, Text.IsWord side.playerName := by
  decide

/-- A dash is shown for two players, and leads to one of them. -/
theorem shown_names_address_dashed :
    let files : Files := { find := fun _ => .error .missing }
    let now := dashed.newGame.2.run [(files, .grant "Red" "Oak")]
    now.roster.count = 3 ∧ (now.roster.player 1).name = "-" ∧
      ((now.step files .listPlayers).1.written.map Response.line).map
          (fun line => (Text.words line).take 3) =
        [["player", "0", "-"], ["player", "1", "-"], ["player", "2", "Red"], ["playersok"]] ∧
      now.Addresses "-" Slot.neutral ∧ now.Addresses "Red" 2 := by
  intro files now
  have going : ∀ command ∈ [(files, Command.grant "Red" "Oak")],
      command.2 ≠ .newGame ∧ command.2.isRestore = false :=
    List.forall_mem_singleton.mpr ⟨nofun, rfl⟩
  have begun : dashed.newGame.1 = .ok () := by decide +kernel
  obtain ⟨count, each⟩ :=
    shown_names_address begun (by decide) (fun side mem => (isWord_dashed side mem).solid) going
      files
  have three : now.roster.count = 3 := count.trans (by decide)
  have printed : ((now.step files .listPlayers).1.written.map Response.line).map
        (fun line => (Text.words line).take 3) =
      [["player", "0", "-"], ["player", "1", "-"], ["player", "2", "Red"], ["playersok"]] := by
    decide +kernel
  obtain ⟨dash, _, _, -, -, -, -, neutral⟩ := each 1 (three ▸ by decide)
  obtain ⟨red, line, shown, listed, words, -, clear, -⟩ := each 2 (three ▸ by decide)
  have dash : (now.roster.player 1).name = "-" := dash.trans (by decide)
  have red : (now.roster.player 2).name = "Red" := red.trans (by decide)
  have here : shown = "Red" := by
    have third : (((now.step files .listPlayers).1.written.map Response.line)[2]?).map
        (fun line => (Text.words line).take 3) = some ["player", "2", "Red"] := by
      rw [← List.getElem?_map, printed]
      rfl
    rw [show _[2]? = some line from listed, Option.map_some, words] at third
    obtain ⟨-, rest⟩ := List.cons.inj (Option.some.inj third)
    exact (List.cons.inj (List.cons.inj rest).2).1
  obtain ⟨rfl, addressed⟩ := neutral dash
  exact ⟨three, dash, printed, addressed, here ▸ clear (by rw [red]; decide)⟩

/-- The name that is shown for a player does not always lead to that player. -/
theorem shown_dash_misleads :
    ¬ ∀ g : Game, g.Reachable → g.newGame.1 = .ok () →
      ((g.sides.filter (·.isNamed)).map Side.playerName).Nodup →
      (∀ side ∈ g.sides, ∀ c ∈ side.playerName.toList, Text.isBlank c = false) →
      ∀ slot : Slot, slot.val < g.newGame.2.roster.count →
        g.newGame.2.resolve (shownName (g.newGame.2.roster.player slot).name) = .ok slot := by
  intro claim
  have misled : dashed.newGame.2.resolve (shownName (dashed.newGame.2.roster.player 1).name) =
      .ok Slot.neutral := by
    decide +kernel
  have led := claim dashed reachable_dashed (by decide +kernel) (by decide)
    (fun side mem => (isWord_dashed side mem).solid) 1 (by decide +kernel)
  exact absurd (misled.symm.trans led) (by decide)

end Game

end BattleRoster
