import BattleRoster.Proofs.Roster.LocalPlayer
import BattleRoster.Proofs.Roster.Names
import BattleRoster.Proofs.Side.Lines
import BattleRoster.Session.Step

/-!
# Names that are given

A line that gives a name makes a side with this name, unless the name looks like a flag
or a number.  Such a name is taken for one, and then the side has no name at all and
gets no player in a new game.
-/

namespace BattleRoster

open Text (Signed)

/-! ## The line of a name -/

namespace AttributeValue

/-- A text that stands for a flag or a number. -/
def IsLiteral (s : String) : Prop :=
  s = "true" ∨ s = "false" ∨ ∃ n : Int64, Signed s.toList n.toInt

theorem isLiteral_iff {s : String} :
    IsLiteral s ↔ s = "true" ∨ s = "false" ∨ (Text.readInt64? s).isSome = true := by
  simp only [IsLiteral, ← Text.readInt64?_eq_some, Option.isSome_iff_exists]

instance (s : String) : Decidable (IsLiteral s) :=
  decidable_of_iff _ isLiteral_iff.symm

variable {s : String} {value : AttributeValue}

theorem Means.of_not_isLiteral (means : value.Means s) (plain : ¬ IsLiteral s) :
    value = .text s := by
  cases means with
  | yes shape => exact absurd (.inl shape) plain
  | no shape => exact absurd (.inr (.inl shape)) plain
  | number numeral => exact absurd (.inr (.inr ⟨_, numeral⟩)) plain
  | text => rfl

theorem Means.of_isLiteral (means : value.Means s) (literal : IsLiteral s) (text : String) :
    value ≠ .text text := by
  cases means with
  | yes | no | number => exact nofun
  | text notTrue notFalse notNumber =>
      rcases literal with yes | no | number
      · exact absurd yes notTrue
      · exact absurd no notFalse
      · exact absurd number notNumber

end AttributeValue

namespace Side

variable {name : String} {value : AttributeValue}

/-- A side of which nothing is told but the name of its player. -/
def called (value : AttributeValue) : Side where
  attributes := .ofList [("playerName", value)]

theorem enter_playerName (value : AttributeValue) :
    Entry.enter {} (.attribute "playerName" value) = called value :=
  rfl

theorem get?_called (value : AttributeValue) :
    (called value).attributes.get? "playerName" = some value := by
  rw [← enter_playerName, Entry.enter, OrderedMap.get?_insert, if_pos rfl]

theorem playerName_called (name : String) : (called (.text name)).playerName = name := by
  rw [playerName, Attributes.text, get?_called]

theorem playerName_called_literal (literal : ∀ text, value ≠ .text text) :
    (called value).playerName = "" := by
  rw [playerName, Attributes.text, get?_called]
  cases value with
  | flag | number => rfl
  | text s => exact absurd rfl (literal s)

/-- Every name can be given, with whatever it stands for. -/
theorem parse_playerName (filled : name ≠ "") (clear : ';' ∉ name.toList)
    (trimmed : Text.IsTrimmed name) :
    ∃ value : AttributeValue, value.Means name ∧
      parse ("playerName=" ++ name) = .ok (called value) := by
  have means : (AttributeValue.ofText name).Means name := AttributeValue.ofText_eq_iff.mp rfl
  refine ⟨.ofText name, means, ?_⟩
  have joined : "playerName=" ++ name = "playerName" ++ "=" ++ name := rfl
  have inert : Inert ("playerName=" ++ name) := by
    refine ⟨?_, fun mem => ?_⟩
    · rw [joined]
      exact Text.isTrimmed_between (by decide) (by decide) filled trimmed "="
    · rw [String.toList_append] at mem
      rcases List.mem_append.mp mem with key | inside
      · exact absurd key (by decide)
      · exact clear inside
  have entries : entryTexts ("playerName=" ++ name) = ["playerName=" ++ name] := by
    have nonempty : "playerName=" ++ name ≠ "" := by simp [String.append_eq_empty_iff]
    have one := entryTexts_intercalate (List.forall_mem_singleton.mpr ⟨inert, nonempty⟩)
    rwa [String.intercalate_singleton] at one
  have keyed : Keyed ("playerName=" ++ name) "playerName" name :=
    ⟨"playerName", name, joined, by decide, by decide, trimmed⟩
  have read := Entry.read_of_stands keyed (.attribute (by decide) (by decide) means)
  unfold parse
  rw [entries, List.foldlM_cons, read]
  rfl

end Side

/-! ## One side alone -/

namespace Roster

theorem namedCount_singleton (side : Side) :
    namedCount [side] = if side.isNamed then 1 else 0 := by
  unfold namedCount
  cases named : side.isNamed <;> simp [named]

/-- The first slot after the neutral player's is that of the only side, if it is named. -/
theorem nameAt_singleton (side : Side) : nameAt [side] 1 = side.playerName := by
  unfold nameAt sideAt?
  rw [if_neg (by decide)]
  by_cases named : side.isNamed = true
  · simp [named]
  · have nameless : side.playerName = "" := by simpa [Side.isNamed] using named
    simp [named, nameless]

theorem placesOf_singleton (P : Side → Bool) (side : Side) :
    placesOf P [side] = if side.isNamed && P side then [1] else [] :=
  placesOf_concat P [] side

/-- The player of the only side is local, whatever the side says. -/
theorem localPlace_singleton (o : Options) (side : Side) :
    localPlace o [side] = if side.isNamed then 1 else 0 := by
  unfold localPlace chosenPlace?
  rw [placesOf_singleton, placesOf_singleton, namedCount_singleton]
  -- declared, human or neither, a player that is alone is also the first one
  cases side.isNamed <;> cases side.isLocal <;> cases side.isHuman <;>
    cases o.network || o.campaign <;> rfl

end Roster

namespace Game

variable {g : Game} {side : Side}

/-- A new game from one side has a second player if the side is named, who is the local one. -/
theorem newGame_singleton (only : g.sides = [side]) (files : Files) :
    let after := g.step files .newGame
    let players := if side.isNamed then 2 else 1
    after.1 = .responses [.gameStarted players side.playerName] ∧
      after.2.roster.count = players ∧ (after.2.roster.player 1).name = side.playerName := by
  intro after players
  have few : Roster.namedCount g.sides ≤ 15 := by
    rw [only, Roster.namedCount_singleton]
    split <;> decide
  obtain ⟨set, started⟩ := Roster.exists_newGame g.options g.roster g.teams few
  have count : set.roster.count = players := by
    rw [Roster.count_newGame started, only, Roster.namedCount_singleton]
    unfold players
    cases side.isNamed <;> rfl
  have named : (set.roster.player 1).name = side.playerName := by
    rw [Roster.name_newGame started, only, Roster.nameAt_singleton]
  have localName : set.roster.localPlayer.name = side.playerName := by
    have place := Roster.localSlot_newGame started
    rw [only, Roster.localPlace_singleton] at place
    by_cases player : side.isNamed = true
    · rw [if_pos player] at place
      have here : set.roster.localSlot = 1 := Fin.ext place
      rwa [Roster.localPlayer, here]
    · rw [if_neg player] at place
      have here : set.roster.localSlot = Slot.neutral := Fin.ext place
      have nameless : side.playerName = "" := by simpa [Side.isNamed] using player
      rw [Roster.localPlayer, here, Roster.name_newGame started, Roster.nameAt_neutral, nameless]
  have done : after = (.responses [.gameStarted set.roster.count set.roster.localPlayer.name],
      { g with objects := [], roster := set.roster, teams := set.teams, sides := set.sides }) := by
    simp only [after, step, newGame, started]
    rfl
  rw [done, ← count, ← localName]
  exact ⟨rfl, rfl, named.trans localName.symm⟩

/--
A side keeps the player name it was given, unless this reads as a flag or a number:
then the side has no name, and a new game has no player for it.
-/
theorem given_name_kept {name : String} (filled : name ≠ "") (clear : ';' ∉ name.toList)
    (trimmed : Text.IsTrimmed name) :
    ∃ side, Side.parse ("playerName=" ++ name) = .ok side ∧
      (¬ AttributeValue.IsLiteral name → side.playerName = name ∧
        ∀ (g : Game) (files : Files), g.sides = [side] →
          (g.step files .newGame).1 = .responses [.gameStarted 2 name] ∧
          (g.step files .newGame).2.roster.count = 2 ∧
          ((g.step files .newGame).2.roster.player 1).name = name) ∧
      (AttributeValue.IsLiteral name → side.playerName = "" ∧
        ∀ (g : Game) (files : Files), g.sides = [side] →
          (g.step files .newGame).1 = .responses [.gameStarted 1 ""] ∧
          (g.step files .newGame).2.roster.count = 1) := by
  obtain ⟨value, means, parsed⟩ := Side.parse_playerName filled clear trimmed
  refine ⟨_, parsed, fun plain => ?_, fun literal => ?_⟩
  · obtain rfl := means.of_not_isLiteral plain
    have named := Side.playerName_called name
    refine ⟨named, fun g files only => ?_⟩
    have begun := newGame_singleton only files
    rw [Side.isNamed, named, if_pos (by simpa using filled)] at begun
    exact begun
  · have nameless := Side.playerName_called_literal (means.of_isLiteral literal)
    refine ⟨nameless, fun g files only => ?_⟩
    have begun := newGame_singleton only files
    rw [Side.isNamed, nameless] at begun
    exact ⟨begun.1, begun.2.1⟩

/-- A name may end in a number, but it may not be one. -/
theorem given_name_kept_seven :
    let files : Files := { find := fun _ => .error .missing }
    (∃ side, Side.parse "playerName=Red 7" = .ok side ∧ side.playerName = "Red 7" ∧
      (step files { sides := [side] } .newGame).1 = .responses [.gameStarted 2 "Red 7"]) ∧
    ∃ side, Side.parse "playerName=-07" = .ok side ∧ side.playerName = "" ∧
      (step files { sides := [side] } .newGame).1 = .responses [.gameStarted 1 ""] := by
  intro files
  obtain ⟨red, told, plain, -⟩ :=
    given_name_kept (by decide : "Red 7" ≠ "") (by decide) (by decide)
  obtain ⟨seven, told', -, literal⟩ :=
    given_name_kept (by decide : "-07" ≠ "") (by decide) (by decide)
  obtain ⟨named, begun⟩ := plain (by decide)
  obtain ⟨nameless, begun'⟩ := literal (by decide)
  refine ⟨⟨red, told, named, ?_⟩, seven, told', nameless, ?_⟩
  · exact (begun _ files rfl).1
  · exact (begun' _ files rfl).1

/-- A number that is given for a name is lost. -/
theorem given_name_lost :
    ¬ ∀ name : String, name ≠ "" → ';' ∉ name.toList → Text.IsTrimmed name →
      ∃ side, Side.parse ("playerName=" ++ name) = .ok side ∧ side.playerName = name ∧
        ∀ (g : Game) (files : Files), g.sides = [side] →
          (g.step files .newGame).2.roster.count = 2 ∧
          ((g.step files .newGame).2.roster.player 1).name = name := by
  intro claim
  obtain ⟨side, told, named, -⟩ := claim "12" (by decide) (by decide) (by decide)
  have number : Side.parse ("playerName=" ++ "12") = .ok (.called (.number 12)) := by
    decide +kernel
  cases told.symm.trans number
  exact absurd named (by decide)

end Game

end BattleRoster
