import BattleRoster.Proofs.Collection.FirstOccurrences
import BattleRoster.Proofs.Roster.Leagues
import BattleRoster.Proofs.Roster.ManagedTeams
import BattleRoster.Proofs.Roster.Names
import Mathlib.Data.List.Induction

/-!
# The teams of a new game

The table of a new game has a team for each active player and those that the sides
list, numbered in this order; of several that are called the same only the first is
created.  So a team belongs to whoever asks for it first, and a player's own team
belongs to the first player of its name, whichever side lists it.
-/

namespace BattleRoster

namespace TeamTable

/-! ## Creating teams from nothing -/

theorem names_create (t : TeamTable) (name : String) (owner : Slot) :
    (t.create name owner).2.names = if name ∈ t.names then t.names else t.names ++ [name] := by
  cases found : t.find? name with
  | some id =>
      have known : name ∈ t.names := by
        refine Decidable.of_not_not fun absent => ?_
        rw [find?_eq_none.mpr absent] at found
        cases found
      rw [create_of_known found, if_pos known]
  | none =>
      rw [create_of_new found, if_neg (find?_eq_none.mp found), names, List.map_append]
      rfl

theorem createAll_concat (t : TeamTable) (wanted : List (String × Slot)) (team : String × Slot) :
    t.createAll (wanted ++ [team]) = ((t.createAll wanted).create team.1 team.2).2 :=
  createAll_append t wanted [team]

/-- Of teams that are called the same the first one is created. -/
theorem names_createAll (wanted : List (String × Slot)) :
    (createAll {} wanted).names = (wanted.map Prod.fst).eraseDups := by
  induction wanted using List.reverseRecOn with
  | nil => rfl
  | append_singleton wanted team ih =>
      rw [createAll_concat, names_create, ih, List.map_append, List.map_singleton, eraseDups_concat]
      simp only [List.mem_eraseDups]

/-- A team belongs to whoever is the first to want one of its name. -/
theorem owner_createAll (wanted : List (String × Slot)) :
    ∀ team ∈ (createAll {} wanted).teams, wanted.lookup team.name = some team.owner := by
  induction wanted using List.reverseRecOn with
  | nil => exact List.forall_mem_nil _
  | append_singleton wanted last ih =>
      have before : ∀ team ∈ (createAll {} wanted).teams,
          (wanted ++ [last]).lookup team.name = some team.owner := fun team mem => by
        rw [List.lookup_append, ih team mem, Option.some_or]
      rw [createAll_concat]
      cases found : (createAll {} wanted).find? last.1 with
      | some id =>
          rw [create_of_known found]
          exact before
      | none =>
          have absent : wanted.lookup last.1 = none := by
            have unnamed := find?_eq_none.mp found
            rw [names_createAll, List.mem_eraseDups, List.mem_map] at unnamed
            rw [List.lookup_eq_none_iff]
            intro team mem
            exact bne_iff_ne.mpr fun same => unnamed ⟨team, mem, same.symm⟩
          rw [create_of_new found, List.forall_mem_append]
          refine ⟨before, List.forall_mem_singleton.mpr ?_⟩
          rw [List.lookup_append, absent, Option.none_or]
          exact List.lookup_cons_self

theorem ids_createAll (wanted : List (String × Slot)) :
    (createAll {} wanted).ids =
      (List.range (createAll {} wanted).teams.length).map fun n => ⟨UInt32.ofNat n⟩ := by
  have numbered := numbered_empty.createAll wanted
  refine List.ext_getElem ?_ fun n lt lt' => ?_
  · simp [ids]
  · simp [ids, numbered.ids]

/-! ## The teams that are wanted -/

theorem lookup_defaults (r : Roster) (name : String) :
    (defaults r).lookup name =
      r.active.find? fun slot => defaultTeamName (r.player slot).name == name := by
  unfold defaults
  induction r.active with
  | nil => rfl
  | cons slot slots ih =>
      rw [List.map_cons, List.lookup_cons, List.find?_cons, ih, BEq.comm]

theorem lookup_listed (teams : List String) (owner : Slot) (name : String) :
    (teams.map fun team => (team, owner)).lookup name =
      if teams.contains name then some owner else none := by
  induction teams with
  | nil => rfl
  | cons team teams ih =>
      rw [List.map_cons, List.lookup_cons, ih, List.contains_cons]
      cases name == team <;> rfl

end TeamTable

namespace Roster

/--
Who is to own a team: the first player with a default team of this name, or else the
player of the first side that lists the team.
-/
def founder? (r : Roster) (sides : List Side) (team : String) : Option Slot :=
  (r.active.find? fun slot => defaultTeamName (r.player slot).name == team).or
    ((sides.find? (·.teams.contains team)).bind fun side => r.find? side.playerName)

/-- Every side has an active player that bears the name of its player. -/
def Represents (r : Roster) (sides : List Side) : Prop :=
  ∀ side ∈ sides, ∃ slot, r.find? side.playerName = some slot

end Roster

namespace TeamTable

variable {r : Roster} {sides : List Side}

theorem names_wanted (represented : r.Represents sides) :
    (wanted sides r).map Prod.fst =
      (r.active.map fun slot => defaultTeamName (r.player slot).name) ++
        sides.flatMap (·.teams) := by
  unfold wanted defaults
  rw [List.map_append, List.map_map, List.map_flatMap]
  refine congrArg₂ (· ++ ·) rfl (List.flatMap_congr fun side mem => ?_)
  obtain ⟨slot, found⟩ := represented side mem
  rw [found, List.map_map]
  exact List.map_id _

theorem lookup_wanted (represented : r.Represents sides) (name : String) :
    (wanted sides r).lookup name = r.founder? sides name := by
  unfold wanted Roster.founder?
  rw [List.lookup_append, lookup_defaults]
  refine congrArg (Option.or _) ?_
  induction sides with
  | nil => rfl
  | cons side sides ih =>
      obtain ⟨slot, found⟩ := represented side List.mem_cons_self
      have rest := ih fun other mem => represented other (List.mem_cons_of_mem _ mem)
      rw [List.flatMap_cons, List.lookup_append, rest, found, lookup_listed, List.find?_cons]
      cases side.teams.contains name with
      | true => exact found.symm
      | false => rfl

/-- Handing over buildings makes no difference to the teams that are wanted. -/
theorem wanted_released : wanted (Roster.released sides) r = wanted sides r := by
  unfold wanted Roster.released
  rw [List.flatMap_map]
  refine congrArg (defaults r ++ ·) (List.flatMap_congr fun side _ => ?_)
  by_cases named : side.isNamed = true
  · rw [if_pos named]
    rfl
  · rw [if_neg named]

theorem wanted_congr {r' : Roster} (count : r'.count = r.count)
    (names : ∀ slot, (r'.player slot).name = (r.player slot).name) :
    wanted sides r' = wanted sides r := by
  unfold wanted defaults
  simp only [Roster.active, Roster.find?_congr count names, count, names]

end TeamTable

/-! ## The whole -/

namespace Roster

section NewGame

variable {o : Options} {sides : List Side} {r : Roster} {teams : TeamTable}
  {set : NewGame TeamTable}

theorem represents_newGame (started : newGame o sides r teams = .ok set) :
    set.roster.Represents sides := by
  intro side mem
  suffices ∃ slot : Slot, slot.val < set.roster.count ∧
      (set.roster.player slot).name = side.playerName by
    obtain ⟨slot, active, named⟩ := this
    refine Option.isSome_iff_exists.mp (List.find?_isSome.mpr ⟨slot, mem_active.mpr active, ?_⟩)
    exact beq_iff_eq.mpr named
  simp only [count_newGame started, name_newGame started]
  exact exists_nameAt mem (namedCount_le_of_newGame started)

theorem teams_newGame_wanted (started : newGame o sides r teams = .ok set) :
    set.teams = TeamTable.createAll {} (TeamTable.wanted sides set.roster) := by
  have few := namedCount_le_of_newGame started
  have same : TeamTable.wanted sides set.roster =
      TeamTable.wanted sides (seatAll o sides initial) := by
    refine TeamTable.wanted_congr ?_ fun slot => ?_
    · rw [count_newGame started, count_seatAll o few]
    · rw [name_newGame started, name_seatAll o few]
  rw [teams_newGame started, TeamTable.wanted_released, same]

/-- Stances leave the names and the teams of the players alone. -/
theorem sameSeats_newGame (started : newGame o sides r teams = .ok set) :
    SameSeats (teamed o sides) set.roster := by
  rw [newGame_eq o (namedCount_le_of_newGame started)] at started
  cases started
  exact stances_induction (Q := SameSeats (teamed o sides))
    (fun _ slot other stance same => same.setStance slot other stance) (.refl _) _

/-- A player of a new game belongs to the team of its name. -/
theorem defaultTeam_newGame (started : newGame o sides r teams = .ok set) {slot : Slot}
    (active : slot.val < set.roster.count) :
    (set.roster.player slot).defaultTeam =
      set.teams.find? (defaultTeamName (set.roster.player slot).name) := by
  have few := namedCount_le_of_newGame started
  rw [count_newGame started, ← count_seatAll o few] at active
  rw [(sameSeats_newGame started).teams, player_teamed, if_pos active, teams_newGame started,
    name_newGame started, ← name_seatAll o few]
  rfl

/--
The table of a new game has the teams of the active players and then those that the
sides list, each name once, under the numbers from zero.  A team is owned by its
founder, a player belongs to the team of its name, which it shares with its namesakes
only, and the computer manages for each of its players that team alone.
-/
theorem newGame_enrols (started : newGame o sides r teams = .ok set) :
    set.teams.names =
      ((set.roster.active.map fun slot => defaultTeamName (set.roster.player slot).name) ++
        sides.flatMap (·.teams)).eraseDups ∧
    set.teams.ids =
      (List.range set.teams.teams.length).map (fun n => ⟨UInt32.ofNat n⟩) ∧
    (∀ team ∈ set.teams.teams, set.roster.founder? sides team.name = some team.owner) ∧
    set.roster.find? "" = some Slot.neutral ∧
    (∀ slot : Slot, slot.val < set.roster.count → ∃ team ∈ set.teams.teams,
      team.name = defaultTeamName (set.roster.player slot).name ∧
      (set.roster.player slot).defaultTeam = some team.id ∧
      ((set.roster.player slot).controller = .computer →
        (set.roster.player slot).commander = some { teams := [team.id] })) ∧
    ∀ i j : Slot, i.val < set.roster.count → j.val < set.roster.count →
      ((set.roster.player i).defaultTeam = (set.roster.player j).defaultTeam ↔
        (set.roster.player i).name = (set.roster.player j).name) := by
  have represented := represents_newGame started
  have table := teams_newGame_wanted started
  have ready := (teamed_spec o (namedCount_le_of_newGame started)).1
  have same := sameSeats_newGame started
  refine ⟨?_, ?_, fun team mem => ?_, ?_, fun slot active => ?_, fun i j activeI activeJ => ?_⟩
  · rw [table, TeamTable.names_createAll, TeamTable.names_wanted represented]
  · rw [table]
    exact TeamTable.ids_createAll _
  · rw [← TeamTable.lookup_wanted represented]
    rw [table] at mem
    exact TeamTable.owner_createAll _ team mem
  · have nameless : set.roster.neutral.name = "" := name_newGame started Slot.neutral
    rw [← nameless]
    exact find?_neutral (by rw [count_newGame started]; exact Nat.succ_pos _)
  · have own := defaultTeam_newGame started active
    rw [same.count] at active
    obtain ⟨id, has⟩ := ready.team slot active
    rw [← same.teams] at has
    rw [has] at own
    obtain ⟨team, found, rfl⟩ := Option.map_eq_some_iff.mp own.symm
    refine ⟨team, List.mem_of_find?_eq_some found, beq_iff_eq.mp (List.find?_some found :), has,
      fun computer => ?_⟩
    rw [managesOwn_newGame started slot computer, has]
    rfl
  · rw [same.count] at activeI activeJ
    rw [same.teams, same.teams, same.names, same.names]
    exact ready.shared i j activeI activeJ

end NewGame

/-- Both Reds belong to one team, whoever lists it, and the first who lists the scouts has them. -/
theorem newGame_enrols_scouts :
    let sides : List Side := [
      { attributes := .ofList [("playerName", .text "Red")], teams := ["scouts"] },
      { teams := ["militia", "scouts"] },
      { attributes := .ofList [("playerName", .text "Red"), ("playerIsHuman", .flag true)] },
      { attributes := .ofList [("playerName", .text "Blue")], teams := ["teamRed", "scouts"] }]
    ∃ set, newGame {} sides initial ({} : TeamTable) = .ok set ∧
      set.teams.names = ["team", "teamRed", "teamBlue", "scouts", "militia"] ∧
      set.roster.founder? sides "teamRed" = some 1 ∧
      set.roster.founder? sides "scouts" = some 1 ∧
      set.roster.founder? sides "militia" = some 0 ∧
      (set.roster.player 1).defaultTeam = (set.roster.player 2).defaultTeam ∧
      (set.roster.player 1).commander = some { teams := [⟨1⟩] } := by
  intro sides
  obtain ⟨set, started, table, computer⟩ : ∃ set,
      newGame {} sides initial ({} : TeamTable) = .ok set ∧
        set.teams.teams =
          [⟨⟨0⟩, "team", 0⟩, ⟨⟨1⟩, "teamRed", 1⟩, ⟨⟨2⟩, "teamBlue", 3⟩,
          ⟨⟨3⟩, "scouts", 1⟩, ⟨⟨4⟩, "militia", 0⟩] ∧
        (set.roster.player 1).controller = .computer :=
    ⟨_, rfl, by decide +kernel, by decide +kernel⟩
  obtain ⟨-, -, owners, -, own, shared⟩ := newGame_enrols started
  have four : set.roster.count = 4 := (count_newGame started).trans (by decide)
  have red : (set.roster.player 1).name = "Red" := (name_newGame started 1).trans (by decide)
  have redToo : (set.roster.player 2).name = "Red" := (name_newGame started 2).trans (by decide)
  rw [table] at owners
  simp only [List.forall_mem_cons] at owners
  obtain ⟨-, founder, -, scouts, militia, -⟩ := owners
  rw [four] at own shared
  refine ⟨set, started, ?_, founder, scouts, militia, ?_, ?_⟩
  · rw [TeamTable.names, table]
    rfl
  · exact (shared 1 2 (by decide) (by decide)).mpr (red.trans redToo.symm)
  · obtain ⟨team, mem, named, -, manages⟩ := own 1 (by decide)
    rw [red] at named
    have here : ∀ team ∈ set.teams.teams, team.name = defaultTeamName "Red" →
        team.id = ⟨1⟩ := by
      rw [table]
      decide
    rw [manages computer, here team mem named]

end Roster

end BattleRoster
