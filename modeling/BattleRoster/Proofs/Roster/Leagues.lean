import BattleRoster.Proofs.Roster.Stances
import BattleRoster.Proofs.Team.Lifetimes

/-!
# Leagues

A league is a roster with the table of its teams.  Players keep the numbers of
teams, towards which they have a stance, which are their own, or which they
command.  Whatever is asked of a league, no player keeps the number of a team
that is not in the table, so no number comes to stand for another team.
-/

namespace BattleRoster

/-! ## The teams that players know -/

/-- A player has a stance towards a team, belongs to it, or commands it. -/
def Player.Knows (p : Player) (id : TeamId) : Prop :=
  p.stances.contains id = true ∨ p.defaultTeam = some id ∨
    ∃ commander, p.commander = some commander ∧ id ∈ commander.teams

/-- A player who knows teams of a list only. -/
def Player.KnowsOnly (ids : List TeamId) (p : Player) : Prop :=
  ∀ id, p.Knows id → id ∈ ids

namespace Player

variable {p : Player} {ids : List TeamId}

theorem knowsOnly_vacant : vacant.KnowsOnly ids := by
  intro id knows
  simp [Knows, vacant, OrderedMap.contains] at knows

theorem knowsOnly_ofSide (side : Side) : (ofSide side).KnowsOnly ids := by
  intro id knows
  cases human : side.isHuman <;> simp [Knows, ofSide, control, OrderedMap.contains, human] at knows

theorem KnowsOnly.control_human (known : p.KnowsOnly ids) : (p.control .human).KnowsOnly ids := by
  rintro id (stance | team | ⟨commander, none, -⟩)
  · exact known id (.inl stance)
  · exact known id (.inr (.inl team))
  · cases none

theorem KnowsOnly.setDefaultTeam (known : p.KnowsOnly ids) {team : Option TeamId}
    (listed : ∀ id, team = some id → id ∈ ids) : (p.setDefaultTeam team).KnowsOnly ids := by
  rintro id (stance | own | ⟨commander, commands, among⟩)
  · exact known id (.inl stance)
  · exact listed id own
  · have commanded {earlier : Commander} (before : p.commander = some earlier) :
        ∀ id ∈ earlier.teams, id ∈ ids :=
      fun id among => known id (.inr (.inr ⟨earlier, before, among⟩))
    unfold Player.setDefaultTeam at commands
    dsimp only at commands
    split at commands
    · next earlier own before =>
        cases commands
        split at among
        · exact commanded before id among
        · rcases List.mem_append.mp among with among | among
          · exact commanded before id among
          · exact listed id (congrArg some (List.mem_singleton.mp among).symm)
    · exact commanded commands id among

theorem KnowsOnly.setStance (known : p.KnowsOnly ids) {team : TeamId} (listed : team ∈ ids)
    (stance : Stance) : (p.setStance team stance).KnowsOnly ids := by
  rintro id (towards | rest)
  · rw [Player.setStance, OrderedMap.contains, OrderedMap.get?_insert] at towards
    split at towards
    · next same => rwa [same]
    · exact known id (.inl towards)
  · exact known id (.inr rest)

/-- A team that is forgotten is not known any more. -/
theorem knows_of_forget {forgotten id : TeamId} (knows : (p.forget forgotten).Knows id) :
    id ≠ forgotten ∧ p.Knows id := by
  rcases knows with stance | own | ⟨commander, commands, among⟩
  · rw [Player.forget, OrderedMap.contains, OrderedMap.get?_erase] at stance
    split at stance
    · cases stance
    · next other => exact ⟨other, .inl stance⟩
  · rw [Player.forget] at own
    dsimp only at own
    split at own
    · cases own
    · next other => exact ⟨fun same => other (same ▸ own), .inr (.inl own)⟩
  · obtain ⟨earlier, commanded, rfl⟩ := Option.map_eq_some_iff.mp commands
    obtain ⟨among, other⟩ := List.mem_filter.mp among
    exact ⟨of_decide_eq_true other, .inr (.inr ⟨earlier, commanded, among⟩)⟩

theorem KnowsOnly.forget (known : p.KnowsOnly ids) (id : TeamId) :
    (p.forget id).KnowsOnly (ids.erase id) := by
  intro other knows
  obtain ⟨apart, knew⟩ := knows_of_forget knows
  exact (List.mem_erase_of_ne apart).mpr (known other knew)

theorem KnowsOnly.mono {others : List TeamId} (known : p.KnowsOnly ids)
    (more : ∀ id ∈ ids, id ∈ others) : p.KnowsOnly others :=
  fun id knows => more id (known id knows)

end Player

/-- A roster whose players know teams of a list only. -/
def Roster.KnowsOnly (ids : List TeamId) (r : Roster) : Prop :=
  ∀ slot, (r.player slot).KnowsOnly ids

namespace Roster

variable {r : Roster} {ids : List TeamId}

theorem knowsOnly_initial : initial.KnowsOnly ids :=
  forall_player_initial (fun _ _ known => known) Player.knowsOnly_vacant

theorem KnowsOnly.setLocal (known : r.KnowsOnly ids) (slot : Option Slot) :
    (r.setLocal slot).KnowsOnly ids :=
  forall_player_setLocal (fun _ _ known => known) known slot

/-- A stance is taken towards a team that a player belongs to. -/
theorem KnowsOnly.setStance (known : r.KnowsOnly ids) (slot other : Slot) (stance : Stance) :
    (r.setStance slot other stance).KnowsOnly ids := by
  unfold Roster.setStance
  split
  · next team own =>
      have listed := known other team (.inr (.inl own))
      exact forall_player_modify known (fun _ known => known.setStance listed stance) slot
  · exact known

theorem KnowsOnly.forgetTeam (known : r.KnowsOnly ids) (id : TeamId) :
    (r.forgetTeam id).KnowsOnly (ids.erase id) := by
  intro slot
  rw [player_forgetTeam]
  exact (known slot).forget id

/-- The table of a new game is prepared from nothing. -/
theorem teams_newGame {o : Options} {sides : List Side} {teams : TeamTable}
    {set : NewGame TeamTable} (started : newGame o sides r teams = .ok set) :
    set.teams = TeamTable.createAll {}
      (TeamTable.wanted (released sides) (seatAll o sides initial)) := by
  rw [newGame_eq o (namedCount_le_of_newGame started)] at started
  cases started
  rfl

/-- The players of a new game know the teams of its table. -/
theorem knowsOnly_newGame {o : Options} {sides : List Side} {teams : TeamTable}
    {set : NewGame TeamTable} (started : newGame o sides r teams = .ok set) :
    set.roster.KnowsOnly set.teams.ids := by
  rw [newGame_eq o (namedCount_le_of_newGame started)] at started
  cases started
  have seated : ∀ slot, ((seatAll o sides initial).player slot).KnowsOnly [] :=
    forall_player_seatAll (fun _ _ known => known) Player.knowsOnly_vacant
      Player.knowsOnly_ofSide (fun _ known => known.control_human) o sides
  refine stances_induction (fun _ slot other stance known => known.setStance slot other stance)
    (fun slot => ?_) _
  rw [player_teamed]
  split
  · exact ((seated slot).mono (by simp)).setDefaultTeam fun id => TeamTable.mem_ids_of_find?
  · exact (seated slot).mono (by simp)

end Roster

/-! ## Requests to a league -/

/-- A roster with the table of its teams. -/
structure League where
  roster : Roster := Roster.initial
  teams : TeamTable := {}

namespace League

/-- What can be asked of a league. -/
inductive Request where
  | newGame (o : Options) (sides : List Side)
  | reset
  | create (name : String) (owner : Slot)
  | relate (slot other : Slot) (stance : Stance)
  | setLocal (slot : Option Slot)
  | delete (name : String)

/--
The league after a request.  The players forget a team before it is deleted, and
a new game that is refused changes nothing.
-/
def carryOut (l : League) : Request → League
  | .newGame o sides =>
      match l.roster.newGame o sides l.teams with
      | .ok set => { roster := set.roster, teams := set.teams }
      | .error _ => l
  | .reset =>
      let (roster, teams) := l.roster.reset l.teams
      { roster, teams }
  | .create name owner => { l with teams := (l.teams.create name owner).2 }
  | .relate slot other stance => { l with roster := l.roster.setStance slot other stance }
  | .setLocal slot => { l with roster := l.roster.setLocal slot }
  | .delete name =>
      let teams := (l.teams.delete name).2
      match l.teams.find? name with
      | some id => { roster := l.roster.forgetTeam id, teams }
      | none => { l with teams }

/-- Whether a request clears the table. -/
def clears (l : League) : Request → Bool
  | .newGame o sides => (l.roster.newGame o sides l.teams).isOk
  | .reset => true
  | _ => false

/-- The number that a request gives back. -/
def deleted (l : League) : Request → List TeamId
  | .delete name => (l.teams.find? name).toList
  | _ => []

end League

/--
A league, with how many teams have been created and which numbers have been given
back since its table was cleared.
-/
structure Chronicle where
  league : League := {}
  created : Nat := 0
  deleted : List TeamId := []

namespace Chronicle

/-- What a request adds to a chronicle. -/
def next (c : Chronicle) (request : League.Request) : Chronicle :=
  let league := c.league.carryOut request
  if c.league.clears request then
    { league, created := TeamTable.added {} league.teams }
  else
    { league
      created := c.created + c.league.teams.added league.teams
      deleted := c.deleted ++ c.league.deleted request }

/-- The chronicles of a league that never runs out of numbers. -/
inductive Reachable : Chronicle → Prop where
  | start : Reachable {}
  | next {c : Chronicle} (request : League.Request) (earlier : Reachable c)
      (few : (c.next request).created < UInt32.size) : Reachable (c.next request)

/-- Requests lead to a chronicle if numbers are left after each of them. -/
theorem Reachable.run {c : Chronicle} (reachable : c.Reachable) {requests : List League.Request}
    (few : ∀ later ∈ requests.scanl Chronicle.next c, later.created < UInt32.size) :
    (requests.foldl Chronicle.next c).Reachable := by
  induction requests generalizing c with
  | nil => exact reachable
  | cons request requests ih =>
      rw [List.scanl_cons, List.forall_mem_cons] at few
      refine ih (.next request reachable (few.2 _ ?_)) few.2
      cases requests <;> simp

/-- A table whose numbers tell the teams apart, and players who know its teams only. -/
structure Sound (c : Chronicle) : Prop where
  table : c.league.teams.Kept c.created c.deleted
  known : c.league.roster.KnowsOnly c.league.teams.ids

/-- A request that neither creates nor deletes a team leaves the count alone. -/
theorem next_eq {c : Chronicle} {request : League.Request}
    (keeps : c.league.clears request = false) (none : c.league.deleted request = [])
    (same : (c.league.carryOut request).teams = c.league.teams) :
    c.next request = { c with league := c.league.carryOut request } := by
  simp [next, keeps, none, same, TeamTable.added]

/-- A table that is prepared from nothing starts a chronicle. -/
theorem sound_cleared {roster : Roster} {teams : TeamTable} {wanted : List (String × Slot)}
    (table : teams = TeamTable.createAll {} wanted)
    (few : TeamTable.added {} teams < UInt32.size) (known : roster.KnowsOnly teams.ids) :
    Sound { league := { roster, teams }, created := TeamTable.added {} teams } := by
  refine ⟨?_, known⟩
  rw [table, ← Nat.zero_add (TeamTable.added _ _)] at few ⊢
  exact TeamTable.kept_empty.createAll few

theorem Sound.next {c : Chronicle} (sound : c.Sound) (request : League.Request)
    (few : (c.next request).created < UInt32.size) : (c.next request).Sound := by
  obtain ⟨table, known⟩ := sound
  cases request with
  | newGame o sides =>
      cases started : c.league.roster.newGame o sides c.league.teams with
      | ok set =>
          have after : c.next (.newGame o sides) =
              { league := { roster := set.roster, teams := set.teams },
                created := TeamTable.added {} set.teams } := by
            simp [Chronicle.next, League.clears, League.carryOut, started, Except.isOk,
              Except.toBool]
          rw [after] at few ⊢
          exact sound_cleared (Roster.teams_newGame started) few (Roster.knowsOnly_newGame started)
      | error e =>
          rw [next_eq (by simp [League.clears, started, Except.isOk, Except.toBool]) rfl
            (by simp [League.carryOut, started])]
          simp only [League.carryOut, started]
          exact ⟨table, known⟩
  | reset =>
      change Sound { league := { roster := c.league.roster.vacate, teams := {} } }
      rw [Roster.vacate_eq_initial]
      exact ⟨TeamTable.kept_empty, Roster.knowsOnly_initial⟩
  | create name owner =>
      have after : c.next (.create name owner) =
          { league := { c.league with teams := (c.league.teams.create name owner).2 }
            created := c.created + c.league.teams.added (c.league.teams.create name owner).2
            deleted := c.deleted } := by
        simp [Chronicle.next, League.clears, League.carryOut, League.deleted]
      rw [after] at few ⊢
      refine ⟨table.create few, fun slot => (known slot).mono fun id there => ?_⟩
      exact TeamTable.mem_ids_create there name owner
  | relate slot other stance =>
      rw [next_eq rfl rfl rfl]
      exact ⟨table, known.setStance slot other stance⟩
  | setLocal slot =>
      rw [next_eq rfl rfl rfl]
      exact ⟨table, known.setLocal slot⟩
  | delete name =>
      cases found : c.league.teams.find? name with
      | none =>
          have after : c.next (.delete name) = c := by
            simp [Chronicle.next, League.clears, League.carryOut, League.deleted, found,
              TeamTable.delete_of_new found, TeamTable.added]
          rw [after]
          exact ⟨table, known⟩
      | some id =>
          have after : c.next (.delete name) =
              { league := {
                  roster := c.league.roster.forgetTeam id
                  teams := (c.league.teams.delete name).2 }
                created := c.created
                deleted := c.deleted ++ [id] } := by
            simp [Chronicle.next, League.clears, League.carryOut, League.deleted, found,
              TeamTable.added_delete]
          rw [after]
          refine ⟨table.delete found, ?_⟩
          rw [Roster.KnowsOnly, TeamTable.ids_delete table.ids found]
          exact known.forgetTeam id

/--
Whatever is asked of a league, numbers and names tell its teams apart, the numbers
count up, one that has been given back is not used again, and no player keeps the
number of a team that is gone.
-/
theorem no_dangling_teams {c : Chronicle} (reachable : c.Reachable) :
    c.league.teams.ids.Nodup ∧
    (∀ id ∈ c.league.teams.ids, id.number < c.league.teams.next) ∧
    c.league.teams.names.Nodup ∧
    (∀ id ∈ c.deleted, id ∉ c.league.teams.ids) ∧
    ∀ slot id, (c.league.roster.player slot).Knows id → id ∈ c.league.teams.ids := by
  have sound : c.Sound := by
    induction reachable with
    | start => exact ⟨TeamTable.kept_empty, Roster.knowsOnly_initial⟩
    | next request earlier few ih => exact ih.next request few
  exact ⟨sound.table.ids, sound.table.numbered, sound.table.names,
    fun id mem => (sound.table.gone id mem).2, sound.known⟩

/-- Blue's own team is deleted and created again, and scouts come and go. -/
def season : List League.Request :=
  [.newGame {} [
      { attributes := .ofList [("playerName", .text "Red"), ("playerEnemies", .text "Blue")] },
      { attributes := .ofList [("playerName", .text "Blue")] }],
    .create "scouts" Slot.neutral, .delete "teamBlue", .create "teamBlue" Slot.neutral,
    .delete "scouts", .relate Slot.neutral Slot.neutral .allies]

/-- Red forgets the team that was Blue's, and the new one has a number of its own. -/
theorem no_dangling_teams_season :
    let c := season.foldl Chronicle.next {}
    c.Reachable ∧ c.league.teams.names = ["team", "teamRed", "teamBlue"] ∧
      c.league.teams.ids = [⟨0⟩, ⟨1⟩, ⟨4⟩] ∧ c.deleted = [⟨2⟩, ⟨3⟩] ∧
      (c.league.roster.player 1).stances.keys = [⟨0⟩, ⟨1⟩] ∧
      ∀ slot id, (c.league.roster.player slot).Knows id → id ∈ c.league.teams.ids := by
  intro c
  have reachable : c.Reachable := .run .start (by decide +kernel)
  obtain ⟨-, -, -, -, known⟩ := no_dangling_teams reachable
  exact ⟨reachable, by decide +kernel, by decide +kernel, by decide +kernel, by decide +kernel,
    known⟩

end Chronicle

end BattleRoster
