import BattleRoster.Proofs.Roster.Seating
import BattleRoster.Proofs.Team.Numbering
import Mathlib.Data.List.FinRange

/-!
# The stances of a new game

Stances are written towards teams, one declaration after the other, and the last
writing towards a team counts.  Since two players share a team only if they
share their name, what the sides declare about names decides how each active
player regards each other one.
-/

namespace BattleRoster

/-! ## The last writing counts -/

section LastWrite

variable {σ α β : Type}

/-- What a view shows after many steps is what the last step that wrote to it wrote. -/
theorem foldl_last_write (Inv : σ → Prop) (view : σ → β) {step : σ → α → σ}
    {write : α → Option β} (keeps : ∀ s a, Inv s → Inv (step s a))
    (writes : ∀ s a, Inv s → view (step s a) = (write a).getD (view s))
    (xs : List α) {s : σ} (inv : Inv s) :
    Inv (xs.foldl step s) ∧
      view (xs.foldl step s) = ((xs.filterMap write).getLast?).getD (view s) := by
  induction xs generalizing s with
  | nil => exact ⟨inv, rfl⟩
  | cons a xs ih =>
      obtain ⟨kept, shown⟩ := ih (keeps s a inv)
      refine ⟨kept, ?_⟩
      rw [List.foldl_cons, shown, writes s a inv]
      cases written : write a with
      | none => rw [List.filterMap_cons_none written, Option.getD_none]
      | some b => rw [List.filterMap_cons_some written, List.getLast?_cons, Option.getD_some,
          Option.getD_some]

/-- Of writings that are all alike, the last is there as soon as one is. -/
theorem getLast?_filterMap_same {γ : Type} [DecidableEq γ] (key : α → γ) (k : γ)
    (value : Option β) (xs : List α) :
    (xs.filterMap fun a => if key a = k then value else none).getLast? =
      if k ∈ xs.map key then value else none := by
  induction xs with
  | nil => rfl
  | cons a xs ih =>
      by_cases here : key a = k
      · cases value with
        | none => simp [here] at ih ⊢
        | some b =>
            have head : (if key a = k then some b else none) = some b := if_pos here
            have mem : k ∈ (a :: xs).map key := by simp [here]
            rw [List.filterMap_cons, head, List.getLast?_cons, ih, if_pos mem]
            split <;> rfl
      · have head : (if key a = k then value else none) = none := if_neg here
        rw [List.filterMap_cons, head, ih, List.map_cons]
        simp only [List.mem_cons, Ne.symm here, false_or]

end LastWrite

namespace Roster

/-! ## Default teams -/

/-- Every active player has a default team, shared by the players of its name only. -/
structure Teamed (r : Roster) : Prop where
  team : ∀ slot : Slot, slot.val < r.count → ∃ id, (r.player slot).defaultTeam = some id
  shared : ∀ i j : Slot, i.val < r.count → j.val < r.count →
    ((r.player i).defaultTeam = (r.player j).defaultTeam ↔
      (r.player i).name = (r.player j).name)

/-- A table answers for the players one by one and does not change. -/
theorem foldl_assignTeam (teams : TeamTable) (slots : List Slot) (distinct : slots.Nodup)
    (r : Roster) :
    ∃ r', slots.foldl assignTeam (r, teams) = (r', teams) ∧ r'.count = r.count ∧
      ∀ slot, r'.player slot =
        if slot ∈ slots then
          (r.player slot).setDefaultTeam
            (teams.find? (defaultTeamName (r.player slot).name))
        else r.player slot := by
  induction slots generalizing r with
  | nil => exact ⟨r, rfl, rfl, fun slot => by simp⟩
  | cons first slots ih =>
      obtain ⟨absent, distinct⟩ := List.nodup_cons.mp distinct
      obtain ⟨r', folded, count, players⟩ := ih distinct (r.modify first
        (·.setDefaultTeam (teams.find? (defaultTeamName (r.player first).name))))
      refine ⟨r', folded, count, fun slot => ?_⟩
      rw [players, player_modify]
      by_cases here : first = slot
      · subst here
        simp [absent]
      · simp [here, Ne.symm here]

theorem nodup_active (r : Roster) : r.active.Nodup :=
  (Slot.pairwise_filter _).nodup

/-- Active players get the team of their name, and nobody else changes. -/
theorem assignTeams_spec (r : Roster) (teams : TeamTable) :
    ∃ r', assignTeams r teams = (r', teams) ∧ r'.count = r.count ∧
      ∀ slot, r'.player slot =
        if slot.val < r.count then
          (r.player slot).setDefaultTeam
            (teams.find? (defaultTeamName (r.player slot).name))
        else r.player slot := by
  obtain ⟨r', folded, count, players⟩ := foldl_assignTeam teams r.active r.nodup_active r
  refine ⟨r', folded, count, fun slot => ?_⟩
  rw [players]
  simp only [mem_active]

/-- With a table that was prepared for them, all active players have their teams. -/
theorem assignTeams_teamed (sides : List Side) (r : Roster) :
    (assignTeams r (TeamTable.prepare {} sides r)).1.Teamed := by
  obtain ⟨r', assigned, count, players⟩ := assignTeams_spec r (TeamTable.prepare {} sides r)
  rw [assigned]
  refine ⟨fun slot active => ?_, fun i j activeI activeJ => ?_⟩
  · rw [count] at active
    rw [players, if_pos active]
    exact TeamTable.find?_prepare_default sides r active
  · rw [count] at activeI activeJ
    rw [players, players, if_pos activeI, if_pos activeJ]
    exact TeamTable.find?_prepare_default_inj sides r activeI activeJ

/-! ## Writing one stance -/

/-- Rosters that differ in stances at most. -/
structure SameSeats (r r' : Roster) : Prop where
  count : r'.count = r.count
  names : ∀ slot, (r'.player slot).name = (r.player slot).name
  teams : ∀ slot, (r'.player slot).defaultTeam = (r.player slot).defaultTeam

theorem SameSeats.refl (r : Roster) : SameSeats r r :=
  ⟨rfl, fun _ => rfl, fun _ => rfl⟩

theorem SameSeats.modify {r r' : Roster} (same : SameSeats r r') (slot : Slot)
    {change : Player → Player} (name : ∀ p, (change p).name = p.name)
    (team : ∀ p, (change p).defaultTeam = p.defaultTeam) :
    SameSeats r (r'.modify slot change) := by
  refine ⟨same.count, fun k => ?_, fun k => ?_⟩
  · rw [← same.names k, player_modify]
    split
    · next here => rw [← here, name]
    · rfl
  · rw [← same.teams k, player_modify]
    split
    · next here => rw [← here, team]
    · rfl

theorem SameSeats.setStance {r r' : Roster} (same : SameSeats r r') (slot other : Slot)
    (stance : Stance) : SameSeats r (r'.setStance slot other stance) := by
  unfold Roster.setStance
  cases (r'.player other).defaultTeam with
  | none => exact same
  | some team => exact same.modify slot (fun _ => rfl) fun _ => rfl

theorem SameSeats.find? {r r' : Roster} (same : SameSeats r r') (name : String) :
    r'.find? name = r.find? name :=
  find?_congr same.count same.names name

/-- A stance concerns the players with the team of the one it is set towards. -/
theorem stance_setStance (r : Roster) (slot other i j : Slot) (stance : Stance) :
    (r.setStance slot other stance).stance i j =
      if slot = i ∧ ∃ id, (r.player other).defaultTeam = some id ∧
          (r.player j).defaultTeam = some id then stance
      else r.stance i j := by
  unfold Roster.setStance
  cases towards : (r.player other).defaultTeam with
  | none => simp
  | some team =>
      have seats := ((SameSeats.refl r).setStance slot other stance).teams j
      unfold Roster.setStance at seats
      rw [towards] at seats
      unfold Roster.stance
      rw [seats, player_modify]
      by_cases here : slot = i
      · subst here
        cases (r.player j).defaultTeam with
        | none => simp [Player.stance]
        | some id =>
            by_cases hit : id = team
            · subst hit
              simp [Player.stance, Player.setStance, OrderedMap.get?_insert]
            · simp [Player.stance, Player.setStance, OrderedMap.get?_insert, hit]
      · simp [here]

section Frame

variable {r₀ r : Roster} {i j : Slot}

/-- Between active players a stance concerns those of the name it is set towards. -/
theorem Teamed.stance_setStance (teamed : r₀.Teamed) (same : SameSeats r₀ r) {other : Slot}
    (activeOther : other.val < r₀.count) (activeJ : j.val < r₀.count) (slot : Slot)
    (stance : Stance) :
    (r.setStance slot other stance).stance i j =
      if slot = i ∧ (r₀.player other).name = (r₀.player j).name then stance
      else r.stance i j := by
  rw [Roster.stance_setStance, same.teams, same.teams]
  obtain ⟨id, has⟩ := teamed.team other activeOther
  have met : (∃ id, (r₀.player other).defaultTeam = some id ∧
      (r₀.player j).defaultTeam = some id) ↔
      (r₀.player other).name = (r₀.player j).name := by
    rw [← teamed.shared other j activeOther activeJ, has]
    constructor
    · rintro ⟨_, rest, shared⟩
      rw [rest, shared]
    · intro shared
      exact ⟨id, rfl, shared.symm⟩
  simp only [met]

/-! ## Declarations -/

theorem SameSeats.declare (same : SameSeats r₀ r) (slot : Slot)
    (declaration : String × Stance) : SameSeats r₀ (declare slot r declaration) := by
  unfold Roster.declare
  cases r.find? declaration.1 with
  | none => exact same
  | some other => exact same.setStance slot other declaration.2

/-- A declaration concerns the players of its name. -/
theorem Teamed.stance_declare (teamed : r₀.Teamed) (same : SameSeats r₀ r)
    (activeJ : j.val < r₀.count) (slot : Slot) (declaration : String × Stance) :
    (declare slot r declaration).stance i j =
      (if slot = i ∧ declaration.1 = (r₀.player j).name then some declaration.2
        else none).getD (r.stance i j) := by
  unfold Roster.declare
  rw [same.find?]
  cases found : r₀.find? declaration.1 with
  | none =>
      have unknown : declaration.1 ≠ (r₀.player j).name := fun named => by
        have missed := List.find?_eq_none.mp found j (mem_active.mpr activeJ)
        simp [named] at missed
      simp [unknown]
  | some other =>
      have activeOther := mem_active.mp (List.mem_of_find?_eq_some found)
      have named : (r₀.player other).name = declaration.1 := by
        simpa using List.find?_some found
      rw [teamed.stance_setStance same activeOther activeJ, named]
      split <;> rfl

end Frame

end Roster

/-- What a side declares about a name; an alliance counts before a hostility. -/
def Side.regards? (side : Side) (name : String) : Option Stance :=
  if name ∈ Text.words (side.attributes.text "playerAllies") then some .allies
  else if name ∈ Text.words (side.attributes.text "playerEnemies") then some .enemies
  else none

namespace Roster

/-- Alliances are entered after hostilities, so they are the last to be written. -/
theorem getLast?_declarations (side : Side) (name : String) :
    ((declarations side).filterMap fun d => if d.1 = name then some d.2 else none).getLast? =
      side.regards? name := by
  have listed (words : List String) (stance : Stance) :
      ((words.map (·, stance)).filterMap fun d =>
        if d.1 = name then some d.2 else none).getLast? =
        if name ∈ words then some stance else none := by
    rw [List.filterMap_map]
    have alike := getLast?_filterMap_same id name (some stance) words
    rw [List.map_id] at alike
    exact alike
  unfold declarations Side.regards?
  rw [List.filterMap_append, List.getLast?_append, listed, listed]
  split
  · rfl
  · rw [Option.none_or]

section Frame

variable {r₀ r : Roster} {i j : Slot}

/-- After the declarations of a side its slot regards a name as the side does. -/
theorem Teamed.stance_declarations (teamed : r₀.Teamed) (same : SameSeats r₀ r)
    (activeJ : j.val < r₀.count) (side : Side) (slot : Slot) :
    SameSeats r₀ ((declarations side).foldl (declare slot) r) ∧
      ((declarations side).foldl (declare slot) r).stance i j =
        (if slot = i then side.regards? (r₀.player j).name else none).getD (r.stance i j) := by
  obtain ⟨kept, shown⟩ := foldl_last_write (SameSeats r₀) (stance · i j)
    (fun _ d same => same.declare slot d)
    (fun _ d same => teamed.stance_declare same activeJ slot d) (declarations side) same
  refine ⟨kept, shown.trans ?_⟩
  by_cases here : slot = i
  · simp only [here, true_and, if_true]
    rw [getLast?_declarations]
  · simp [here]

/-- After all declarations the last side that speaks for a slot and mentions a name counts. -/
theorem Teamed.stance_declareAll (teamed : r₀.Teamed) (same : SameSeats r₀ r)
    (activeJ : j.val < r₀.count) (sides : List (Side × Slot)) :
    SameSeats r₀ (declareAll r sides) ∧
      (declareAll r sides).stance i j =
        ((sides.filterMap fun p =>
          if p.2 = i then p.1.regards? (r₀.player j).name else none).getLast?).getD
          (r.stance i j) := by
  have keeps (r : Roster) (p : Side × Slot) (same : SameSeats r₀ r) :
      SameSeats r₀ ((declarations p.1).foldl (declare p.2) r) :=
    (teamed.stance_declarations (i := i) same activeJ p.1 p.2).1
  have writes (r : Roster) (p : Side × Slot) (same : SameSeats r₀ r) :
      ((declarations p.1).foldl (declare p.2) r).stance i j =
        (if p.2 = i then p.1.regards? (r₀.player j).name else none).getD (r.stance i j) :=
    (teamed.stance_declarations same activeJ p.1 p.2).2
  exact foldl_last_write (SameSeats r₀) (stance · i j) keeps writes sides same

/-! ## Settling -/

theorem SameSeats.settle (same : SameSeats r₀ r) (slot : Slot) :
    SameSeats r₀ (settle r slot) := by
  unfold Roster.settle
  dsimp only
  split
  · exact same.setStance slot slot .allies
  · exact (same.setStance slot slot .allies).setStance slot Slot.neutral .neutral

/-- A player is settled towards its namesakes, and then towards the neutral player. -/
theorem Teamed.stance_settle (teamed : r₀.Teamed) (same : SameSeats r₀ r)
    (activeI : i.val < r₀.count) (activeJ : j.val < r₀.count) (slot : Slot) :
    (settle r slot).stance i j =
      (if slot = i then
        if i ≠ Slot.neutral ∧ (r₀.player Slot.neutral).name = (r₀.player j).name then
          some .neutral
        else if (r₀.player i).name = (r₀.player j).name then some .allies
        else none
      else none).getD (r.stance i j) := by
  by_cases here : slot = i
  · subst here
    have allied := teamed.stance_setStance (i := slot) same activeI activeJ slot .allies
    have kept := same.setStance slot slot .allies
    have first : Slot.neutral.val < r₀.count := Nat.zero_lt_of_lt activeJ
    have apart := teamed.stance_setStance (i := slot) kept first activeJ slot .neutral
    unfold Roster.settle
    simp only [true_and] at allied apart ⊢
    by_cases neutral : slot = Slot.neutral
    · rw [if_pos neutral, allied]
      simp only [neutral, ne_eq, not_true_eq_false, false_and, if_false, if_true]
      split <;> rfl
    · rw [if_neg neutral, apart, allied]
      simp only [neutral, ne_eq, not_false_eq_true, true_and, if_true]
      split
      · rfl
      · split <;> rfl
  · have allied := teamed.stance_setStance (i := i) same activeI activeJ slot .allies
    unfold Roster.settle
    dsimp only
    split
    · rw [Roster.stance_setStance]
      simp [here]
    · rw [Roster.stance_setStance, Roster.stance_setStance]
      simp [here]

/-- After settling all active players each is allied with its namesakes. -/
theorem Teamed.stance_settleAll (teamed : r₀.Teamed) (same : SameSeats r₀ r)
    (activeI : i.val < r₀.count) (activeJ : j.val < r₀.count) :
    SameSeats r₀ (r.active.foldl settle r) ∧
      (r.active.foldl settle r).stance i j =
        if i ≠ Slot.neutral ∧ (r₀.player Slot.neutral).name = (r₀.player j).name then
          .neutral
        else if (r₀.player i).name = (r₀.player j).name then .allies
        else r.stance i j := by
  have listed : i ∈ r.active.map id := by
    rw [List.map_id, mem_active, same.count]
    exact activeI
  obtain ⟨kept, shown⟩ := foldl_last_write (SameSeats r₀) (stance · i j)
    (fun _ slot same => same.settle slot)
    (fun _ slot same => teamed.stance_settle same activeI activeJ slot) r.active same
  have last := getLast?_filterMap_same id i
    (if i ≠ Slot.neutral ∧ (r₀.player Slot.neutral).name = (r₀.player j).name then
      some Stance.neutral
    else if (r₀.player i).name = (r₀.player j).name then some .allies
    else none) r.active
  rw [if_pos listed] at last
  refine ⟨kept, shown.trans ?_⟩
  simp only [id_eq] at last
  rw [last]
  split
  · rfl
  · split <;> rfl

end Frame

/-! ## Which sides speak for a slot -/

/-- The unnamed sides speak for the neutral player, and each other slot has its own. -/
theorem filterMap_seats {β : Type} (voice : Side → Option β)
    (same : ∀ side : Side, voice side.release.2 = voice side) (i : Slot) (sides : List Side)
    (next : Nat) (positive : 1 ≤ next) (free : next + namedCount sides ≤ 16) :
    ((released sides).zip (seats next sides)).filterMap
        (fun p => if p.2 = i then voice p.1 else none) =
      if i = Slot.neutral then (sides.filter (! ·.isNamed)).filterMap voice
      else if i.val < next then []
      else (((sides.filter (·.isNamed))[i.val - next]?).bind voice).toList := by
  induction sides generalizing next with
  | nil => simp [released, seats]
  | cons side sides ih =>
      rw [namedCount_cons] at free
      by_cases named : side.isNamed = true
      · rw [if_pos named] at free
        have rest := ih (next + 1) (by omega) (by omega)
        have seat : Slot.ofNat? next = some ⟨next, by omega⟩ := by
          simp [Slot.ofNat?]
          omega
        have spoken : ((released (side :: sides)).zip (seats next (side :: sides))) =
            (side.release.2, ⟨next, by omega⟩) ::
              ((released sides).zip (seats (next + 1) sides)) := by
          simp [released, seats, named, seat]
        rw [spoken, List.filterMap_cons, rest, List.filter_cons_of_pos named,
          List.filter_cons_of_neg (by simp [named])]
        by_cases here : i = ⟨next, by omega⟩
        · subst here
          have notNeutral : (⟨next, by omega⟩ : Slot) ≠ Slot.neutral := fun neutral => by
            have zero := congrArg Fin.val neutral
            change next = 0 at zero
            omega
          simp only [if_true, if_neg notNeutral, same, Nat.lt_irrefl, if_false,
            Nat.lt_succ_self, Nat.sub_self, List.getElem?_cons_zero, Option.bind_some]
          cases voice side <;> rfl
        · have apart : i.val ≠ next := fun eq => here (Fin.ext eq)
          simp only [Ne.symm here, if_false]
          by_cases neutral : i = Slot.neutral
          · simp [neutral]
          · rw [if_neg neutral, if_neg neutral]
            by_cases before : i.val < next
            · rw [if_pos (by omega), if_pos before]
            · have place : i.val - next = i.val - (next + 1) + 1 := by omega
              rw [if_neg (by omega), if_neg before, place, List.getElem?_cons_succ]
      · rw [if_neg named] at free
        have rest := ih next positive (by omega)
        have spoken : ((released (side :: sides)).zip (seats next (side :: sides))) =
            (side, Slot.neutral) :: ((released sides).zip (seats next sides)) := by
          simp [released, seats, named]
        rw [spoken, List.filterMap_cons, rest, List.filter_cons_of_neg named,
          List.filter_cons_of_pos (by simpa using named)]
        by_cases neutral : i = Slot.neutral
        · subst neutral
          simp only [if_true]
          cases said : voice side with
          | none => rw [List.filterMap_cons_none said]
          | some b => rw [List.filterMap_cons_some said]
        · simp only [Ne.symm neutral, if_false, neutral]

/-! ## The whole -/

def teamed (o : Options) (sides : List Side) : Roster :=
  let r := seatAll o sides initial
  (assignTeams r (TeamTable.prepare {} (released sides) r)).1

/-- Active players are given the teams of their names, and nothing else has changed. -/
theorem player_teamed (o : Options) (sides : List Side) (slot : Slot) :
    (teamed o sides).player slot =
      if slot.val < (seatAll o sides initial).count then
        ((seatAll o sides initial).player slot).setDefaultTeam
          ((TeamTable.prepare {} (released sides) (seatAll o sides initial)).find?
            (defaultTeamName ((seatAll o sides initial).player slot).name))
      else (seatAll o sides initial).player slot := by
  obtain ⟨r', assigned, -, players⟩ := assignTeams_spec (seatAll o sides initial)
    (TeamTable.prepare {} (released sides) (seatAll o sides initial))
  unfold teamed
  dsimp only
  rw [assigned, players]

/-- What a new game leads to, step by step. -/
theorem newGame_eq (o : Options) {sides : List Side} (few : namedCount sides ≤ 15)
    (r : Roster) (teams : TeamTable) :
    newGame o sides r teams =
      let spoken := declareAll (teamed o sides) ((released sides).zip (seats 1 sides))
      .ok {
        roster := spoken.active.foldl settle spoken
        teams := TeamTable.prepare {} (released sides) (seatAll o sides initial)
        sides := released sides } := by
  obtain ⟨r', assigned, -⟩ := assignTeams_spec (seatAll o sides initial)
    (TeamTable.prepare {} (released sides) (seatAll o sides initial))
  unfold newGame teamed
  rw [if_neg (Nat.not_lt.mpr (Nat.succ_le_succ few)), reset_eq_initial]
  dsimp only [TeamSource.prepare]
  rw [assigned]

/-- The stance that the sides call for between the players of two active slots. -/
def calledFor (sides : List Side) (i j : Slot) : Stance :=
  if i = j ∨ nameAt sides i = nameAt sides j then .allies
  else if j = Slot.neutral then .neutral
  else if i = Slot.neutral then
    (((sides.filter (! ·.isNamed)).filterMap (·.regards? (nameAt sides j))).getLast?).getD
      .neutral
  else
    ((sideAt? sides i).bind (·.regards? (nameAt sides j))).getD .neutral

theorem nameAt_neutral (sides : List Side) : nameAt sides Slot.neutral = "" :=
  rfl

/-- Active players other than the neutral one have a name. -/
theorem nameAt_ne_empty {sides : List Side} {slot : Slot}
    (active : slot.val < namedCount sides + 1) (player : slot ≠ Slot.neutral) :
    nameAt sides slot ≠ "" := by
  have positive : slot.val ≠ 0 := fun zero => player (Fin.ext zero)
  have place : slot.val - 1 < (sides.filter (·.isNamed)).length := by
    change slot.val - 1 < namedCount sides
    omega
  have named := List.of_mem_filter (List.getElem_mem place)
  unfold nameAt sideAt?
  rw [if_neg player, List.getElem?_eq_getElem place]
  simpa [Side.isNamed] using named

/-- Before any stance is set the players have the names of their sides, and no stances. -/
theorem teamed_spec (o : Options) {sides : List Side} (few : namedCount sides ≤ 15) :
    (teamed o sides).Teamed ∧ (teamed o sides).count = namedCount sides + 1 ∧
      ∀ slot, ((teamed o sides).player slot).name = nameAt sides slot ∧
        ((teamed o sides).player slot).stances = {} := by
  obtain ⟨r', assigned, count, -⟩ := assignTeams_spec (seatAll o sides initial)
    (TeamTable.prepare {} (released sides) (seatAll o sides initial))
  have counted : (teamed o sides).count = r'.count := by
    unfold teamed
    dsimp only
    rw [assigned]
  refine ⟨assignTeams_teamed (released sides) (seatAll o sides initial),
    counted.trans (count.trans (count_seatAll o few)), fun slot => ?_⟩
  have identity := identity_seatAll o few slot
  have stances : ((seatAll o sides initial).player slot).stances = {} := by
    have same := congrArg Player.stances identity
    cases seated : sideAt? sides slot with
    | none =>
        rw [seated] at same
        exact same
    | some side =>
        rw [seated] at same
        exact same
  rw [player_teamed]
  split
  · exact ⟨name_seatAll o few slot, stances⟩
  · exact ⟨name_seatAll o few slot, stances⟩

/--
A new game has a player for each named side, and each active player regards each
other one as the sides call for.
-/
theorem newGame_stance (o : Options) {sides : List Side} (few : namedCount sides ≤ 15)
    (r : Roster) (teams : TeamTable) :
    ∃ set, newGame o sides r teams = .ok set ∧ set.roster.count = namedCount sides + 1 ∧
      (∀ slot, (set.roster.player slot).name = nameAt sides slot) ∧
      ∀ i j : Slot, i.val < set.roster.count → j.val < set.roster.count →
        set.roster.stance i j = calledFor sides i j := by
  obtain ⟨ready, count, players⟩ := teamed_spec o few
  refine ⟨_, newGame_eq o few r teams, ?_⟩
  dsimp only
  have spoken (i j : Slot) (activeJ : j.val < (teamed o sides).count) :=
    ready.stance_declareAll (i := i) (SameSeats.refl _) activeJ
      ((released sides).zip (seats 1 sides))
  have settled (i j : Slot) (activeI : i.val < (teamed o sides).count)
      (activeJ : j.val < (teamed o sides).count) :=
    ready.stance_settleAll (spoken i j activeJ).1 activeI activeJ
  have first : Slot.neutral.val < (teamed o sides).count := by
    rw [count]
    exact Nat.succ_pos _
  have same := (settled Slot.neutral Slot.neutral first first).1
  refine ⟨same.count.trans count, fun slot => (same.names slot).trans (players slot).1,
    fun i j activeI activeJ => ?_⟩
  rw [same.count] at activeI activeJ
  rw [(settled i j activeI activeJ).2, (spoken i j activeJ).2]
  have before : (teamed o sides).stance i j = .neutral := by
    unfold stance Player.stance
    rw [(players i).2]
    split <;> rfl
  have voices := filterMap_seats (·.regards? (nameAt sides j)) (fun _ => rfl) i sides 1
    (Nat.le_refl 1) (by omega)
  rw [before, (players i).1, (players j).1, (players Slot.neutral).1, voices, nameAt_neutral]
  rw [count] at activeI activeJ
  unfold calledFor
  by_cases alike : i = j ∨ nameAt sides i = nameAt sides j
  · have names : nameAt sides i = nameAt sides j := by
      rcases alike with rfl | names
      · rfl
      · exact names
    have named : ¬ (i ≠ Slot.neutral ∧ "" = nameAt sides j) := fun ⟨player, empty⟩ =>
      nameAt_ne_empty activeI player (names.trans empty.symm)
    rw [if_pos alike, if_neg named, if_pos names]
  · rw [if_neg alike]
    by_cases neutralJ : j = Slot.neutral
    · have player : i ≠ Slot.neutral := fun neutral =>
        alike (.inl (neutral.trans neutralJ.symm))
      rw [if_pos neutralJ, if_pos ⟨player, by rw [neutralJ, nameAt_neutral]⟩]
    · have named : ¬ (i ≠ Slot.neutral ∧ "" = nameAt sides j) := fun ⟨_, empty⟩ =>
        nameAt_ne_empty activeJ neutralJ empty.symm
      rw [if_neg neutralJ, if_neg named, if_neg fun names => alike (.inr names)]
      by_cases neutral : i = Slot.neutral
      · rw [if_pos neutral, if_pos neutral]
      · have placed : ¬ i.val < 1 := fun lt => neutral (Fin.ext (Nat.lt_one_iff.mp lt))
        have own : (sides.filter (·.isNamed))[i.val - 1]? = sideAt? sides i := by
          unfold sideAt?
          rw [if_neg neutral]
        rw [if_neg neutral, if_neg neutral, if_neg placed, own]
        cases (sideAt? sides i).bind (·.regards? (nameAt sides j)) <;> rfl

/-- Namesakes share a team, and the last unnamed side decides for the neutral player. -/
theorem newGame_stance_namesakes :
    let sides : List Side := [
      { attributes := .ofList [("playerEnemies", .text "Red Blue")] },
      { attributes := .ofList [("playerName", .text "Red"), ("playerEnemies", .text "Blue"),
          ("playerAllies", .text "Gold  Blue")] },
      { attributes := .ofList [("playerName", .text "Blue")] },
      { attributes := .ofList [("playerName", .text "Red"), ("playerEnemies", .text "Blue")] },
      { attributes := .ofList [("playerAllies", .text "Blue")] }]
    namedCount sides ≤ 15 ∧ ∃ set, newGame {} sides initial ({} : TeamTable) = .ok set ∧
      set.roster.stance 1 2 = .allies ∧ set.roster.stance 3 2 = .enemies ∧
      set.roster.stance 1 3 = .allies ∧ set.roster.stance 2 0 = .neutral ∧
      set.roster.stance 0 1 = .enemies ∧ set.roster.stance 0 2 = .allies := by
  intro sides
  have few : namedCount sides ≤ 15 := by decide
  obtain ⟨set, accepted, count, -, stances⟩ := newGame_stance {} few initial {}
  have four : set.roster.count = 4 := count.trans (by decide)
  rw [four] at stances
  refine ⟨few, set, accepted, ?_, ?_, ?_, ?_, ?_, ?_⟩
  · exact (stances 1 2 (by decide) (by decide)).trans (by decide)
  · exact (stances 3 2 (by decide) (by decide)).trans (by decide)
  · exact (stances 1 3 (by decide) (by decide)).trans (by decide)
  · exact (stances 2 0 (by decide) (by decide)).trans (by decide)
  · exact (stances 0 1 (by decide) (by decide)).trans (by decide)
  · exact (stances 0 2 (by decide) (by decide)).trans (by decide)

end Roster

end BattleRoster
