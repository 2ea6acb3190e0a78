import BattleRoster.Team.Table
import Mathlib.Data.List.Nodup

/-!
# Numbers of teams

Teams are numbered in the order of their creation and told apart by their
names.  The default teams are created first, so their numbers are small enough
to differ, however many teams the sides ask for afterwards.
-/

namespace BattleRoster

/-- The default teams of two players are called the same only if the players are. -/
theorem defaultTeamName_injective {a b : String} (same : defaultTeamName a = defaultTeamName b) :
    a = b := by
  unfold defaultTeamName at same
  exact String.append_right_inj "team" |>.mp same

namespace TeamTable

/-! ## Creating one team -/

/-- A name that is created stands for the number that is answered, and no other changes. -/
theorem find?_create (t : TeamTable) (name other : String) (owner : Slot) :
    (t.create name owner).2.find? other =
      if other = name then some (t.create name owner).1 else t.find? other := by
  unfold create
  cases known : t.find? name with
  | some id =>
      by_cases same : other = name
      · subst same
        simpa using known
      · simp [same]
  | none =>
      have absent : t.teams.find? (·.name == name) = none := by
        simpa [find?] using known
      by_cases same : other = name
      · subst same
        simp [find?, List.find?_append, absent]
      · have differs : (name == other) = false := by simpa using Ne.symm same
        simp [find?, List.find?_append, differs, same]

/-- A name keeps its number when teams are created. -/
theorem find?_create_of_some {t : TeamTable} {known : String} {id : TeamId}
    (found : t.find? known = some id) (name : String) (owner : Slot) :
    (t.create name owner).2.find? known = some id := by
  rw [find?_create]
  split
  · next same =>
      subst same
      unfold create
      rw [found]
  · exact found

/-- Teams stand at the places of their numbers. -/
structure Numbered (t : TeamTable) : Prop where
  next : t.next = UInt32.ofNat t.teams.length
  ids : ∀ (place : Nat) (lt : place < t.teams.length),
    t.teams[place].id = ⟨UInt32.ofNat place⟩

theorem numbered_empty : Numbered {} where
  next := rfl
  ids _ lt := absurd lt (Nat.not_lt_zero _)

theorem Numbered.create {t : TeamTable} (numbered : t.Numbered) (name : String)
    (owner : Slot) : (t.create name owner).2.Numbered := by
  unfold TeamTable.create
  cases t.find? name with
  | some id => exact numbered
  | none =>
      refine ⟨?_, fun place lt => ?_⟩
      · simp [numbered.next, UInt32.ofNat_add]
      · rcases Nat.lt_or_ge place t.teams.length with before | last
        · simpa [List.getElem_append_left before] using numbered.ids place before
        · have here : place = t.teams.length := by
            simp only [List.length_append, List.length_singleton] at lt
            omega
          subst here
          simp [numbered.next]

theorem length_create_le (t : TeamTable) (name : String) (owner : Slot) :
    (t.create name owner).2.teams.length ≤ t.teams.length + 1 := by
  unfold create
  cases t.find? name with
  | some id => exact Nat.le_succ _
  | none => simp

/-- Two names with one number are the same in a table that has not run out of numbers. -/
theorem Numbered.eq_of_find? {t : TeamTable} (numbered : t.Numbered)
    (few : t.teams.length ≤ UInt32.size) {a b : String} {id : TeamId}
    (foundA : t.find? a = some id) (foundB : t.find? b = some id) : a = b := by
  have placed {name : String} (found : t.find? name = some id) :
      ∃ (place : Nat) (lt : place < t.teams.length),
        t.teams[place].name = name ∧ id = ⟨UInt32.ofNat place⟩ := by
    obtain ⟨team, first, rfl⟩ := Option.map_eq_some_iff.mp found
    obtain ⟨place, lt, here⟩ := List.getElem_of_mem (List.mem_of_find?_eq_some first)
    have named := List.find?_some first
    refine ⟨place, lt, ?_, ?_⟩
    · rw [here]
      simpa using named
    · rw [← here]
      exact numbered.ids place lt
  obtain ⟨placeA, ltA, rfl, idA⟩ := placed foundA
  obtain ⟨placeB, ltB, rfl, idB⟩ := placed foundB
  have numbers : UInt32.ofNat placeA = UInt32.ofNat placeB := by
    rw [idA] at idB
    exact congrArg TeamId.number idB
  have places : placeA = placeB := by
    have values := congrArg UInt32.toNat numbers
    rw [UInt32.toNat_ofNat_of_lt' (Nat.lt_of_lt_of_le ltA few),
      UInt32.toNat_ofNat_of_lt' (Nat.lt_of_lt_of_le ltB few)] at values
    exact values
  subst places
  rfl

/-! ## Creating many teams -/

theorem createAll_append (t : TeamTable) (first second : List (String × Slot)) :
    t.createAll (first ++ second) = (t.createAll first).createAll second :=
  List.foldl_append

theorem find?_createAll_of_some {t : TeamTable} {known : String} {id : TeamId}
    (found : t.find? known = some id) (wanted : List (String × Slot)) :
    (t.createAll wanted).find? known = some id := by
  induction wanted generalizing t with
  | nil => exact found
  | cons team wanted ih => exact ih (find?_create_of_some found team.1 team.2)

theorem find?_createAll_of_mem {name : String} {wanted : List (String × Slot)}
    (t : TeamTable) (mem : name ∈ wanted.map Prod.fst) :
    ∃ id, (t.createAll wanted).find? name = some id := by
  induction wanted generalizing t with
  | nil => cases mem
  | cons team wanted ih =>
      rcases List.mem_cons.mp mem with rfl | later
      · refine ⟨(t.create team.1 team.2).1, find?_createAll_of_some ?_ wanted⟩
        rw [find?_create, if_pos rfl]
      · exact ih _ later

theorem Numbered.createAll {t : TeamTable} (numbered : t.Numbered)
    (wanted : List (String × Slot)) : (t.createAll wanted).Numbered := by
  induction wanted generalizing t with
  | nil => exact numbered
  | cons team wanted ih => exact ih (numbered.create team.1 team.2)

theorem length_createAll_le (t : TeamTable) (wanted : List (String × Slot)) :
    (t.createAll wanted).teams.length ≤ t.teams.length + wanted.length := by
  induction wanted generalizing t with
  | nil => exact Nat.le_refl _
  | cons team wanted ih =>
      have one := length_create_le t team.1 team.2
      have rest := ih (t.create team.1 team.2).2
      simp only [List.length_cons]
      change ((t.create team.1 team.2).2.createAll wanted).teams.length ≤ _
      omega

/-! ## Default teams -/

theorem length_defaults_le (r : Roster) : (defaults r).length ≤ 16 := by
  have bound := List.length_filter_le (fun slot : Slot => decide (slot.val < r.count)) Slot.all
  simpa [defaults, Roster.active, Slot.all] using bound

theorem mem_defaults {r : Roster} {slot : Slot} (active : slot.val < r.count) :
    defaultTeamName (r.player slot).name ∈ (defaults r).map Prod.fst := by
  unfold defaults
  rw [List.map_map]
  exact List.mem_map.mpr ⟨slot, Roster.mem_active.mpr active, rfl⟩

/-- Every active player has a default team in a table prepared from nothing. -/
theorem find?_prepare_default (sides : List Side) (r : Roster) {slot : Slot}
    (active : slot.val < r.count) :
    ∃ id, (prepare {} sides r).find? (defaultTeamName (r.player slot).name) = some id := by
  have mem : defaultTeamName (r.player slot).name ∈ (wanted sides r).map Prod.fst := by
    unfold wanted
    rw [List.map_append, List.mem_append]
    exact .inl (mem_defaults active)
  exact find?_createAll_of_mem {} mem

/-- Two players share their default team exactly when they share their name. -/
theorem find?_prepare_default_inj (sides : List Side) (r : Roster) {i j : Slot}
    (activeI : i.val < r.count) (activeJ : j.val < r.count) :
    (prepare {} sides r).find? (defaultTeamName (r.player i).name) =
        (prepare {} sides r).find? (defaultTeamName (r.player j).name) ↔
      (r.player i).name = (r.player j).name := by
  constructor
  · intro same
    -- The extra teams change nothing, and the default teams alone are few.
    have early {slot : Slot} (active : slot.val < r.count) :
        ∃ id,
          (createAll {} (defaults r)).find? (defaultTeamName (r.player slot).name) = some id ∧
          (prepare {} sides r).find? (defaultTeamName (r.player slot).name) = some id := by
      obtain ⟨id, found⟩ := find?_createAll_of_mem {} (mem_defaults active)
      refine ⟨id, found, ?_⟩
      unfold prepare wanted
      rw [createAll_append]
      exact find?_createAll_of_some found _
    obtain ⟨idI, earlyI, lateI⟩ := early activeI
    obtain ⟨idJ, earlyJ, lateJ⟩ := early activeJ
    have ids : idI = idJ := by
      rw [lateI, lateJ] at same
      exact Option.some.inj same
    subst ids
    have numbered := numbered_empty.createAll (defaults r)
    have few : (createAll {} (defaults r)).teams.length ≤ UInt32.size := by
      have bound := length_createAll_le {} (defaults r)
      have short := length_defaults_le r
      simp only [List.length_nil] at bound
      exact Nat.le_trans (show _ ≤ 16 by omega) (by decide)
    exact defaultTeamName_injective (numbered.eq_of_find? few earlyI earlyJ)
  · intro same
    rw [same]

end TeamTable

end BattleRoster
