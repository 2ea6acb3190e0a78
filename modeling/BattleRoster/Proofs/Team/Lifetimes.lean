import BattleRoster.Proofs.Team.Numbering

/-!
# Lifetimes of teams

A number is given to one team only until the table is cleared, also when the team
is deleted, as long as there are numbers left.  So a number that has been given
back stays unused, and numbers and names tell the teams of a table apart.
-/

namespace BattleRoster.TeamTable

/-- The numbers of the teams. -/
def ids (t : TeamTable) : List TeamId :=
  t.teams.map (·.id)

/-- The names of the teams. -/
def names (t : TeamTable) : List String :=
  t.teams.map (·.name)

/--
A table in which so many teams have been created since it was cleared, and some of
them deleted.
-/
structure Kept (t : TeamTable) (created : Nat) (deleted : List TeamId) : Prop where
  count : t.next.toNat = created
  ids : t.ids.Nodup
  names : t.names.Nodup
  numbered : ∀ id ∈ t.ids, id.number < t.next
  gone : ∀ id ∈ deleted, id.number < t.next ∧ id ∉ t.ids

theorem kept_empty : Kept {} 0 [] where
  count := rfl
  ids := List.nodup_nil
  names := List.nodup_nil
  numbered := by simp [ids]
  gone := by simp

/-! ## Finding and deleting a team -/

theorem find?_eq_none {t : TeamTable} {name : String} :
    t.find? name = none ↔ name ∉ t.names := by
  simp [find?, names]

/-- The place of the team with a name, which is the one that is deleted. -/
theorem split_of_find? {t : TeamTable} {name : String} {id : TeamId}
    (found : t.find? name = some id) :
    ∃ before team after, t.teams = before ++ team :: after ∧ team.id = id ∧
      team.name = name ∧
      name ∉ before.map (·.name) ∧
        (t.delete name).2 = { t with teams := before ++ after } := by
  obtain ⟨team, first, rfl⟩ := Option.map_eq_some_iff.mp found
  obtain ⟨named, before, after, split, earlier⟩ := List.find?_eq_some_iff_append.mp first
  have absent : name ∉ before.map (·.name) := by simpa using earlier
  refine ⟨before, team, after, split, rfl, by simpa using named, absent, ?_⟩
  unfold delete
  rw [first]
  dsimp only
  rw [split, List.eraseP_append_right _ (by simpa using earlier),
    List.eraseP_cons_of_pos (p := fun other : Team => other.name == name) named]

theorem mem_ids_of_find? {t : TeamTable} {name : String} {id : TeamId}
    (found : t.find? name = some id) : id ∈ t.ids := by
  obtain ⟨before, team, after, split, rfl, -⟩ := split_of_find? found
  rw [ids, split]
  simp

theorem names_delete {t : TeamTable} {name : String} {id : TeamId}
    (found : t.find? name = some id) : (t.delete name).2.names = t.names.erase name := by
  obtain ⟨before, team, after, split, -, rfl, absent, removed⟩ := split_of_find? found
  rw [removed, names, names, split, List.map_append, List.map_append, List.map_cons,
    List.erase_append_right _ absent, List.erase_cons_head]

theorem ids_delete {t : TeamTable} (distinct : t.ids.Nodup) {name : String} {id : TeamId}
    (found : t.find? name = some id) : (t.delete name).2.ids = t.ids.erase id := by
  obtain ⟨before, team, after, split, rfl, -, -, removed⟩ := split_of_find? found
  rw [ids, split, List.map_append, List.map_cons] at distinct
  have absent : team.id ∉ before.map (·.id) := by
    rw [List.nodup_middle, List.nodup_cons, List.mem_append] at distinct
    exact fun mem => distinct.1 (.inl mem)
  rw [removed, ids, ids, split, List.map_append, List.map_append, List.map_cons,
    List.erase_append_right _ absent, List.erase_cons_head]

theorem next_delete {t : TeamTable} (name : String) : (t.delete name).2.next = t.next := by
  unfold delete
  split <;> rfl

theorem delete_of_new {t : TeamTable} {name : String} (new : t.find? name = none) :
    (t.delete name).2 = t := by
  have absent : t.teams.find? (·.name == name) = none := by simpa [find?] using new
  rw [delete, absent]

/-! ## Creating a team -/

theorem create_of_new {t : TeamTable} {name : String} (new : t.find? name = none)
    (owner : Slot) :
    (t.create name owner).2 =
      { teams := t.teams ++ [{ id := ⟨t.next⟩, name, owner }], next := t.next + 1 } := by
  rw [create, new]

theorem create_of_known {t : TeamTable} {name : String} {id : TeamId}
    (known : t.find? name = some id) (owner : Slot) : (t.create name owner).2 = t := by
  rw [create, known]

theorem mem_ids_create {t : TeamTable} {id : TeamId} (there : id ∈ t.ids) (name : String)
    (owner : Slot) : id ∈ (t.create name owner).2.ids := by
  cases known : t.find? name with
  | some other => rwa [create_of_known known]
  | none =>
      rw [create_of_new known, ids, List.map_append, List.mem_append]
      exact .inl there

/-- How many teams a table has more than before. -/
def added (t later : TeamTable) : Nat :=
  later.teams.length - t.teams.length

/-- A deletion adds no team. -/
theorem added_delete (t : TeamTable) (name : String) : t.added (t.delete name).2 = 0 := by
  refine Nat.sub_eq_zero_of_le ?_
  unfold delete
  split
  · exact List.length_eraseP_le
  · exact Nat.le_refl _

theorem length_le_create (t : TeamTable) (name : String) (owner : Slot) :
    t.teams.length ≤ (t.create name owner).2.teams.length := by
  cases known : t.find? name with
  | some id => exact Nat.le_of_eq (by rw [create_of_known known])
  | none => simp [create_of_new known]

theorem length_le_createAll (t : TeamTable) (wanted : List (String × Slot)) :
    t.teams.length ≤ (t.createAll wanted).teams.length := by
  induction wanted generalizing t with
  | nil => exact Nat.le_refl _
  | cons team wanted ih => exact Nat.le_trans (length_le_create t team.1 team.2) (ih _)

/-! ## Numbers in use -/

namespace Kept

variable {t : TeamTable} {created : Nat} {deleted : List TeamId}

/-- A new team gets the next number, if there is one after it. -/
theorem create_new (kept : t.Kept created deleted) {name : String} (new : t.find? name = none)
    (room : created + 1 < UInt32.size) (owner : Slot) :
    (t.create name owner).2.Kept (created + 1) deleted := by
  have count : (t.next + 1).toNat = created + 1 := by
    rw [UInt32.toNat_add, kept.count]
    exact Nat.mod_eq_of_lt room
  have later {id : TeamId} (below : id.number < t.next) : id.number < t.next + 1 := by
    rw [UInt32.lt_iff_toNat_lt, kept.count] at below
    rw [UInt32.lt_iff_toNat_lt, count]
    exact Nat.lt_succ_of_lt below
  have fresh {id : TeamId} (below : id.number < t.next) : id ≠ ⟨t.next⟩ := by
    rintro rfl
    exact absurd below (UInt32.lt_irrefl _)
  have added : (t.create name owner).2.ids = t.ids ++ [⟨t.next⟩] := by
    rw [create_of_new new, TeamTable.ids, List.map_append]
    rfl
  have named : (t.create name owner).2.names = t.names ++ [name] := by
    rw [create_of_new new, TeamTable.names, List.map_append]
    rfl
  have next : (t.create name owner).2.next = t.next + 1 := by
    rw [create_of_new new]
  refine ⟨next ▸ count, ?_, ?_, ?_, ?_⟩
  · rw [added, ← List.concat_eq_append]
    exact kept.ids.concat fun mem => fresh (kept.numbered _ mem) rfl
  · rw [named, ← List.concat_eq_append]
    exact kept.names.concat (find?_eq_none.mp new)
  · rw [added, next, List.forall_mem_append]
    refine ⟨fun id mem => later (kept.numbered id mem), List.forall_mem_singleton.mpr ?_⟩
    rw [UInt32.lt_iff_toNat_lt, count, kept.count]
    exact Nat.lt_succ_self created
  · rw [added, next]
    intro id mem
    obtain ⟨below, absent⟩ := kept.gone id mem
    refine ⟨later below, fun among => ?_⟩
    rcases List.mem_append.mp among with among | among
    · exact absent among
    · exact fresh below (List.mem_singleton.mp among)

/-- Numbers do not run out as long as the teams that are added are few. -/
theorem create (kept : t.Kept created deleted) {name : String} {owner : Slot}
    (room : created + t.added (t.create name owner).2 < UInt32.size) :
    (t.create name owner).2.Kept (created + t.added (t.create name owner).2) deleted := by
  cases known : t.find? name with
  | some id =>
      have same := create_of_known known owner
      rwa [added, same, Nat.sub_self, Nat.add_zero]
  | none =>
      have one : t.added (t.create name owner).2 = 1 := by
        rw [added, create_of_new known, List.length_append, Nat.add_sub_cancel_left]
        rfl
      rw [one] at room ⊢
      exact kept.create_new known room owner

/-- The number of a team that is deleted is not used for another. -/
theorem delete (kept : t.Kept created deleted) {name : String} {id : TeamId}
    (found : t.find? name = some id) : (t.delete name).2.Kept created (deleted ++ [id]) := by
  have removed := ids_delete kept.ids found
  refine ⟨(next_delete name).symm ▸ kept.count, ?_, ?_, ?_, ?_⟩
  · rw [removed]
    exact kept.ids.erase id
  · rw [names_delete found]
    exact kept.names.erase name
  · rw [removed, next_delete]
    exact fun other mem => kept.numbered other (List.mem_of_mem_erase mem)
  · rw [removed, next_delete, List.forall_mem_append, List.forall_mem_singleton]
    constructor
    · intro other mem
      obtain ⟨below, absent⟩ := kept.gone other mem
      exact ⟨below, fun among => absent (List.mem_of_mem_erase among)⟩
    · exact ⟨kept.numbered id (mem_ids_of_find? found), kept.ids.not_mem_erase⟩

/-- Creating teams one after the other uses as many numbers as there are new teams. -/
theorem createAll (kept : t.Kept created deleted) {wanted : List (String × Slot)}
    (room : created + t.added (t.createAll wanted) < UInt32.size) :
    (t.createAll wanted).Kept (created + t.added (t.createAll wanted)) deleted := by
  induction wanted generalizing t created with
  | nil => rwa [added, show t.createAll [] = t from rfl, Nat.sub_self, Nat.add_zero]
  | cons team wanted ih =>
      obtain ⟨name, owner⟩ := team
      have first := length_le_create t name owner
      have rest := length_le_createAll (t.create name owner).2 wanted
      -- the numbers for the rest are those that the first team leaves
      have total : t.added (t.createAll ((name, owner) :: wanted)) =
          t.added (t.create name owner).2 +
            (t.create name owner).2.added ((t.create name owner).2.createAll wanted) := by
        change (((t.create name owner).2.createAll wanted).teams.length - _ = _)
        unfold added
        omega
      rw [total, ← Nat.add_assoc] at room ⊢
      exact ih (kept.create (Nat.lt_of_le_of_lt (Nat.le_add_right _ _) room)) room

end Kept

end BattleRoster.TeamTable
