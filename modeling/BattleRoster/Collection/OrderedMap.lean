/-!
# Ordered maps

An ordered map keeps its entries in strictly ascending order of their keys, so
it is listed in one order only.  Every operation is described by what it does
to the value at each key, and maps with the same values are equal.
-/

namespace BattleRoster

namespace OrderedMap

/-- Entries in strictly ascending order of their keys. -/
def Ascending {κ ν : Type} [LT κ] (entries : List (κ × ν)) : Prop :=
  entries.Pairwise fun a b => a.1 < b.1

/-! ## Lists of entries -/

/-- The value of the first entry with a key. -/
def valueAt? {κ ν : Type} [DecidableEq κ] (key : κ) : List (κ × ν) → Option ν
  | [] => none
  | (k, v) :: rest => if key = k then some v else valueAt? key rest

theorem mem_of_valueAt? {κ ν : Type} [DecidableEq κ] {key : κ} {value : ν}
    {entries : List (κ × ν)} (found : valueAt? key entries = some value) :
    (key, value) ∈ entries := by
  induction entries with
  | nil => cases found
  | cons head rest ih =>
      rw [valueAt?] at found
      split at found
      · next here =>
          obtain rfl := Option.some.inj found
          exact here ▸ List.mem_cons_self
      · exact List.mem_cons_of_mem _ (ih found)

section Order

variable {κ ν : Type} [LT κ] [LE κ] [Std.LawfulOrderLT κ]

theorem valueAt?_eq_none [DecidableEq κ] {key : κ} {entries : List (κ × ν)}
    (below : ∀ entry ∈ entries, key < entry.1) : valueAt? key entries = none := by
  induction entries with
  | nil => rfl
  | cons head rest ih =>
      have ne : key ≠ head.1 := Std.ne_of_lt (below head (by simp))
      have rest_none := ih fun entry mem => below entry (by simp [mem])
      simp [valueAt?, ne, rest_none]

/-- The first key of one list is not below all keys of an equal one. -/
theorem not_below_of_valueAt? [DecidableEq κ] {k : κ} {v : ν}
    {rest entries : List (κ × ν)}
    (same : ∀ key, valueAt? key ((k, v) :: rest) = valueAt? key entries) :
    ¬ ∀ entry ∈ entries, k < entry.1 := by
  intro below
  have here := same k
  rw [valueAt?_eq_none below] at here
  simp [valueAt?] at here

variable [Std.IsLinearOrder κ]

theorem eq_of_not_lt {a b : κ} (ab : ¬ a < b) (ba : ¬ b < a) : a = b :=
  Std.le_antisymm (Std.not_lt.mp ba) (Std.not_lt.mp ab)

/-- Ascending entries are determined by the values at all keys. -/
theorem eq_of_valueAt? [DecidableEq κ] {as bs : List (κ × ν)}
    (ascending_as : Ascending as) (ascending_bs : Ascending bs)
    (same : ∀ key, valueAt? key as = valueAt? key bs) : as = bs := by
  induction as generalizing bs with
  | nil =>
      cases bs with
      | nil => rfl
      | cons b bs => exact absurd (by simp) (not_below_of_valueAt? fun key => (same key).symm)
  | cons a as ih =>
      cases bs with
      | nil => exact absurd (by simp) (not_below_of_valueAt? same)
      | cons b bs =>
          obtain ⟨below_a, tail_a⟩ := List.pairwise_cons.mp ascending_as
          obtain ⟨below_b, tail_b⟩ := List.pairwise_cons.mp ascending_bs
          have not_lt : ¬ a.1 < b.1 := fun lt => by
            refine not_below_of_valueAt? same fun entry mem => ?_
            rcases List.mem_cons.mp mem with rfl | mem
            · exact lt
            · exact Std.lt_trans lt (below_b entry mem)
          have not_gt : ¬ b.1 < a.1 := fun gt => by
            refine not_below_of_valueAt? (fun key => (same key).symm) fun entry mem => ?_
            rcases List.mem_cons.mp mem with rfl | mem
            · exact gt
            · exact Std.lt_trans gt (below_a entry mem)
          have keys : a.1 = b.1 := eq_of_not_lt not_lt not_gt
          have values : a.2 = b.2 := by
            have here := same a.1
            simpa [valueAt?, keys] using here
          have rest : as = bs := by
            refine ih tail_a tail_b fun key => ?_
            by_cases h : key = a.1
            · subst h
              rw [valueAt?_eq_none below_a, keys, valueAt?_eq_none below_b]
            · have hb : key ≠ b.1 := keys ▸ h
              have here := same key
              simpa [valueAt?, h, hb] using here
          obtain ⟨k, v⟩ := a
          obtain ⟨k', v'⟩ := b
          simp_all

end Order

section Put

variable {κ ν : Type} [LT κ] [DecidableLT κ]

/-- Put an entry at its place, in the stead of one with an equal key. -/
def put (key : κ) (value : ν) : List (κ × ν) → List (κ × ν)
  | [] => [(key, value)]
  | entry :: rest =>
      if key < entry.1 then
        (key, value) :: entry :: rest
      else if entry.1 < key then
        entry :: put key value rest
      else
        (key, value) :: rest

theorem mem_put {key : κ} {value : ν} {entries : List (κ × ν)}
    {entry : κ × ν} (h : entry ∈ put key value entries) :
    entry = (key, value) ∨ entry ∈ entries := by
  induction entries with
  | nil => simpa [put] using h
  | cons head rest ih =>
      simp only [put] at h
      split at h
      · simpa using h
      · split at h
        · rcases List.mem_cons.mp h with h | h
          · simp [h]
          · rcases ih h with h | h <;> simp [h]
        · rcases List.mem_cons.mp h with h | h <;> simp [h]

variable [LE κ] [Std.IsLinearOrder κ] [Std.LawfulOrderLT κ]

theorem ascending_put (key : κ) (value : ν) {entries : List (κ × ν)}
    (ascending : Ascending entries) : Ascending (put key value entries) := by
  induction entries with
  | nil => simp [put, Ascending]
  | cons head rest ih =>
      obtain ⟨below, ascending_rest⟩ := List.pairwise_cons.mp ascending
      simp only [put]
      split
      · next lt =>
          refine List.pairwise_cons.mpr ⟨fun entry mem => ?_, ascending⟩
          rcases List.mem_cons.mp mem with rfl | mem
          · exact lt
          · exact Std.lt_trans lt (below entry mem)
      · next not_lt =>
          split
          · next gt =>
              refine List.pairwise_cons.mpr ⟨fun entry mem => ?_, ih ascending_rest⟩
              rcases mem_put mem with rfl | mem
              · exact gt
              · exact below entry mem
          · next not_gt =>
              have same : key = head.1 := eq_of_not_lt not_lt not_gt
              refine List.pairwise_cons.mpr ⟨fun entry mem => ?_, ascending_rest⟩
              exact same ▸ below entry mem

theorem valueAt?_put [DecidableEq κ] (key other : κ) (value : ν)
    (entries : List (κ × ν)) :
    valueAt? other (put key value entries) =
      if other = key then some value else valueAt? other entries := by
  induction entries with
  | nil => simp [put, valueAt?]
  | cons head rest ih =>
      obtain ⟨k, v⟩ := head
      simp only [put]
      split
      · simp [valueAt?]
      · next not_lt =>
          split
          · next gt =>
              have ne : key ≠ k := (Std.ne_of_lt gt).symm
              by_cases h : other = key
              · subst h
                simp [valueAt?, ih, ne]
              · simp [valueAt?, ih, h]
          · next not_gt =>
              have same : key = k := eq_of_not_lt not_lt not_gt
              subst same
              by_cases h : other = key <;> simp [valueAt?, h]

end Put

end OrderedMap

/-- A finite map whose entries stand in ascending order of their keys. -/
structure OrderedMap (κ ν : Type) [LT κ] where
  entries : List (κ × ν) := []
  ascending : OrderedMap.Ascending entries := by exact List.Pairwise.nil

namespace OrderedMap

variable {κ ν : Type} [LT κ]

instance : Inhabited (OrderedMap κ ν) := ⟨{}⟩

@[ext] theorem ext {a b : OrderedMap κ ν} (h : a.entries = b.entries) :
    a = b := by
  cases a; cases b; simp_all

instance [DecidableEq κ] [DecidableEq ν] : DecidableEq (OrderedMap κ ν) :=
  fun a b => decidable_of_iff (a.entries = b.entries)
    ⟨OrderedMap.ext, fun h => h ▸ rfl⟩

/-! ## Operations -/

def keys (m : OrderedMap κ ν) : List κ :=
  m.entries.map Prod.fst

def get? [DecidableEq κ] (m : OrderedMap κ ν) (key : κ) : Option ν :=
  valueAt? key m.entries

def contains [DecidableEq κ] (m : OrderedMap κ ν) (key : κ) : Bool :=
  (m.get? key).isSome

def erase [DecidableEq κ] (m : OrderedMap κ ν) (key : κ) : OrderedMap κ ν where
  entries := m.entries.filter fun entry => entry.1 ≠ key
  ascending := m.ascending.sublist List.filter_sublist

@[simp] theorem get?_empty [DecidableEq κ] (key : κ) :
    ({} : OrderedMap κ ν).get? key = none :=
  rfl

theorem get?_erase [DecidableEq κ] (m : OrderedMap κ ν) (key other : κ) :
    (m.erase key).get? other = if other = key then none else m.get? other := by
  simp only [get?, erase]
  induction m.entries with
  | nil => simp [valueAt?]
  | cons head rest ih =>
      obtain ⟨k, v⟩ := head
      by_cases hk : k = key
      · subst hk
        by_cases ho : other = k <;> simp_all [valueAt?]
      · by_cases ho : other = k
        · subst ho
          simp [valueAt?, hk]
        · simpa [valueAt?, hk, ho] using ih

variable [LE κ] [Std.IsLinearOrder κ] [Std.LawfulOrderLT κ]

theorem eq_of_get? [DecidableEq κ] {a b : OrderedMap κ ν}
    (same : ∀ key, a.get? key = b.get? key) : a = b :=
  ext (eq_of_valueAt? a.ascending b.ascending same)

/-- Maps without values to compare are equal if they have the same keys. -/
theorem eq_of_contains [DecidableEq κ] {a b : OrderedMap κ Unit}
    (same : ∀ key, a.contains key = b.contains key) : a = b :=
  eq_of_get? fun key => by
    have present : (a.get? key).isSome = (b.get? key).isSome := same key
    cases left : a.get? key <;> cases right : b.get? key <;> simp [left, right] at present ⊢

variable [DecidableLT κ]

def insert (m : OrderedMap κ ν) (key : κ) (value : ν) : OrderedMap κ ν where
  entries := put key value m.entries
  ascending := ascending_put key value m.ascending

theorem get?_insert [DecidableEq κ] (m : OrderedMap κ ν) (key other : κ)
    (value : ν) :
    (m.insert key value).get? other =
      if other = key then some value else m.get? other :=
  valueAt?_put key other value m.entries

/-- Insert entries one after the other; of equal keys the last one stays. -/
def insertAll (m : OrderedMap κ ν) (entries : List (κ × ν)) : OrderedMap κ ν :=
  entries.foldl (fun m entry => m.insert entry.1 entry.2) m

def ofList (entries : List (κ × ν)) : OrderedMap κ ν :=
  insertAll {} entries

/-- Inserting ascending entries sets the values at their keys. -/
theorem get?_insertAll [DecidableEq κ] {entries : List (κ × ν)} (ascending : Ascending entries)
    (m : OrderedMap κ ν) (key : κ) :
    (m.insertAll entries).get? key = (valueAt? key entries).or (m.get? key) := by
  induction entries generalizing m with
  | nil => rfl
  | cons entry entries ih =>
      obtain ⟨below, ascending⟩ := List.pairwise_cons.mp ascending
      have rest := ih ascending (m.insert entry.1 entry.2)
      rw [get?_insert] at rest
      refine rest.trans ?_
      by_cases here : key = entry.1
      · subst here
        simp [valueAt?, valueAt?_eq_none below]
      · simp [valueAt?, here]

theorem contains_insertAll [DecidableEq κ] (m : OrderedMap κ ν) (entries : List (κ × ν))
    (key : κ) :
    (m.insertAll entries).contains key = true ↔
      m.contains key = true ∨ ∃ entry ∈ entries, entry.1 = key := by
  induction entries generalizing m with
  | nil => simp [insertAll]
  | cons entry entries ih =>
      have rest := ih (m.insert entry.1 entry.2)
      refine rest.trans ?_
      simp only [contains, get?_insert, List.mem_cons, exists_eq_or_imp]
      by_cases here : key = entry.1
      · simp [here]
      · simp [here, Ne.symm here]

theorem ofList_entries [DecidableEq κ] (m : OrderedMap κ ν) : ofList m.entries = m := by
  refine eq_of_get? fun key => ?_
  rw [ofList, get?_insertAll m.ascending, get?_empty, Option.or_none]
  rfl

end OrderedMap

end BattleRoster
