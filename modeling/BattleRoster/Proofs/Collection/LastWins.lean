import BattleRoster.Collection.OrderedMap
import Mathlib.Data.List.Sort

/-!
# Maps of lists with repeated keys

When the entries of a list are inserted one after the other, the last one of each
key stays.  So the map of a list is what is left of the list without the entries
that a later one replaces, in ascending order of the keys.
-/

namespace BattleRoster

namespace OrderedMap

variable {κ ν : Type}

/-! ## The last entries -/

section LastEntries

variable [DecidableEq κ]

theorem valueAt?_append (key : κ) (earlier later : List (κ × ν)) :
    valueAt? key (earlier ++ later) = (valueAt? key earlier).or (valueAt? key later) := by
  induction earlier with
  | nil => rfl
  | cons entry earlier ih =>
      rw [List.cons_append, valueAt?, valueAt?, ih]
      split <;> rfl

theorem valueAt?_eq_none_iff {key : κ} {entries : List (κ × ν)} :
    valueAt? key entries = none ↔ key ∉ entries.map Prod.fst := by
  induction entries with
  | nil => simp [valueAt?]
  | cons entry entries ih =>
      rw [valueAt?, List.map_cons, List.mem_cons, not_or, ← ih]
      split
      · next here => simp [here]
      · next other => simp [other]

/-- Where no key is repeated, every entry gives the value at its key. -/
theorem valueAt?_eq_some_iff {key : κ} {value : ν} {entries : List (κ × ν)}
    (distinct : entries.Pairwise fun a b => a.1 ≠ b.1) :
    valueAt? key entries = some value ↔ (key, value) ∈ entries := by
  refine ⟨mem_of_valueAt?, fun mem => ?_⟩
  induction entries with
  | nil => cases mem
  | cons entry entries ih =>
      obtain ⟨apart, distinct⟩ := List.pairwise_cons.mp distinct
      rw [valueAt?]
      rcases List.mem_cons.mp mem with rfl | mem
      · exact if_pos rfl
      · rw [if_neg (apart _ mem).symm]
        exact ih distinct mem

/-- The entries that no later one of the same key replaces. -/
def lastEntries : List (κ × ν) → List (κ × ν)
  | [] => []
  | entry :: rest =>
      if entry.1 ∈ rest.map Prod.fst then lastEntries rest else entry :: lastEntries rest

theorem lastEntries_sublist (entries : List (κ × ν)) :
    (lastEntries entries).Sublist entries := by
  induction entries with
  | nil => exact .slnil
  | cons entry rest ih =>
      unfold lastEntries
      split
      · exact ih.cons entry
      · exact ih.cons_cons entry

theorem distinct_lastEntries (entries : List (κ × ν)) :
    (lastEntries entries).Pairwise fun a b => a.1 ≠ b.1 := by
  induction entries with
  | nil => exact .nil
  | cons entry rest ih =>
      unfold lastEntries
      split
      · exact ih
      · next last =>
          refine .cons (fun later mem same => last ?_) ih
          exact same ▸ List.mem_map_of_mem ((lastEntries_sublist rest).subset mem)

/-- The last value of a key is the first one from the end. -/
theorem valueAt?_lastEntries (key : κ) (entries : List (κ × ν)) :
    valueAt? key (lastEntries entries) = valueAt? key entries.reverse := by
  induction entries with
  | nil => rfl
  | cons entry rest ih =>
      rw [List.reverse_cons, valueAt?_append, ← ih, lastEntries]
      split
      · next replaced =>
          by_cases here : key = entry.1
          · have later : valueAt? key (lastEntries rest) ≠ none := by
              rw [ih, Ne, valueAt?_eq_none_iff, List.map_reverse, List.mem_reverse, here]
              exact not_not.mpr replaced
            obtain ⟨value, found⟩ := Option.ne_none_iff_exists'.mp later
            rw [found]
            rfl
          · simp [valueAt?, here]
      · next last =>
          by_cases here : key = entry.1
          · have none_later : valueAt? key (lastEntries rest) = none := by
              rw [ih, valueAt?_eq_none_iff, List.map_reverse, List.mem_reverse, here]
              exact last
            simp [valueAt?, here ▸ none_later, here]
          · simp [valueAt?, here]

end LastEntries

/-! ## The last entries in order -/

section Order

variable [LT κ] [DecidableEq κ] [DecidableLT κ]

/-- The last entry of every key, in ascending order of the keys. -/
def sortedLast (entries : List (κ × ν)) : List (κ × ν) :=
  (lastEntries entries).insertionSort fun a b => ¬ b.1 < a.1

theorem valueAt?_sortedLast (key : κ) (entries : List (κ × ν)) :
    valueAt? key (sortedLast entries) = valueAt? key entries.reverse := by
  rw [← valueAt?_lastEntries]
  have perm : (sortedLast entries).Perm (lastEntries entries) := List.perm_insertionSort _ _
  have distinct := distinct_lastEntries entries
  refine Option.ext fun value => ?_
  rw [valueAt?_eq_some_iff distinct,
    valueAt?_eq_some_iff ((perm.pairwise_iff Ne.symm).mpr distinct), perm.mem_iff]

variable [LE κ] [Std.IsLinearOrder κ] [Std.LawfulOrderLT κ]

theorem ascending_sortedLast (entries : List (κ × ν)) : Ascending (sortedLast entries) := by
  have total : Std.Total fun a b : κ × ν => ¬ b.1 < a.1 :=
    ⟨fun a b => (Std.le_total (a := a.1) (b := b.1)).imp Std.not_lt.mpr Std.not_lt.mpr⟩
  have trans : IsTrans (κ × ν) fun a b => ¬ b.1 < a.1 :=
    ⟨fun a b c ab bc => Std.not_lt.mpr (Std.le_trans (Std.not_lt.mp ab) (Std.not_lt.mp bc))⟩
  have sorted :=
    List.pairwise_insertionSort (fun a b : κ × ν => ¬ b.1 < a.1) (lastEntries entries)
  have distinct : (sortedLast entries).Pairwise fun a b => a.1 ≠ b.1 :=
    ((List.perm_insertionSort _ _).pairwise_iff Ne.symm).mpr (distinct_lastEntries entries)
  exact sorted.imp₂ (fun _ _ le ne => Std.lt_of_le_of_ne (Std.not_lt.mp le) ne) distinct

/-- Insertions leave the last value of every key. -/
theorem get?_insertAll_reverse (m : OrderedMap κ ν) (entries : List (κ × ν)) (key : κ) :
    (m.insertAll entries).get? key = (valueAt? key entries.reverse).or (m.get? key) := by
  induction entries generalizing m with
  | nil => rfl
  | cons entry entries ih =>
      refine (ih (m.insert entry.1 entry.2)).trans ?_
      rw [get?_insert, List.reverse_cons, valueAt?_append, Option.or_assoc, valueAt?, valueAt?]
      split <;> rfl

theorem get?_ofList (entries : List (κ × ν)) (key : κ) :
    (ofList entries).get? key = valueAt? key entries.reverse := by
  rw [ofList, get?_insertAll_reverse, get?_empty, Option.or_none]

/-- The map of a list has the last entry of every key. -/
theorem entries_ofList (entries : List (κ × ν)) :
    (ofList entries).entries = sortedLast entries := by
  refine eq_of_valueAt? (ofList entries).ascending (ascending_sortedLast entries) fun key => ?_
  rw [valueAt?_sortedLast]
  exact get?_ofList entries key

end Order

end OrderedMap

end BattleRoster
