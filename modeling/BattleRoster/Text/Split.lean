import BattleRoster.Text.Blank

/-!
# Cutting a text into pieces

`pieces` cuts a list at every element of a class and keeps the empty pieces,
`words` keeps the maximal runs without a blank, and `splitFirst` cuts at the
first separator only.
-/

namespace BattleRoster.Text

/-- Cut at every element satisfying `cut`; `n` cuts leave `n + 1` pieces. -/
def pieces {α : Type} (cut : α → Bool) : List α → List (List α)
  | [] => [[]]
  | x :: xs =>
      if cut x then
        [] :: pieces cut xs
      else
        match pieces cut xs with
        | [] => [[x]]
        | piece :: rest => (x :: piece) :: rest

theorem pieces_ne_nil {α : Type} (cut : α → Bool) (xs : List α) :
    pieces cut xs ≠ [] := by
  cases xs with
  | nil => simp [pieces]
  | cons x xs =>
      simp only [pieces]
      split
      · simp
      · split <;> simp

theorem pieces_of_no_cut {α : Type} {cut : α → Bool} {xs : List α}
    (none : ∀ x ∈ xs, cut x = false) : pieces cut xs = [xs] := by
  induction xs with
  | nil => rfl
  | cons x xs ih =>
      have head : cut x = false := none x (by simp)
      have tail := ih fun y hy => none y (by simp [hy])
      simp [pieces, head, tail]

theorem pieces_append_cut {α : Type} {cut : α → Bool} {x : α}
    {before : List α} (after : List α)
    (none : ∀ y ∈ before, cut y = false) (here : cut x = true) :
    pieces cut (before ++ x :: after) = before :: pieces cut after := by
  induction before with
  | nil => simp [pieces, here]
  | cons y before ih =>
      have head : cut y = false := none y (by simp)
      have tail := ih fun z hz => none z (by simp [hz])
      simp [pieces, head, tail]

def splitOn (separator : Char) (s : String) : List String :=
  (pieces (· == separator) s.toList).map String.ofList

def wordLists (cs : List Char) : List (List Char) :=
  (pieces isBlank cs).filter (! ·.isEmpty)

def words (s : String) : List String :=
  (wordLists s.toList).map String.ofList

def unwords (ws : List String) : String :=
  String.intercalate " " ws

/-- The texts before and after the first separator, if there is one. -/
def splitFirst (separator : Char) (s : String) : Option (String × String) :=
  match s.toList.dropWhile (· != separator) with
  | [] => none
  | _ :: after =>
      some (String.ofList (s.toList.takeWhile (· != separator)),
        String.ofList after)

end BattleRoster.Text
