import BattleRoster.Player.Slot

/-!
# Teams

A team has a number, a name and an owner.  Every player has a default team,
which is named after it.
-/

namespace BattleRoster

structure TeamId where
  number : UInt32
deriving DecidableEq, Repr, Inhabited

namespace TeamId

instance : LE TeamId := ⟨fun a b => a.number ≤ b.number⟩

instance : LT TeamId := ⟨fun a b => a.number < b.number⟩

instance : DecidableLT TeamId := fun a b =>
  inferInstanceAs (Decidable (a.number < b.number))

theorem ext_number {a b : TeamId} (h : a.number = b.number) : a = b := by
  cases a; cases b; simp_all

instance : Std.IsLinearOrder TeamId :=
  Std.IsLinearOrder.of_le
    ⟨fun _ _ ab ba => ext_number (UInt32.le_antisymm ab ba)⟩
    ⟨fun ab bc => UInt32.le_trans ab bc⟩
    ⟨fun a b => UInt32.le_total a.number b.number⟩

instance : Std.LawfulOrderLT TeamId where
  lt_iff a b := Std.LawfulOrderLT.lt_iff a.number b.number

end TeamId

structure Team where
  id : TeamId
  name : String
  owner : Slot
deriving DecidableEq, Repr

def defaultTeamName (player : String) : String :=
  "team" ++ player

end BattleRoster
