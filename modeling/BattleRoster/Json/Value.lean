import BattleRoster.Numeral.Basic

/-!
# JSON values

A value keeps what its text says: numerals as they are written, and the
members of an object in order with repeated names.  A string or a name with
half of a surrogate pair is kept as `none`, since it denotes no text.
-/

namespace BattleRoster.Json

/-- A JSON value as it is written. -/
inductive Value where
  | null
  | bool (b : Bool)
  | number (n : Numeral)
  | string (text : Option String)
  | array (items : List Value)
  | object (members : List (Option String × Value))
deriving Repr, Inhabited

namespace Value

def ofString (s : String) : Value :=
  .string (some s)

def ofNat (n : Nat) : Value :=
  .number (.ofNat n)

def ofMembers (members : List (String × Value)) : Value :=
  .object (members.map fun member => (some member.1, member.2))

end Value

end BattleRoster.Json
