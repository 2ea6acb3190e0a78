/-!
# Controllers and stances

A player is controlled by a human, by the computer or by nobody.  Towards a
team a player is hostile, allied or neutral; a filter selects stances, and may
also select the player itself.
-/

namespace BattleRoster

inductive Controller where
  | human
  | computer
  | neutral
deriving DecidableEq, Repr, Inhabited

namespace Controller

def word : Controller → String
  | .human => "human"
  | .computer => "computer"
  | .neutral => "neutral"

def ofWord? : String → Option Controller
  | "human" => some .human
  | "computer" => some .computer
  | "neutral" => some .neutral
  | _ => none

theorem ofWord?_word (c : Controller) : ofWord? c.word = some c := by
  cases c <;> rfl

end Controller

inductive Stance where
  | enemies
  | allies
  | neutral
deriving DecidableEq, Repr, Inhabited

namespace Stance

def word : Stance → String
  | .enemies => "enemies"
  | .allies => "allies"
  | .neutral => "neutral"

def ofWord? : String → Option Stance
  | "enemies" => some .enemies
  | "allies" => some .allies
  | "neutral" => some .neutral
  | _ => none

theorem ofWord?_word (s : Stance) : ofWord? s.word = some s := by
  cases s <;> rfl

end Stance

/-- Which players a query selects: the one who asks, and those of some stances. -/
structure StanceFilter where
  self : Bool := false
  enemies : Bool := false
  allies : Bool := false
  neutral : Bool := false
deriving DecidableEq, Repr, Inhabited

namespace StanceFilter

instance : Union StanceFilter where
  union a b := {
    self := a.self || b.self
    enemies := a.enemies || b.enemies
    allies := a.allies || b.allies
    neutral := a.neutral || b.neutral }

def isEmpty (f : StanceFilter) : Bool :=
  f == {}

/-- Whether a filter selects the players regarded with a stance. -/
def admits (f : StanceFilter) : Stance → Bool
  | .enemies => f.enemies
  | .allies => f.allies
  | .neutral => f.neutral

def admitting : Stance → StanceFilter
  | .enemies => { enemies := true }
  | .allies => { allies := true }
  | .neutral => { neutral := true }

def ofWord? : String → Option StanceFilter
  | "self" => some { self := true }
  | "enemies" => some { enemies := true }
  | "allies" => some { allies := true }
  | "neutral" => some { neutral := true }
  | _ => none

/-- The words of a filter in a fixed order. -/
def words (f : StanceFilter) : List String :=
  (if f.self then ["self"] else []) ++ (if f.enemies then ["enemies"] else []) ++
    (if f.allies then ["allies"] else []) ++ (if f.neutral then ["neutral"] else [])

/-- The number of a filter: one bit for each word, in the order of `words`. -/
def code (f : StanceFilter) : Nat :=
  f.self.toNat + 2 * f.enemies.toNat + 4 * f.allies.toNat + 8 * f.neutral.toNat

/-- The union of the filters of words, if all of them are known. -/
def ofWords? (words : List String) : Option StanceFilter :=
  words.foldlM (fun filter word => (ofWord? word).map (filter ∪ ·)) {}

theorem ofWords?_words (f : StanceFilter) : ofWords? f.words = some f := by
  rcases f with ⟨_ | _, _ | _, _ | _, _ | _⟩ <;> decide

end StanceFilter

end BattleRoster
