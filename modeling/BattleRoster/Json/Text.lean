import BattleRoster.Json.Token
import BattleRoster.Json.Value

/-!
# JSON texts

`Value.write` gives the compact text of a value, and `Value.read?` reads one
value from a whole text.  Reading keeps the containers that are still open in a
list, so nesting is bounded by the text alone.
-/

namespace BattleRoster.Json

/-! ## Writing -/

mutual

def Value.tokens : Value → List Token
  | .null => [.null]
  | .bool b => [.bool b]
  | .number n => [.number n]
  | .string text => [.string text]
  | .array [] => [.openBracket, .closeBracket]
  | .array (item :: items) =>
      .openBracket :: (item.tokens ++ Value.itemTokens items)
  | .object [] => [.openBrace, .closeBrace]
  | .object ((name, value) :: members) =>
      .openBrace :: .string name :: .colon ::
        (value.tokens ++ Value.memberTokens members)

/-- The tokens of the items after the first, up to the closing bracket. -/
def Value.itemTokens : List Value → List Token
  | [] => [.closeBracket]
  | item :: items => .comma :: (item.tokens ++ Value.itemTokens items)

def Value.memberTokens : List (Option String × Value) → List Token
  | [] => [.closeBrace]
  | (name, value) :: members =>
      .comma :: .string name :: .colon ::
        (value.tokens ++ Value.memberTokens members)

end

/-- The compact text of a value. -/
def Value.write (v : Value) : String :=
  String.ofList (v.tokens.flatMap Token.text)

/-! ## Reading -/

/-- A container that is open around a value, with what it holds so far. -/
inductive Frame where
  | item (latestFirst : List Value)
  | member (latestFirst : List (Option String × Value)) (name : Option String)
deriving Repr

inductive Reading where
  | value (around : List Frame)
  | firstItem (around : List Frame)
  | memberName (around : List Frame) (latestFirst : List (Option String × Value))
      (first : Bool)
  | colon (around : List Frame) (latestFirst : List (Option String × Value))
      (name : Option String)
  | afterItem (around : List Frame) (latestFirst : List Value)
  | afterMember (around : List Frame) (latestFirst : List (Option String × Value))
  | done (v : Value)
deriving Repr

namespace Reading

def deliver (v : Value) : List Frame → Reading
  | [] => .done v
  | .item items :: around => .afterItem around (v :: items)
  | .member members name :: around => .afterMember around ((name, v) :: members)

def startValue? (around : List Frame) : Token → Option Reading
  | .null => some (deliver .null around)
  | .bool b => some (deliver (.bool b) around)
  | .number n => some (deliver (.number n) around)
  | .string text => some (deliver (.string text) around)
  | .openBracket => some (.firstItem around)
  | .openBrace => some (.memberName around [] true)
  | .closeBracket | .closeBrace | .comma | .colon => none

def read? : Reading → Token → Option Reading
  | .value around, token => startValue? around token
  | .firstItem around, .closeBracket => some (deliver (.array []) around)
  | .firstItem around, token => startValue? (.item [] :: around) token
  | .memberName around members _, .string name => some (.colon around members name)
  | .memberName around _ true, .closeBrace => some (deliver (.object []) around)
  | .memberName _ _ _, _ => none
  | .colon around members name, .colon => some (.value (.member members name :: around))
  | .colon _ _ _, _ => none
  | .afterItem around items, .comma => some (.value (.item items :: around))
  | .afterItem around items, .closeBracket =>
      some (deliver (.array items.reverse) around)
  | .afterItem _ _, _ => none
  | .afterMember around members, .comma => some (.memberName around members false)
  | .afterMember around members, .closeBrace =>
      some (deliver (.object members.reverse) around)
  | .afterMember _ _, _ => none
  | .done _, _ => none

end Reading

def Value.ofTokens? (tokens : List Token) : Option Value :=
  match tokens.foldlM Reading.read? (.value []) with
  | some (.done v) => some v
  | _ => none

/-- The value of a text, if the text is exactly one JSON value. -/
def Value.read? (s : String) : Option Value :=
  (Token.ofText? s.toList).bind Value.ofTokens?

end BattleRoster.Json
