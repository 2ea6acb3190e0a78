/-!
# Quoted text

The inside of a JSON string: characters that stand for themselves and escapes
after a backslash.  A four-digit escape may name half of a surrogate pair; a
half without its partner is well formed, but the string then denotes no text.
-/

namespace BattleRoster.Json

/-- One item between the quotes: a character, or half of a surrogate pair. -/
inductive Piece where
  | scalar (c : Char)
  | surrogate (unit : Nat)
deriving DecidableEq, Repr

namespace Piece

def ofUnit (unit : Nat) : Piece :=
  if 0xD800 ≤ unit ∧ unit < 0xE000 then .surrogate unit else .scalar (Char.ofNat unit)

def joined (high low : Nat) : Char :=
  Char.ofNat (0x10000 + (high - 0xD800) * 0x400 + (low - 0xDC00))

/-- The text of the items, if every surrogate has its partner. -/
def text? : List Piece → Option (List Char)
  | [] => some []
  | .scalar c :: rest => (text? rest).map (c :: ·)
  | .surrogate high :: .surrogate low :: rest =>
      if high < 0xDC00 ∧ 0xDC00 ≤ low then
        (text? rest).map (joined high low :: ·)
      else
        none
  | .surrogate _ :: _ => none

theorem text?_map_scalar (cs : List Char) :
    text? (cs.map .scalar) = some cs := by
  induction cs with
  | nil => rfl
  | cons c cs ih => simp [text?, ih]

end Piece

def hexValue? (c : Char) : Option Nat :=
  if c.isDigit then some (c.toNat - '0'.toNat)
  else if 'a' ≤ c ∧ c ≤ 'f' then some (c.toNat - 'a'.toNat + 10)
  else if 'A' ≤ c ∧ c ≤ 'F' then some (c.toNat - 'A'.toNat + 10)
  else none

def shortEscape? : Char → Option Char
  | '"' => some '"'
  | '\\' => some '\\'
  | '/' => some '/'
  | 'b' => some '\x08'
  | 'f' => some '\x0c'
  | 'n' => some '\n'
  | 'r' => some '\r'
  | 't' => some '\t'
  | _ => none

inductive Escape where
  | outside
  | started
  | unit (missing : Nat) (value : Nat)
deriving DecidableEq, Repr

inductive Escape.Outcome where
  | closed
  | continued (next : Escape)
  | produced (piece : Piece)
deriving DecidableEq, Repr

/-- Read one character between the quotes; control characters are refused. -/
def Escape.read? : Escape → Char → Option Escape.Outcome
  | .outside, c =>
      if c = '"' then some .closed
      else if c = '\\' then some (.continued .started)
      else if c.toNat < 0x20 then none
      else some (.produced (.scalar c))
  | .started, c =>
      if c = 'u' then some (.continued (.unit 4 0))
      else (shortEscape? c).map fun meant => .produced (.scalar meant)
  | .unit missing value, c =>
      (hexValue? c).map fun digit =>
        let value := value * 16 + digit
        if missing ≤ 1 then .produced (.ofUnit value)
        else .continued (.unit (missing - 1) value)

/--
The written form of one character: quotes, backslashes and control characters
are escaped, with a letter where there is one, and nothing else is.
-/
def escape (c : Char) : List Char :=
  if c = '"' then ['\\', '"']
  else if c = '\\' then ['\\', '\\']
  else if c = '\x08' then ['\\', 'b']
  else if c = '\x0c' then ['\\', 'f']
  else if c = '\n' then ['\\', 'n']
  else if c = '\r' then ['\\', 'r']
  else if c = '\t' then ['\\', 't']
  else if c.toNat < 0x20 then
    ['\\', 'u', '0', '0', Nat.digitChar (c.toNat / 16), Nat.digitChar (c.toNat % 16)]
  else [c]

end BattleRoster.Json
