import BattleRoster.Json.Quoted
import BattleRoster.Numeral.Basic

/-!
# JSON tokens

A text is read into tokens one character at a time.  The reader is a machine
whose state holds the token under way, so reading a text piece by piece is the
same as reading it at once.
-/

namespace BattleRoster.Json

/-- A unit of a JSON text; a string without a text is kept as `none`. -/
inductive Token where
  | openBrace
  | closeBrace
  | openBracket
  | closeBracket
  | comma
  | colon
  | null
  | bool (b : Bool)
  | number (n : Numeral)
  | string (text : Option String)
deriving DecidableEq, Repr

inductive NumeralPhase where
  | sign
  | zero
  | whole
  | point
  | fraction
  | exponentMark
  | exponentSign
  | exponent
deriving DecidableEq, Repr

namespace NumeralPhase

/-- Whether a numeral may end here. -/
def complete : NumeralPhase → Bool
  | .zero | .whole | .fraction | .exponent => true
  | .sign | .point | .exponentMark | .exponentSign => false

end NumeralPhase

def withExponentDigit (n : Numeral) (c : Char) : Numeral :=
  let e := n.exponent.getD {}
  { n with exponent := some { e with digits := e.digits ++ [c] } }

def NumeralPhase.read? (phase : NumeralPhase) (n : Numeral) (c : Char) :
    Option (NumeralPhase × Numeral) :=
  match phase with
  | .sign =>
      if c = '0' then some (.zero, { n with whole := [c] })
      else if c.isDigit then some (.whole, { n with whole := [c] })
      else none
  | .zero =>
      if c = '.' then some (.point, n)
      else if c = 'e' ∨ c = 'E' then some (.exponentMark, n)
      else none
  | .whole =>
      if c.isDigit then some (.whole, { n with whole := n.whole ++ [c] })
      else if c = '.' then some (.point, n)
      else if c = 'e' ∨ c = 'E' then some (.exponentMark, n)
      else none
  | .point =>
      if c.isDigit then some (.fraction, { n with fraction := [c] }) else none
  | .fraction =>
      if c.isDigit then some (.fraction, { n with fraction := n.fraction ++ [c] })
      else if c = 'e' ∨ c = 'E' then some (.exponentMark, n)
      else none
  | .exponentMark =>
      if c = '+' then some (.exponentSign, { n with exponent := some {} })
      else if c = '-' then
        some (.exponentSign, { n with exponent := some { negative := true } })
      else if c.isDigit then some (.exponent, withExponentDigit n c)
      else none
  | .exponentSign | .exponent =>
      if c.isDigit then some (.exponent, withExponentDigit n c) else none

inductive Lexer.Mode where
  | between
  | word (missing : List Char) (token : Token)
  | quoted (latestFirst : List Piece) (escape : Escape)
  | numeral (phase : NumeralPhase) (n : Numeral)
deriving DecidableEq, Repr

/-- The state of a reader: the token under way and those before it. -/
structure Lexer where
  mode : Lexer.Mode := .between
  latestFirst : List Token := []
deriving DecidableEq, Repr

namespace Lexer

def emit (l : Lexer) (token : Token) : Lexer where
  mode := .between
  latestFirst := token :: l.latestFirst

def isSpace (c : Char) : Bool :=
  c == ' ' || c == '\t' || c == '\n' || c == '\r'

def start? (l : Lexer) (c : Char) : Option Lexer :=
  if isSpace c then some { l with mode := .between }
  else
    match c with
    | '{' => some (l.emit .openBrace)
    | '}' => some (l.emit .closeBrace)
    | '[' => some (l.emit .openBracket)
    | ']' => some (l.emit .closeBracket)
    | ',' => some (l.emit .comma)
    | ':' => some (l.emit .colon)
    | '"' => some { l with mode := .quoted [] .outside }
    | 'n' => some { l with mode := .word ['u', 'l', 'l'] .null }
    | 't' => some { l with mode := .word ['r', 'u', 'e'] (.bool true) }
    | 'f' => some { l with mode := .word ['a', 'l', 's', 'e'] (.bool false) }
    | '-' => some { l with mode := .numeral .sign { negative := true } }
    | c =>
        (NumeralPhase.sign.read? {} c).map fun (phase, n) =>
          { l with mode := .numeral phase n }

def read? (l : Lexer) (c : Char) : Option Lexer :=
  match l.mode with
  | .between => l.start? c
  | .word missing token =>
      match missing with
      | [] => none
      | [last] => if c = last then some (l.emit token) else none
      | next :: missing =>
          if c = next then some { l with mode := .word missing token } else none
  | .quoted pieces escape =>
      (escape.read? c).map fun
        | .closed =>
            l.emit (.string ((Piece.text? pieces.reverse).map String.ofList))
        | .continued next => { l with mode := .quoted pieces next }
        | .produced piece => { l with mode := .quoted (piece :: pieces) .outside }
  | .numeral phase n =>
      match phase.read? n c with
      | some (phase, n) => some { l with mode := .numeral phase n }
      | none => if phase.complete then (l.emit (.number n)).start? c else none

def finish? (l : Lexer) : Option (List Token) :=
  match l.mode with
  | .between => some l.latestFirst.reverse
  | .numeral phase n =>
      if phase.complete then some (l.emit (.number n)).latestFirst.reverse else none
  | .word _ _ | .quoted _ _ => none

end Lexer

namespace Token

def ofText? (cs : List Char) : Option (List Token) :=
  (cs.foldlM Lexer.read? {}).bind Lexer.finish?

/-- The written form of a token; a string without a text is half a pair. -/
def text : Token → List Char
  | .openBrace => ['{']
  | .closeBrace => ['}']
  | .openBracket => ['[']
  | .closeBracket => [']']
  | .comma => [',']
  | .colon => [':']
  | .null => ['n', 'u', 'l', 'l']
  | .bool true => ['t', 'r', 'u', 'e']
  | .bool false => ['f', 'a', 'l', 's', 'e']
  | .number n => n.text
  | .string (some s) => '"' :: (s.toList.flatMap escape ++ ['"'])
  | .string none => ['"', '\\', 'u', 'd', '8', '0', '0', '"']

end Token

end BattleRoster.Json
