import BattleRoster.Json.Token
import Mathlib.Data.List.Chain

/-!
# Written tokens are read back

The characters of a token lead the reader from rest to rest, with the token
added to those before it.  A numeral ends where another token begins, so only
two numerals in a row would run into each other.
-/

namespace BattleRoster.Json

/-! ## Numerals of natural numbers -/

/-- Only zero is written with a leading zero. -/
theorem toDigits_head {n : Nat} (positive : 0 < n) :
    ∃ first rest, Nat.toDigits 10 n = first :: rest ∧ first ≠ '0' ∧
      first.isDigit = true ∧ ∀ c ∈ rest, c.isDigit = true := by
  induction n using Nat.strongRecOn with
  | ind n ih =>
      have digits : ∀ c ∈ Nat.toDigits 10 n, c.isDigit = true := fun c mem =>
        Nat.isDigit_of_mem_toDigits (by decide) (by decide) mem
      rcases Nat.lt_or_ge n 10 with small | large
      · rw [Nat.toDigits_of_lt_base small] at digits ⊢
        refine ⟨n.digitChar, [], rfl, ?_, digits _ (by simp), by simp⟩
        have checked : ∀ d : Nat, d < 10 → 0 < d → d.digitChar ≠ '0' := by decide
        exact checked n small positive
      · obtain ⟨first, rest, head, nonzero, -, -⟩ := ih (n / 10) (by omega) (by omega)
        have shape : Nat.toDigits 10 n = first :: (rest ++ [(n % 10).digitChar]) := by
          rw [Nat.toDigits_of_base_le (by decide) large, head, List.cons_append]
        rw [shape] at digits ⊢
        exact ⟨first, _, rfl, nonzero, digits _ (by simp),
          fun c mem => digits c (List.mem_cons_of_mem _ mem)⟩

/-- A digit starts no other token. -/
theorem start?_of_isDigit {c : Char} (digit : c.isDigit = true) (l : Lexer) :
    l.start? c =
      (NumeralPhase.sign.read? {} c).map fun p => { l with mode := .numeral p.1 p.2 } := by
  have other {d : Char} (h : d.isDigit = false) : c ≠ d := fun same => by
    rw [same, h] at digit
    cases digit
  have space : Lexer.isSpace c = false := by
    simp only [Lexer.isSpace, Bool.or_eq_false_iff, beq_eq_false_iff_ne]
    exact ⟨⟨⟨other (by decide), other (by decide)⟩, other (by decide)⟩,
      other (by decide)⟩
  unfold Lexer.start?
  rw [space]
  simp only [Bool.false_eq_true, if_false]
  split
  all_goals first
    | rfl
    | exact absurd digit (by decide)

theorem read_whole (ds read : List Char) (digits : ∀ c ∈ ds, c.isDigit = true)
    (ts : List Token) :
    ds.foldlM Lexer.read? ⟨.numeral .whole { whole := read }, ts⟩ =
      some ⟨.numeral .whole { whole := read ++ ds }, ts⟩ := by
  induction ds generalizing read with
  | nil => simp
  | cons d ds ih =>
      have digit := digits d (by simp)
      have step : Lexer.read? ⟨.numeral .whole { whole := read }, ts⟩ d =
          some ⟨.numeral .whole { whole := read ++ [d] }, ts⟩ := by
        simp [Lexer.read?, NumeralPhase.read?, digit]
      rw [List.foldlM_cons, step]
      change ds.foldlM Lexer.read? ⟨.numeral .whole { whole := read ++ [d] }, ts⟩ = _
      rw [ih (read ++ [d]) fun c mem => digits c (by simp [mem]), List.append_assoc]
      rfl

/-- The digits of a number leave a numeral that may end there. -/
theorem read_ofNat (n : Nat) (ts : List Token) :
    ∃ phase : NumeralPhase, phase.complete = true ∧
      (Numeral.ofNat n).text.foldlM Lexer.read? ⟨.between, ts⟩ =
        some ⟨.numeral phase (.ofNat n), ts⟩ := by
  have text : (Numeral.ofNat n).text = Nat.toDigits 10 n := by
    simp [Numeral.text, Numeral.ofNat]
  rw [text]
  rcases Nat.eq_zero_or_pos n with rfl | positive
  · exact ⟨.zero, rfl, rfl⟩
  · obtain ⟨first, rest, shape, nonzero, digit, digits⟩ := toDigits_head positive
    refine ⟨.whole, rfl, ?_⟩
    have start : Lexer.read? ⟨.between, ts⟩ first =
        some ⟨.numeral .whole { whole := [first] }, ts⟩ := by
      change Lexer.start? ⟨.between, ts⟩ first = _
      rw [start?_of_isDigit digit]
      simp [NumeralPhase.read?, nonzero, digit]
    unfold Numeral.ofNat
    rw [shape, List.foldlM_cons, start]
    exact read_whole rest [first] digits ts

/-! ## Strings -/

theorem hexValue?_digitChar : ∀ d < 16, hexValue? (Nat.digitChar d) = some d := by
  decide

/-- A character is read back from its written form. -/
theorem read_escape (c : Char) (pieces : List Piece) (ts : List Token) :
    (escape c).foldlM Lexer.read? ⟨.quoted pieces .outside, ts⟩ =
      some ⟨.quoted (.scalar c :: pieces) .outside, ts⟩ := by
  unfold escape
  split
  · next quote => subst quote; rfl
  split
  · next backslash => subst backslash; rfl
  split
  · next backspace => subst backspace; rfl
  split
  · next formFeed => subst formFeed; rfl
  split
  · next newline => subst newline; rfl
  split
  · next carriageReturn => subst carriageReturn; rfl
  split
  · next tab => subst tab; rfl
  split
  · next control =>
      have high := hexValue?_digitChar (c.toNat / 16) (by omega)
      have low := hexValue?_digitChar (c.toNat % 16) (by omega)
      have whole : c.toNat / 16 * 16 + c.toNat % 16 = c.toNat := by omega
      have unit : Piece.ofUnit c.toNat = .scalar c := by
        unfold Piece.ofUnit
        rw [if_neg (by omega), Char.ofNat_toNat]
      have zero : hexValue? '0' = some 0 := rfl
      simp [Lexer.read?, Escape.read?, zero, high, low, whole, unit]
  · next quote backslash _ _ _ _ _ control =>
      simp [Lexer.read?, Escape.read?, quote, backslash, control]

theorem read_escapes (cs : List Char) (pieces : List Piece) (ts : List Token) :
    (cs.flatMap escape).foldlM Lexer.read? ⟨.quoted pieces .outside, ts⟩ =
      some ⟨.quoted ((cs.map .scalar).reverse ++ pieces) .outside, ts⟩ := by
  induction cs generalizing pieces with
  | nil => rfl
  | cons c cs ih =>
      rw [List.flatMap_cons, List.foldlM_append, read_escape]
      change (cs.flatMap escape).foldlM Lexer.read?
        ⟨.quoted (.scalar c :: pieces) .outside, ts⟩ = _
      rw [ih, List.map_cons, List.reverse_cons, List.append_assoc]
      rfl

/-- A quoted text is read up to its closing quote. -/
theorem read_quoted (text : String) (ts : List Token) :
    (text.toList.flatMap escape ++ ['"']).foldlM Lexer.read? ⟨.quoted [] .outside, ts⟩ =
      some ⟨.between, .string (some text) :: ts⟩ := by
  rw [List.foldlM_append, read_escapes, List.append_nil]
  simp [Lexer.read?, Escape.read?, Lexer.emit, Piece.text?_map_scalar]

/-! ## Readers at rest -/

/-- No token is under way, except perhaps a numeral that may end. -/
inductive Lexer.Rests : Lexer → List Token → Prop where
  | between (ts : List Token) : Rests ⟨.between, ts⟩ ts
  | numeral {phase : NumeralPhase} (n : Numeral) (ts : List Token)
      (complete : phase.complete = true) : Rests ⟨.numeral phase n, ts⟩ (.number n :: ts)

def endsNumeral (c : Char) : Bool :=
  !(c.isDigit || c == '.' || c == 'e' || c == 'E')

theorem NumeralPhase.read?_of_ends {phase : NumeralPhase} (complete : phase.complete = true)
    (n : Numeral) {c : Char} (ends : endsNumeral c = true) : phase.read? n c = none := by
  simp only [endsNumeral, Bool.not_eq_true', Bool.or_eq_false_iff, beq_eq_false_iff_ne] at ends
  obtain ⟨⟨⟨digit, point⟩, lower⟩, upper⟩ := ends
  cases phase with
  | zero | whole | fraction | exponent => simp [read?, digit, point, lower, upper]
  | sign | point | exponentMark | exponentSign => cases complete

namespace Lexer.Rests

/-- A character that ends numerals starts the next token. -/
theorem read? {l : Lexer} {ts : List Token} (rests : l.Rests ts) {c : Char}
    (ends : endsNumeral c = true) : l.read? c = Lexer.start? ⟨.between, ts⟩ c := by
  cases rests with
  | between ts => rfl
  | numeral n ts complete =>
      simp only [Lexer.read?, NumeralPhase.read?_of_ends complete n ends, complete, if_true]
      rfl

theorem finish? {l : Lexer} {ts : List Token} (rests : l.Rests ts) :
    l.finish? = some ts.reverse := by
  cases rests with
  | between ts => rfl
  | numeral n ts complete => simp [Lexer.finish?, complete, Lexer.emit]

end Lexer.Rests

/-! ## Lists of tokens -/

namespace Token

/-- A token that is written in a form that is read back as itself. -/
def Writable : Token → Prop
  | .number n => ∃ k, n = .ofNat k
  | .string text => text.isSome
  | _ => True

def isNumber : Token → Bool
  | .number _ => true
  | _ => false

/-- Tokens that do not run into each other. -/
def Separated (a b : Token) : Prop :=
  a.isNumber = false ∨ b.isNumber = false

/-- A token other than a numeral is read wherever the reader rests. -/
theorem read_of_not_isNumber {t : Token} (writable : t.Writable) (word : t.isNumber = false)
    {l : Lexer} {ts : List Token} (rests : l.Rests ts) :
    t.text.foldlM Lexer.read? l = some ⟨.between, t :: ts⟩ := by
  cases t with
  | number n => cases word
  | string text =>
      cases text with
      | none => cases writable
      | some text =>
          rw [Token.text, List.foldlM_cons, rests.read? (by decide)]
          exact read_quoted text ts
  | bool b =>
      cases b
      all_goals
        rw [Token.text, List.foldlM_cons, rests.read? (by decide)]
        rfl
  | openBrace | closeBrace | openBracket | closeBracket | comma | colon | null =>
      rw [Token.text, List.foldlM_cons, rests.read? (by decide)]
      rfl

/-- A token is read after any that it does not run into. -/
theorem read {t : Token} (writable : t.Writable) {l : Lexer} {ts : List Token}
    (rests : l.Rests ts) (separated : ∀ previous ∈ ts.head?, previous.Separated t) :
    ∃ l', t.text.foldlM Lexer.read? l = some l' ∧ l'.Rests (t :: ts) := by
  cases kind : t.isNumber with
  | false => exact ⟨_, read_of_not_isNumber writable kind rests, .between _⟩
  | true =>
      cases t with
      | number n =>
          obtain ⟨k, rfl⟩ := writable
          cases rests with
          | between ts =>
              obtain ⟨phase, complete, read⟩ := read_ofNat k ts
              exact ⟨_, read, .numeral _ ts complete⟩
          | numeral n ts complete =>
              rcases separated (.number n) rfl with absurdity | absurdity <;> cases absurdity
      | _ => cases kind

theorem read_all {tokens : List Token} (writable : ∀ t ∈ tokens, t.Writable)
    {l : Lexer} {ts : List Token} (rests : l.Rests ts)
    (separated : (ts.head?.toList ++ tokens).IsChain Separated) :
    ∃ l', (tokens.flatMap text).foldlM Lexer.read? l = some l' ∧
      l'.Rests (tokens.reverse ++ ts) := by
  induction tokens generalizing l ts with
  | nil => exact ⟨l, rfl, rests⟩
  | cons t tokens ih =>
      have first : ∀ previous ∈ ts.head?, previous.Separated t := fun previous mem => by
        rw [mem] at separated
        exact (List.isChain_cons_cons.mp separated).1
      have later : (t :: tokens).IsChain Separated := separated.right_of_append
      obtain ⟨between, readFirst, restsFirst⟩ := read (writable t (by simp)) rests first
      obtain ⟨final, readRest, restsFinal⟩ :=
        ih (fun other mem => writable other (by simp [mem])) restsFirst later
      refine ⟨final, ?_, ?_⟩
      · rw [List.flatMap_cons, List.foldlM_append, readFirst]
        exact readRest
      · rw [List.reverse_cons, List.append_assoc]
        exact restsFinal

/-- Tokens that do not run into each other are read back from their text. -/
theorem ofText?_flatMap_text {tokens : List Token} (writable : ∀ t ∈ tokens, t.Writable)
    (separated : tokens.IsChain Separated) :
    ofText? (tokens.flatMap text) = some tokens := by
  obtain ⟨final, readAll, rests⟩ := read_all writable (.between []) separated
  unfold ofText?
  rw [readAll, Option.bind_some, rests.finish?, List.append_nil, List.reverse_reverse]

end Token

/-! ## Control characters -/

/-- Neither an escape nor a character that needs none is a control character. -/
theorem escape_printable (c : Char) : ∀ d ∈ escape c, 0x20 ≤ d.toNat := by
  unfold escape
  by_cases control : c.toNat < 0x20
  · have digits : ∀ d < 16, 0x20 ≤ (Nat.digitChar d).toNat := by decide
    have high := digits (c.toNat / 16) (by omega)
    have low := digits (c.toNat % 16) (by omega)
    split_ifs
    all_goals simp [high, low]
  · split_ifs
    case neg => simpa using control
    all_goals simp

/-- Control characters are not written. -/
theorem Token.text_printable {t : Token} (writable : t.Writable) :
    ∀ c ∈ t.text, 0x20 ≤ c.toNat := by
  cases t with
  | number n =>
      obtain ⟨k, rfl⟩ := writable
      intro c mem
      have shape : (Numeral.ofNat k).text = Nat.toDigits 10 k := by
        simp [Numeral.text, Numeral.ofNat]
      rw [Token.text, shape] at mem
      have digit := Nat.isDigit_of_mem_toDigits (by decide) (by decide) mem
      have lower : '0'.toNat ≤ c.toNat := (Char.isDigit_iff_toNat.mp digit).1
      exact Nat.le_trans (by decide) lower
  | string text =>
      cases text with
      | none => cases writable
      | some text =>
          intro c mem
          rw [Token.text, List.mem_cons, List.mem_append, List.mem_flatMap,
            List.mem_singleton] at mem
          rcases mem with rfl | ⟨d, -, mem⟩ | rfl
          · decide
          · exact escape_printable d c mem
          · decide
  | bool b => cases b <;> simp [Token.text]
  | openBrace | closeBrace | openBracket | closeBracket | comma | colon | null =>
      simp [Token.text]

end BattleRoster.Json
