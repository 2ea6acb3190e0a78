import BattleRoster.Json.Text
import BattleRoster.Proofs.Json.Lexing

/-!
# Written values are read back

The tokens of a value lead the reader of values from the place of the value to
the value delivered there, whatever containers are open around it.  Between two
values there is always a mark, so the tokens are also read back from their text.
-/

namespace BattleRoster.Json

/-! ## From tokens to values -/

theorem Value.tokens_head (v : Value) :
    ∃ first rest, v.tokens = first :: rest ∧ first ≠ .closeBracket := by
  cases v with
  | null | bool b | number n | string text => exact ⟨_, [], rfl, by simp⟩
  | array items => cases items <;> exact ⟨.openBracket, _, rfl, by simp⟩
  | object members => cases members <;> exact ⟨.openBrace, _, rfl, by simp⟩

namespace Reading

/-- The first item of an array is read like any other value. -/
theorem read_firstItem (v : Value) (around : List Frame) :
    v.tokens.foldlM read? (.firstItem around) =
      v.tokens.foldlM read? (.value (.item [] :: around)) := by
  obtain ⟨first, rest, shape, item⟩ := v.tokens_head
  have same : read? (.firstItem around) first = read? (.value (.item [] :: around)) first := by
    cases first <;> first
      | rfl
      | exact absurd rfl item
  rw [shape, List.foldlM_cons, List.foldlM_cons, same]

mutual

/-- The tokens of a value deliver it to the containers that are open. -/
theorem read_value : ∀ (v : Value) (around : List Frame),
    v.tokens.foldlM read? (.value around) = some (deliver v around)
  | .null, _ | .bool _, _ | .number _, _ | .string _, _ => rfl
  | .array [], _ | .object [], _ => rfl
  | .array (item :: items), around => by
      rw [Value.tokens, List.foldlM_cons]
      change (item.tokens ++ Value.itemTokens items).foldlM read? (.firstItem around) = _
      rw [List.foldlM_append, read_firstItem, read_value item]
      exact read_items items around [item]
  | .object ((name, v) :: members), around => by
      rw [Value.tokens, List.foldlM_cons]
      change (v.tokens ++ Value.memberTokens members).foldlM read?
        (.value (.member [] name :: around)) = _
      rw [List.foldlM_append, read_value v]
      exact read_members members around [(name, v)]

/-- The items after some of an array complete it. -/
theorem read_items : ∀ (items : List Value) (around : List Frame) (latestFirst : List Value),
    (Value.itemTokens items).foldlM read? (.afterItem around latestFirst) =
      some (deliver (.array (latestFirst.reverse ++ items)) around)
  | [], around, latestFirst => by
      rw [List.append_nil]
      rfl
  | item :: items, around, latestFirst => by
      rw [Value.itemTokens, List.foldlM_cons]
      change (item.tokens ++ Value.itemTokens items).foldlM read?
        (.value (.item latestFirst :: around)) = _
      rw [List.foldlM_append, read_value item]
      change (Value.itemTokens items).foldlM read? (.afterItem around (item :: latestFirst)) = _
      rw [read_items items, List.reverse_cons, List.append_assoc]
      rfl

/-- The members after some of an object complete it. -/
theorem read_members : ∀ (members : List (Option String × Value)) (around : List Frame)
    (latestFirst : List (Option String × Value)),
    (Value.memberTokens members).foldlM read? (.afterMember around latestFirst) =
      some (deliver (.object (latestFirst.reverse ++ members)) around)
  | [], around, latestFirst => by
      rw [List.append_nil]
      rfl
  | (name, v) :: members, around, latestFirst => by
      rw [Value.memberTokens, List.foldlM_cons]
      change (v.tokens ++ Value.memberTokens members).foldlM read?
        (.value (.member latestFirst name :: around)) = _
      rw [List.foldlM_append, read_value v]
      change (Value.memberTokens members).foldlM read?
        (.afterMember around ((name, v) :: latestFirst)) = _
      rw [read_members members, List.reverse_cons, List.append_assoc]
      rfl

end

end Reading

namespace Value

theorem ofTokens?_tokens (v : Value) : ofTokens? v.tokens = some v := by
  unfold ofTokens?
  rw [Reading.read_value]
  rfl

end Value

/-! ## From text to tokens -/

namespace Token

/-- A mark may follow and precede any token. -/
theorem separated_cons {t : Token} (mark : t.isNumber = false) {ts : List Token}
    (separated : ts.IsChain Separated) : (t :: ts).IsChain Separated :=
  List.isChain_cons.mpr ⟨fun _ _ => .inl mark, separated⟩

theorem separated_append {ts us : List Token} (left : ts.IsChain Separated)
    (right : us.IsChain Separated) (mark : ∀ u ∈ us.head?, u.isNumber = false) :
    (ts ++ us).IsChain Separated :=
  List.isChain_append.mpr ⟨left, right, fun _ _ u mem => .inr (mark u mem)⟩

end Token

namespace Value

open Token

theorem itemTokens_head (items : List Value) :
    ∀ t ∈ (itemTokens items).head?, t.isNumber = false := by
  cases items with
  | nil | cons item items =>
      rintro _ ⟨⟩
      rfl

theorem memberTokens_head (members : List (Option String × Value)) :
    ∀ t ∈ (memberTokens members).head?, t.isNumber = false := by
  cases members with
  | nil | cons member members =>
      rintro _ ⟨⟩
      rfl

mutual

/-- No two numerals of a value stand next to each other. -/
theorem separated_tokens : ∀ v : Value, v.tokens.IsChain Separated
  | .null | .bool _ | .number _ | .string _ => .singleton _
  | .array [] | .object [] => separated_cons rfl (.singleton _)
  | .array (item :: items) =>
      separated_cons rfl (separated_append (separated_tokens item)
        (separated_itemTokens items) (itemTokens_head items))
  | .object ((_, v) :: members) =>
      separated_cons rfl (separated_cons rfl (separated_cons rfl
        (separated_append (separated_tokens v) (separated_memberTokens members)
          (memberTokens_head members))))

theorem separated_itemTokens : ∀ items : List Value, (itemTokens items).IsChain Separated
  | [] => .singleton _
  | item :: items =>
      separated_cons rfl (separated_append (separated_tokens item)
        (separated_itemTokens items) (itemTokens_head items))

theorem separated_memberTokens : ∀ members : List (Option String × Value),
    (memberTokens members).IsChain Separated
  | [] => .singleton _
  | (_, v) :: members =>
      separated_cons rfl (separated_cons rfl (separated_cons rfl
        (separated_append (separated_tokens v) (separated_memberTokens members)
          (memberTokens_head members))))

end

/-! ## Values that are written as they are -/

/-- A value that holds natural numbers and texts only, besides marks and words. -/
inductive Plain : Value → Prop where
  | null : Plain .null
  | bool (b : Bool) : Plain (.bool b)
  | ofNat (n : Nat) : Plain (.ofNat n)
  | ofString (s : String) : Plain (.ofString s)
  | array {items : List Value} (plain : ∀ v ∈ items, Plain v) : Plain (.array items)
  | ofMembers {members : List (String × Value)}
      (plain : ∀ member ∈ members, Plain member.2) : Plain (.ofMembers members)

theorem writable_itemTokens {items : List Value}
    (writable : ∀ v ∈ items, ∀ t ∈ v.tokens, t.Writable) :
    ∀ t ∈ itemTokens items, t.Writable := by
  induction items with
  | nil => simp [itemTokens, Writable]
  | cons item items ih =>
      intro t mem
      simp only [itemTokens, List.mem_cons, List.mem_append] at mem
      rcases mem with rfl | mem | mem
      · trivial
      · exact writable item (by simp) t mem
      · exact ih (fun v other => writable v (by simp [other])) t mem

theorem writable_memberTokens {members : List (String × Value)}
    (writable : ∀ member ∈ members, ∀ t ∈ member.2.tokens, t.Writable) :
    ∀ t ∈ memberTokens (members.map fun member => (some member.1, member.2)), t.Writable := by
  induction members with
  | nil => simp [memberTokens, Writable]
  | cons member members ih =>
      intro t mem
      simp only [List.map_cons, memberTokens, List.mem_cons, List.mem_append] at mem
      rcases mem with rfl | rfl | rfl | mem | mem
      · trivial
      · rfl
      · trivial
      · exact writable member (by simp) t mem
      · exact ih (fun other among => writable other (by simp [among])) t mem

theorem Plain.writable {v : Value} (plain : v.Plain) : ∀ t ∈ v.tokens, t.Writable := by
  induction plain with
  | null => simp [tokens, Writable]
  | bool b => simp [tokens, Writable]
  | ofNat n =>
      intro t mem
      obtain rfl := List.mem_singleton.mp mem
      exact ⟨n, rfl⟩
  | ofString s =>
      intro t mem
      obtain rfl := List.mem_singleton.mp mem
      rfl
  | @array items _ ih =>
      -- the items after a comma and the first one, which has none, are written alike
      cases items with
      | nil => simp [tokens, Writable]
      | cons item items =>
          intro t mem
          rw [tokens, List.mem_cons] at mem
          rcases mem with rfl | mem
          · trivial
          · exact writable_itemTokens ih t (by rw [itemTokens]; exact .tail _ mem)
  | @ofMembers members _ ih =>
      cases members with
      | nil => simp [Value.ofMembers, tokens, Writable]
      | cons member members =>
          intro t mem
          rw [Value.ofMembers, List.map_cons, tokens, List.mem_cons] at mem
          rcases mem with rfl | mem
          · trivial
          · exact writable_memberTokens ih t
              (by rw [List.map_cons, memberTokens]; exact .tail _ mem)

/-- A plain value is read back from its text. -/
theorem read?_write {v : Value} (plain : v.Plain) : read? v.write = some v := by
  unfold read? write
  rw [String.toList_ofList, ofText?_flatMap_text plain.writable (separated_tokens v)]
  exact ofTokens?_tokens v

/-- A plain value is written without control characters. -/
theorem write_printable {v : Value} (plain : v.Plain) :
    ∀ c ∈ v.write.toList, 0x20 ≤ c.toNat := by
  intro c mem
  rw [write, String.toList_ofList, List.mem_flatMap] at mem
  obtain ⟨t, token, mem⟩ := mem
  exact text_printable (plain.writable t token) c mem

theorem memberTokens_closed (members : List (Option String × Value)) :
    ∃ before, memberTokens members = before ++ [.closeBrace] := by
  induction members with
  | nil => exact ⟨[], rfl⟩
  | cons member members ih =>
      obtain ⟨before, shape⟩ := ih
      refine ⟨.comma :: .string member.1 :: .colon :: (member.2.tokens ++ before), ?_⟩
      rw [memberTokens, shape]
      simp

/-- The text of an object stands between braces. -/
theorem write_ofMembers (members : List (String × Value)) :
    ∃ inside, (ofMembers members).write.toList = '{' :: (inside ++ ['}']) := by
  cases members with
  | nil => exact ⟨[], rfl⟩
  | cons member members =>
      obtain ⟨before, shape⟩ :=
        memberTokens_closed (members.map fun member => (some member.1, member.2))
      refine ⟨(.string (some member.1) :: .colon :: (member.2.tokens ++ before)).flatMap text,
        ?_⟩
      rw [write, String.toList_ofList, ofMembers, List.map_cons, tokens, shape]
      simp [text]

end Value

end BattleRoster.Json
