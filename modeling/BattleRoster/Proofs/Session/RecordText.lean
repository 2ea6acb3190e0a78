import BattleRoster.Proofs.Json.RoundTrip
import BattleRoster.Proofs.Text.Pieces
import BattleRoster.Session.Record

/-!
# The text of a saved game

Every record is written as an object whose names are distinct, and every field
in a form that its decoder takes, so a saved game is read back from its text.
The text is one line without a blank at either end.
-/

namespace BattleRoster

open Json

/-! ## Decoders and the forms that they take -/

/-- Reading is complete when every item is read. -/
theorem mapM_eq_some_iff {α β : Type} {read : α → Option β} {as : List α} {bs : List β} :
    as.mapM read = some bs ↔ List.Forall₂ (fun a b => read a = some b) as bs := by
  induction as generalizing bs with
  | nil =>
      rw [List.mapM_nil, List.forall₂_nil_left_iff, eq_comm, Option.pure_def, Option.some.injEq]
  | cons a as ih =>
      rw [List.mapM_cons, List.forall₂_cons_left_iff]
      simp only [Option.bind_eq_bind, Option.bind_eq_some_iff, Option.pure_def, Option.some.injEq,
        ih, exists_and_left, eq_comm (a := bs)]

theorem mapM_map_eq_some {α β γ : Type} {write : α → β} {read : β → Option γ}
    {meant : α → γ} {as : List α} (reads : ∀ a ∈ as, read (write a) = some (meant a)) :
    (as.map write).mapM read = some (as.map meant) := by
  rw [mapM_eq_some_iff, List.forall₂_map_left_iff, List.forall₂_map_right_iff]
  exact List.forall₂_same.mpr reads

namespace Json

namespace Decoder

theorem natBelow_ofNat {n bound : Nat} (lt : n < bound) :
    natBelow bound (.ofNat n) = some n := by
  simp [natBelow, integer, Value.ofNat, lt]

theorem uint8_toNat (n : UInt8) : uint8 (.ofNat n.toNat) = some n := by
  simp [uint8, natBelow_ofNat n.toNat_lt_size]

theorem uint32_toNat (n : UInt32) : uint32 (.ofNat n.toNat) = some n := by
  simp [uint32, natBelow_ofNat n.toNat_lt_size]

theorem uint64_toNat (n : UInt64) : uint64 (.ofNat n.toNat) = some n := by
  simp [uint64, natBelow_ofNat n.toNat_lt_size]

theorem list_map {α : Type} {item : Decoder α} {write : α → Value} {as : List α}
    (reads : ∀ a ∈ as, item (write a) = some a) :
    list item (.array (as.map write)) = some as := by
  rw [list, mapM_map_eq_some reads, List.map_id']

theorem list_eq_some_iff {α : Type} {item : Decoder α} {v : Value} {as : List α} :
    list item v = some as ↔
      ∃ items, v = .array items ∧ List.Forall₂ (fun v a => item v = some a) items as := by
  cases v with
  | array items => simp [list, mapM_eq_some_iff]
  | _ => simp [list]

theorem members_ofMembers (members : List (String × Value)) :
    Decoder.members (.ofMembers members) = some members := by
  have kept : (members.map fun member => (some member.1, member.2)).mapM
      (fun member : Option String × Value => do return (← member.1, member.2)) =
        some (members.map id) :=
    mapM_map_eq_some fun _ _ => rfl
  rw [List.map_id] at kept
  exact kept

end Decoder

namespace Field

theorem named?_of_mem {members : List (String × Value)} (distinct : (members.map Prod.fst).Nodup)
    {member : String × Value} (mem : member ∈ members) :
    named? members member.1 = some (.present member.2) := by
  have only : members.filter (·.1 == member.1) = [member] := by
    induction members with
    | nil => cases mem
    | cons head members ih =>
        obtain ⟨fresh, distinct⟩ := List.nodup_cons.mp distinct
        rcases List.mem_cons.mp mem with rfl | mem
        · have none : members.filter (·.1 == member.1) = [] := by
            rw [List.filter_eq_nil_iff]
            intro other among same
            exact fresh (List.mem_map.mpr ⟨other, among, by simpa using same⟩)
          rw [List.filter_cons_of_pos (by simp), none]
        · have other : head.1 ≠ member.1 := fun same =>
            fresh (List.mem_map.mpr ⟨member, mem, same.symm⟩)
          rw [List.filter_cons_of_neg (by simpa using other), ih distinct mem]
  rw [named?, only]

/-- The fields of an object with distinct names are its values in order. -/
theorem ofRecord?_ofMembers {names : List String} {members : List (String × Value)}
    (listed : members.map Prod.fst = names) (distinct : names.Nodup) :
    ofRecord? names (.ofMembers members) =
      some (members.map fun member => .present member.2) := by
  subst listed
  have shape : ofRecord? (members.map Prod.fst) (.ofMembers members) =
      (Decoder.members (.ofMembers members)).bind fun read =>
        (members.map Prod.fst).mapM (named? read) := rfl
  rw [shape, Decoder.members_ofMembers]
  exact mapM_map_eq_some fun member mem => named?_of_mem distinct mem

end Field

end Json

/-! ## Records are read back -/

theorem Controller.choice_toJson (c : Controller) :
    Decoder.choice Controller.names c.toJson = some c := by
  cases c <;> rfl

theorem Stance.choice_toJson (s : Stance) :
    Decoder.choice Stance.names s.toJson = some s := by
  cases s <;> rfl

theorem TeamId.decode_toJson (id : TeamId) : TeamId.decode id.toJson = some id := by
  rw [TeamId.decode, TeamId.toJson, Decoder.uint32_toNat]
  rfl

theorem TeamId.nullable_toJson (id : TeamId) :
    Decoder.nullable TeamId.decode id.toJson = some (some id) := by
  change (TeamId.decode id.toJson).map some = _
  rw [TeamId.decode_toJson]
  rfl

theorem UpgradeSet.decode_toJson (s : UpgradeSet) : UpgradeSet.decode s.toJson = some s := by
  have below : s.bits.toNat < 1 <<< 128 := Nat.lt_of_lt_of_le s.bits.isLt (by decide)
  rw [UpgradeSet.decode, UpgradeSet.toJson, Decoder.natBelow_ofNat below]
  simp

theorem PlayerRecord.decode_toJson (p : PlayerRecord) :
    PlayerRecord.decode p.toJson = some p := by
  have entry (team : TeamId) (stance : Stance) :
      Decoder.pair TeamId.decode (Decoder.choice Stance.names)
        (.array [team.toJson, stance.toJson]) = some (team, stance) := by
    simp [Decoder.pair, TeamId.decode_toJson, Stance.choice_toJson]
  rcases p with ⟨name, controller, defaultTeam, stances, upgrades⟩
  rw [decode, toJson, Field.ofRecord?_ofMembers]
  case listed => rfl
  case distinct => decide
  cases defaultTeam with
  | none =>
      simp [Field.required, Field.optional, Decoder.string, Value.ofString, Decoder.nullable,
        Controller.choice_toJson, Decoder.list_map, entry, UpgradeSet.decode_toJson]
  | some team =>
      simp [Field.required, Field.optional, Decoder.string, Value.ofString,
        TeamId.nullable_toJson, Controller.choice_toJson, Decoder.list_map, entry,
        UpgradeSet.decode_toJson]

theorem RosterRecord.decode_toJson (r : RosterRecord) :
    RosterRecord.decode r.toJson = some r := by
  have players := Decoder.list_map fun p (_ : p ∈ r.players) => PlayerRecord.decode_toJson p
  rw [decode, toJson, Field.ofRecord?_ofMembers]
  case listed => rfl
  case distinct => decide
  simp [Field.required, players, Decoder.uint8_toNat, Decoder.uint64_toNat]

theorem GateRecord.decode_toJson (g : GateRecord) : GateRecord.decode g.toJson = some g := by
  rw [decode, toJson, Field.ofRecord?_ofMembers]
  case listed => rfl
  case distinct => decide
  simp [Field.required, Decoder.uint8_toNat, Decoder.bool]

theorem ObjectRecord.decode_toJson (o : ObjectRecord) :
    ObjectRecord.decode o.toJson = some o := by
  have modules := Decoder.list_map fun g (_ : g ∈ o.modules) => GateRecord.decode_toJson g
  rw [decode, toJson, Field.ofRecord?_ofMembers]
  case listed => rfl
  case distinct => decide
  simp [Field.required, modules, Decoder.string, Value.ofString]

theorem GameRecord.decode_toJson (g : GameRecord) : GameRecord.decode g.toJson = some g := by
  have objects := Decoder.list_map fun o (_ : o ∈ g.objects) => ObjectRecord.decode_toJson o
  rw [decode, toJson, Field.ofRecord?_ofMembers]
  case listed => rfl
  case distinct => decide
  simp [Field.required, RosterRecord.decode_toJson, objects]

/-! ## Records are plain -/

open Value (Plain)

theorem Value.plain_map {α : Type} {write : α → Value} (as : List α)
    (plain : ∀ a, (write a).Plain) : (Value.array (as.map write)).Plain := by
  refine .array fun v mem => ?_
  obtain ⟨a, -, rfl⟩ := List.mem_map.mp mem
  exact plain a

theorem Controller.plain_toJson (c : Controller) : c.toJson.Plain := by
  cases c <;> exact .ofString _

theorem Stance.plain_toJson (s : Stance) : s.toJson.Plain := by
  cases s <;> exact .ofString _

theorem PlayerRecord.plain_toJson (p : PlayerRecord) : p.toJson.Plain := by
  refine .ofMembers ?_
  simp only [List.forall_mem_cons]
  refine ⟨.ofString _, p.controller.plain_toJson, ?_, Value.plain_map _ ?_, .ofNat _, by simp⟩
  · cases p.defaultTeam with
    | none => exact .null
    | some team => exact .ofNat _
  · rintro ⟨team, stance⟩
    refine .array ?_
    simp only [List.forall_mem_cons]
    exact ⟨.ofNat _, stance.plain_toJson, by simp⟩

theorem RosterRecord.plain_toJson (r : RosterRecord) : r.toJson.Plain := by
  refine .ofMembers ?_
  simp only [List.forall_mem_cons]
  exact ⟨.ofNat _, .ofNat _, Value.plain_map _ PlayerRecord.plain_toJson, by simp⟩

theorem GateRecord.plain_toJson (g : GateRecord) : g.toJson.Plain := by
  refine .ofMembers ?_
  simp only [List.forall_mem_cons]
  exact ⟨.ofNat _, .bool _, by simp⟩

theorem ObjectRecord.plain_toJson (o : ObjectRecord) : o.toJson.Plain := by
  refine .ofMembers ?_
  simp only [List.forall_mem_cons]
  exact ⟨.ofString _, Value.plain_map _ GateRecord.plain_toJson, by simp⟩

namespace GameRecord

theorem plain_toJson (g : GameRecord) : g.toJson.Plain := by
  refine .ofMembers ?_
  simp only [List.forall_mem_cons]
  exact ⟨g.roster.plain_toJson, Value.plain_map _ ObjectRecord.plain_toJson, by simp⟩

/-! ## The text -/

/-- A saved game is read back from its text. -/
theorem read?_encode (g : GameRecord) : read? g.encode = some g := by
  unfold read? encode
  rw [Value.read?_write g.plain_toJson]
  exact decode_toJson g

/-- The text of a saved game is a single line. -/
theorem encode_printable (g : GameRecord) : ∀ c ∈ g.encode.toList, 0x20 ≤ c.toNat :=
  Value.write_printable g.plain_toJson

/-- The text of a saved game stands between braces. -/
theorem encode_braces (g : GameRecord) :
    ∃ inside, g.encode.toList = '{' :: (inside ++ ['}']) :=
  Value.write_ofMembers _

theorem encode_ne_empty (g : GameRecord) : g.encode ≠ "" := by
  obtain ⟨inside, braces⟩ := g.encode_braces
  intro empty
  rw [empty] at braces
  cases braces

/-- Neither end of the text is blank. -/
theorem encode_trimmed (g : GameRecord) : Text.IsTrimmed g.encode := by
  obtain ⟨inside, braces⟩ := g.encode_braces
  have whole : Text.trimmed ('{' :: (inside ++ ['}'])) = '{' :: (inside ++ ['}']) :=
    Text.trimmed_of_ends (by decide) (by decide) inside
  rw [← braces] at whole
  rw [Text.IsTrimmed, Text.trim, whole, String.ofList_toList]

/--
Nothing of a saved game is lost in its text, whatever numbers, names and lists
it holds; and the text can be sent as one line, since no character of it ends a
line and nothing would be trimmed.
-/
theorem encode_lossless (g : GameRecord) :
    read? g.encode = some g ∧ '\n' ∉ g.encode.toList ∧ '\r' ∉ g.encode.toList ∧
      Text.IsTrimmed g.encode := by
  have unbroken {c : Char} (control : c.toNat < 0x20) : c ∉ g.encode.toList := by
    intro mem
    have printable := g.encode_printable c mem
    omega
  exact ⟨g.read?_encode, unbroken (by decide), unbroken (by decide), g.encode_trimmed⟩

end GameRecord

end BattleRoster
