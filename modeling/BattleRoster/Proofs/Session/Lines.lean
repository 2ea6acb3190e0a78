import BattleRoster.Proofs.Text.OneLine
import BattleRoster.Session.Console

/-!
# Lines

A text without a line feed is one line of the input and of the output: in UTF-8
only the line feed itself has its byte.
-/

namespace BattleRoster

/-! ## Bytes -/

theorem toList_toUTF8 (s : String) :
    s.toUTF8.data.toList = s.toList.flatMap String.utf8EncodeChar := by
  rw [String.toUTF8_eq_toByteArray, ← String.utf8Encode_toList, List.utf8Encode,
    List.toList_data_toByteArray]

theorem fromUTF8?_toUTF8 (s : String) : String.fromUTF8? s.toUTF8 = some s := by
  rw [String.toUTF8_eq_toByteArray]
  exact dif_pos s.isValidUTF8

/-- The byte of the line feed is part of no other character. -/
theorem lineFeed_of_mem_utf8 {c : Char} (mem : 10 ∈ String.utf8EncodeChar c) : c = '\n' := by
  have value {n : Nat} (same : 10 = UInt8.ofNat n) : n % 256 = 10 := by
    have bytes := congrArg UInt8.toNat same
    rw [UInt8.toNat_ofNat'] at bytes
    exact bytes.symm
  unfold String.utf8EncodeChar at mem
  dsimp only at mem
  split at mem
  · have code := value (List.mem_singleton.mp mem)
    apply Char.ext
    apply UInt32.toNat_inj.mp
    change c.val.toNat = 10
    omega
  -- every byte of a longer code has its highest bit set
  · split at mem
    · simp only [List.mem_cons, List.not_mem_nil, or_false] at mem
      rcases mem with same | same
      all_goals
        have code := value same
        omega
    · split at mem
      · simp only [List.mem_cons, List.not_mem_nil, or_false] at mem
        rcases mem with same | same | same
        all_goals
          have code := value same
          omega
      · simp only [List.mem_cons, List.not_mem_nil, or_false] at mem
        rcases mem with same | same | same | same
        all_goals
          have code := value same
          omega

theorem lineFeed_not_mem_toUTF8 {s : String} (line : '\n' ∉ s.toList) :
    ∀ byte ∈ s.toUTF8.data.toList, (byte == 10) = false := by
  intro byte mem
  rw [toList_toUTF8, List.mem_flatMap] at mem
  obtain ⟨c, among, mem⟩ := mem
  rw [beq_eq_false_iff_ne]
  rintro rfl
  exact line (lineFeed_of_mem_utf8 mem ▸ among)

/-! ## Lines of the input and the output -/

/-- Every response ends a line. -/
theorem Response.toList_write (rs : List Response) :
    (Response.write rs).toList = rs.flatMap fun r => r.line.toList ++ ['\n'] := by
  have written (rs : List Response) (text : String) :
      (rs.foldl (fun text response => text ++ response.line ++ "\n") text).toList =
        text.toList ++ rs.flatMap fun r => r.line.toList ++ ['\n'] := by
    induction rs generalizing text with
    | nil => simp
    | cons r rs ih => simp [ih]
  exact written rs ""

/-- What is written is the lines of the responses, if each of them is a line. -/
theorem Response.splitOn_write {rs : List Response} (lines : ∀ r ∈ rs, Text.IsLine r.line) :
    Text.splitOn '\n' (Response.write rs) = rs.map Response.line ++ [""] := by
  rw [Text.splitOn, Response.toList_write]
  induction rs with
  | nil => rfl
  | cons r rs ih =>
      have inside : ∀ c ∈ r.line.toList, (c == '\n') = false := by
        intro c mem
        rw [beq_eq_false_iff_ne]
        rintro rfl
        exact lines r List.mem_cons_self mem
      have rest := ih fun other mem => lines other (List.mem_cons_of_mem _ mem)
      rw [List.flatMap_cons, List.append_assoc, List.singleton_append,
        Text.pieces_append_cut _ inside rfl, List.map_cons, rest, String.ofList_toList]
      rfl

/-- A line and its end are read as that line, after which nothing is left. -/
theorem Console.inputLines_line {line : String} (single : '\n' ∉ line.toList) :
    Console.inputLines (line ++ "\n").toUTF8 = [line.toUTF8, ByteArray.empty] := by
  have bytes : (line ++ "\n").toUTF8.data.toList = line.toUTF8.data.toList ++ 10 :: [] := by
    rw [toList_toUTF8, String.toList_append, List.flatMap_append, ← toList_toUTF8]
    rfl
  rw [inputLines, bytes, Text.pieces_append_cut [] (lineFeed_not_mem_toUTF8 single) rfl]
  rfl

end BattleRoster
