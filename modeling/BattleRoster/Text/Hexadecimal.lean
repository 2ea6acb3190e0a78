/-!
# Hexadecimal numerals

Sets of bits are shown as `0x` and lower-case hexadecimal digits, padded with
zeros to a least number of digits.
-/

namespace BattleRoster.Text

/-- `0x` and at least `least` hexadecimal digits. -/
def writeHex (least n : Nat) : String :=
  let digits := Nat.toDigits 16 n
  String.ofList
    ('0' :: 'x' :: (List.replicate (least - digits.length) '0' ++ digits))

/-- Short numbers are padded and long ones are not cut. -/
example : writeHex 4 0x1f = "0x001f" ∧ writeHex 1 0 = "0x0" ∧
    writeHex 4 0x80000000 = "0x80000000" := by
  decide

end BattleRoster.Text
