import BinaryPatching.Bytes.Basic
import BinaryPatching.Text.Numeral

/-!
# `BinaryPatching.Bytes.Hex` — byte strings as hexadecimal text

## Contents
- `Bytes.hex`: two capital digits for every byte.
- `Bytes.ofHex?`: the bytes of a text of such pairs, either case, blanks around it allowed.
-/

namespace BinaryPatching.Bytes

open Text

/-- The hexadecimal digit of a number below sixteen. -/
def hexDigit (n : Nat) : Char := if n < 10 then Char.ofNat (48 + n) else Char.ofNat (55 + n)

/-- The two digits of a byte. -/
def hexPair (b : UInt8) : List Char := [hexDigit (b.toNat / 16), hexDigit (b.toNat % 16)]

/-- Two capital hexadecimal digits for every byte, without separators. -/
def hex (data : Bytes) : String := String.ofList (data.flatMap hexPair)

theorem toList_hex (data : Bytes) : (hex data).toList = data.flatMap hexPair := by simp [hex]

theorem length_hex (data : Bytes) : (hex data).toList.length = 2 * data.length := by
  rw [toList_hex]
  induction data with
  | nil => rfl
  | cons b rest ih => simp [List.flatMap_cons, hexPair] at *; omega

/-- The byte that two characters denote, read as an unsigned number of two places. -/
def bytePair? (a b : Char) : Option UInt8 := (readUnsigned 16 256 [a, b]).map UInt8.ofNat

/-- The bytes of a text of pairs. -/
def ofPairs? : List Char → Option Bytes
  | [] => some []
  | [_] => none
  | a :: b :: rest =>
    match bytePair? a b, ofPairs? rest with
    | some byte, some bytes => some (byte :: bytes)
    | _, _ => none

/-- The bytes that a text of hexadecimal pairs denotes. -/
def ofHex? (text : String) : Option Bytes := ofPairs? (trim text.toList)

end BinaryPatching.Bytes
