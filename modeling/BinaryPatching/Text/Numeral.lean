import BinaryPatching.Text.Blank

/-!
# `BinaryPatching.Text.Numeral` — numbers as text

## Contents
- **Writing.** `lowerHex`, `upperHex`, `hex8` (eight capital digits), `decimal`.
- **Reading.** `readNumeral` (digits only), `readUnsigned` (with the sign `+` allowed), `readSigned` (a 64-bit
  number with a sign of its own), `isLiteral` (the literals that instructions show), and `parseNumber`, the form
  that scripts and operands are written in.
-/

namespace BinaryPatching.Text

/-! ## Writing -/

/-- The decimal digits of a number. -/
def decimal (n : Nat) : String := String.ofList (Nat.toDigits 10 n)

/-- A whole number in decimal, with a minus sign when it is negative. -/
def signedDecimal (v : Int) : String :=
  if v < 0 then "-" ++ decimal v.natAbs else decimal v.natAbs

/-- The hexadecimal digits of a number, small letters. -/
def lowerHex (n : Nat) : String := String.ofList (Nat.toDigits 16 n)

/-- The hexadecimal digits of a number, capital letters. -/
def upperHex (n : Nat) : String := String.ofList ((Nat.toDigits 16 n).map Char.toUpper)

/-- A 32-bit word as eight hexadecimal digits, capital letters. -/
def hex8 (w : UInt32) : String :=
  String.ofList (((Nat.toDigits 16 w.toNat).map Char.toUpper).leftpad 8 '0')

/-- A 32-bit word as eight hexadecimal digits, small letters. -/
def lowerHex8 (w : UInt32) : String :=
  String.ofList ((Nat.toDigits 16 w.toNat).leftpad 8 '0')

@[simp] theorem toList_decimal (n : Nat) : (decimal n).toList = Nat.toDigits 10 n := by simp [decimal]

@[simp] theorem toList_lowerHex (n : Nat) : (lowerHex n).toList = Nat.toDigits 16 n := by simp [lowerHex]

/-- Eight digits are enough for a word, so its text always has exactly eight. -/
theorem length_hex8 (w : UInt32) : (hex8 w).toList.length = 8 := by
  have h : (Nat.toDigits 16 w.toNat).length ≤ 8 :=
    (Nat.length_toDigits_le_iff (by decide) (by decide)).2 w.toNat_lt
  simp only [hex8, String.toList_ofList, List.leftpad, List.length_append, List.length_replicate,
    List.length_map]
  omega

/-! ## Reading -/

/-- The value of a digit: decimal digits, then the letters of either case. -/
def digitValue (c : Char) : Option Nat :=
  if '0' ≤ c ∧ c ≤ '9' then some (c.toNat - 48)
  else if 'a' ≤ c ∧ c ≤ 'f' then some (c.toNat - 87)
  else if 'A' ≤ c ∧ c ≤ 'F' then some (c.toNat - 55)
  else none

/-- Whether the character is a digit in the base. -/
def isDigitOf (base : Nat) (c : Char) : Bool :=
  match digitValue c with
  | some d => d < base
  | none => false

/-- The number that the digits continue when `value` has been read. Any other character refuses the text. -/
def readDigits (base value : Nat) : List Char → Option Nat
  | [] => some value
  | c :: rest =>
    match digitValue c with
    | some d => if d < base then readDigits base (base * value + d) rest else none
    | none => none

/-- The number that one or more digits denote. -/
def readNumeral (base : Nat) (cs : List Char) : Option Nat :=
  if cs.isEmpty then none else readDigits base 0 cs

@[simp] theorem readNumeral_nil (base : Nat) : readNumeral base [] = none := rfl

/-- A numeral below `limit`. A plus sign may stand before the digits. -/
def readUnsigned (base limit : Nat) (cs : List Char) : Option Nat :=
  let digits := match cs with
    | '+' :: rest => rest
    | _ => cs
  (readNumeral base digits).filter (· < limit)

/-- A whole number that fits 64 bits in two's complement. A sign of either kind may stand before the digits. -/
def readSigned (base : Nat) (cs : List Char) : Option Int :=
  match cs with
  | '-' :: rest => ((readNumeral base rest).filter (· ≤ 0x8000000000000000)).map fun n => -(n : Int)
  | '+' :: rest => ((readNumeral base rest).filter (· < 0x8000000000000000)).map fun n => (n : Int)
  | _ => ((readNumeral base cs).filter (· < 0x8000000000000000)).map fun n => (n : Int)

/-- A whole number taken into the 64-bit range of two's complement. -/
def wrapSigned (v : Int) : Int := Int.bmod v 0x10000000000000000

/-- The digits after a hexadecimal mark, if the text begins with one. -/
def afterHexMark : List Char → Option (List Char)
  | '0' :: 'x' :: rest => some rest
  | '0' :: 'X' :: rest => some rest
  | _ => none

/-- Whether a text is a literal as instructions show it: decimal digits, or hexadecimal ones after `0x`, with an
    optional minus sign in front. -/
def isLiteral (cs : List Char) : Bool :=
  let magnitude := match cs with
    | '-' :: rest => rest
    | _ => cs
  let (base, digits) := match afterHexMark magnitude with
    | some rest => (16, rest)
    | none => (10, magnitude)
  !digits.isEmpty && digits.all (isDigitOf base)

/-- A number as scripts write it: decimal, or hexadecimal after `0x`, with a minus sign in front to negate it.
    The part after that sign is read by `readSigned`, so it may bear a sign of its own. -/
def parseNumber (text : String) : Option Int :=
  let cs := trim text.toList
  let (negative, digits) := match cs with
    | '-' :: rest => (true, rest)
    | _ => (false, cs)
  let value := match afterHexMark digits with
    | some rest => readSigned 16 rest
    | none => readSigned 10 digits
  value.map fun v => if negative then wrapSigned (-v) else v

/-- The low 32 bits of a number. -/
def lowWord (v : Int) : UInt32 := UInt32.ofNat (v % 0x100000000).toNat

end BinaryPatching.Text
