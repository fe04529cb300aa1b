import BinaryPatching.Bytes.Basic

/-!
# `BinaryPatching.Image.Checksum` — the checksum of an executable

The sum of all halfwords of the file, in which a carry out of sixteen bits is added in again at the low end, plus
the length of the file. The field that holds the checksum counts as zero.

## Contents
- `Checksum.blankField`: the file with its checksum field set to zero.
- `Checksum.foldCarry`, `Checksum.sumHalfwords`: the sum.
- `checksum`: the checksum.
-/

namespace BinaryPatching

namespace Checksum

/-- The bytes from `index` on, where the four bytes of the field at `field` count as zero. -/
def blankFieldFrom (field index : Nat) : Bytes → Bytes
  | [] => []
  | b :: rest =>
    (if field ≤ index ∧ index < field + 4 then 0 else b) :: blankFieldFrom field (index + 1) rest

/-- The data with the four bytes of a field set to zero. -/
def blankField (data : Bytes) (field : Nat) : Bytes := blankFieldFrom field 0 data

@[simp] theorem length_blankFieldFrom (field index : Nat) (data : Bytes) :
    (blankFieldFrom field index data).length = data.length := by
  induction data generalizing index with
  | nil => rfl
  | cons b rest ih => simp [blankFieldFrom, ih]

/-- The low sixteen bits and the carry out of them, added. -/
def foldCarry (sum : Nat) : Nat := sum % 65536 + sum / 65536

/-- The sum of the halfwords of the data, low byte first, added to `sum`; a last byte alone is a low byte. -/
def sumHalfwords (sum : Nat) : Bytes → Nat
  | [] => sum
  | [b] => foldCarry (sum + b.toNat)
  | b0 :: b1 :: rest => sumHalfwords (foldCarry (sum + (b0.toNat + b1.toNat * 256))) rest

end Checksum

open Checksum in
/-- The checksum of a file whose checksum field is at an offset. -/
def checksum (data : Bytes) (field : Nat) : UInt32 :=
  UInt32.ofNat (foldCarry (sumHalfwords 0 (blankField data field))) + UInt32.ofNat data.length

end BinaryPatching
