import BinaryPatching.Thumb.Encoding

/-!
# `BinaryPatching.Thumb.Encode` — the instructions that patches are made of

Unconditional branches, calls and no-operations. A branch has an encoding when its distance is even and fits the
field of the encoding.

## Contents
- `branchDistance`: what a branch adds to the program counter.
- `encodeShortBranch`, `encodeLongBranch`, `encodeCall`: branches of each kind.
- `encodeBranch`, `encodeNop`: instructions of a given size.
-/

namespace BinaryPatching.Thumb

/-- What a branch from one address to another adds to the program counter. -/
def branchDistance (source target : UInt32) : Int := (target.toNat : Int) - (source.toNat + 4)

/-- A branch of two bytes, up to two kilobytes away. -/
def encodeShortBranch (source target : UInt32) : Option Bytes :=
  let distance := branchDistance source target
  if distance % 2 = 0 ∧ -2048 ≤ distance ∧ distance ≤ 2046 then
    some (Bytes.ofWord16 (UInt16.ofNat (0xE000 + (distance % 4096).toNat / 2)))
  else none

/-- A long branch, up to sixteen megabytes away, whose second halfword has the bits `kind`. -/
def encodeLong (kind : Nat) (source target : UInt32) : Option Bytes :=
  let distance := branchDistance source target
  if distance % 2 = 0 ∧ -0x1000000 ≤ distance ∧ distance < 0x1000000 then
    let value := (distance % 0x2000000).toNat
    let sign := field value 24 1
    let hw1 := 0xF000 + sign <<< 10 + field value 12 10
    let hw2 := kind + (if field value 23 1 = sign then 0x2000 else 0)
      + (if field value 22 1 = sign then 0x800 else 0) + field value 1 11
    some (Bytes.ofWord16 (UInt16.ofNat hw1) ++ Bytes.ofWord16 (UInt16.ofNat hw2))
  else none

/-- A branch of four bytes. -/
def encodeLongBranch (source target : UInt32) : Option Bytes := encodeLong 0x9000 source target

/-- A call. -/
def encodeCall (source target : UInt32) : Option Bytes := encodeLong 0xD000 source target

/-- A branch of exactly `size` bytes. -/
def encodeBranch (size : UInt32) (source target : UInt32) : Option Bytes :=
  if size = 2 then encodeShortBranch source target
  else if size = 4 then encodeLongBranch source target
  else none

/-- An instruction of exactly `size` bytes that does nothing. -/
def encodeNop (size : UInt32) : Option Bytes :=
  if size = 2 then some [0x00, 0xBF]
  else if size = 4 then some [0xAF, 0xF3, 0x00, 0x80]
  else none

end BinaryPatching.Thumb
