import BinaryPatching.Bytes.Basic

/-!
# `BinaryPatching.Thumb.Encoding` — fields of encodings and addresses

Encodings are taken apart by division and remainder, so that every fact about a field is one of arithmetic.

## Contents
- `field`: a stretch of bits as a number.
- `extendSign`: a signed field as an amount to add to an address.
- `evenPart`, `wordPart`: addresses rounded down.
- `isWide`: the first halfwords that a second one follows.
-/

namespace BinaryPatching.Thumb

/-- The number in the bits of `n` from `low` on, `width` of them. -/
def field (n low width : Nat) : Nat := (n >>> low) % (1 <<< width)

/-- Whether a bit is set. -/
def flag (n bit : Nat) : Bool := field n bit 1 = 1

theorem field_lt (n low width : Nat) : field n low width < 1 <<< width :=
  Nat.mod_lt _ (by rw [Nat.one_shiftLeft]; exact Nat.two_pow_pos width)

/-- What a field of a number of bits in two's complement adds to an address. -/
def extendSign (bits value : Nat) : UInt32 :=
  if value < 1 <<< (bits - 1) then UInt32.ofNat value else UInt32.ofNat (value + 0x100000000 - 1 <<< bits)

/-- An address rounded down to an even one. -/
def evenPart (a : UInt32) : UInt32 := a - a % 2

/-- An address rounded down to a multiple of four. -/
def wordPart (a : UInt32) : UInt32 := a - a % 4

theorem toNat_evenPart (a : UInt32) : (evenPart a).toNat = a.toNat / 2 * 2 := by
  have h : a % 2 ≤ a := by rw [UInt32.le_iff_toNat_le, UInt32.toNat_mod]; exact Nat.mod_le _ _
  rw [evenPart, UInt32.toNat_sub_of_le _ _ h, UInt32.toNat_mod]
  simp
  omega

theorem toNat_wordPart (a : UInt32) : (wordPart a).toNat = a.toNat / 4 * 4 := by
  have h : a % 4 ≤ a := by rw [UInt32.le_iff_toNat_le, UInt32.toNat_mod]; exact Nat.mod_le _ _
  rw [wordPart, UInt32.toNat_sub_of_le _ _ h, UInt32.toNat_mod]
  simp
  omega

/-- What an instruction sees as the program counter. -/
def counterAt (address : UInt32) : UInt32 := address + 4

/-- A first halfword that a second one belongs to. -/
def isWide (hw : Nat) : Bool := 29 ≤ field hw 11 5

end BinaryPatching.Thumb
