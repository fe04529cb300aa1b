import BinaryPatching.Image.Checksum
import Mathlib.Algebra.BigOperators.Group.Finset.Basic

/-!
# `BinaryPatching.Proofs.Image.EndAroundCarry` — the checksum as one sum

The checksum adds a carry out of sixteen bits in again after every halfword. The usual definition sums up all halfwords
first and folds the sum only once, at the end. Folding keeps a number modulo 65535 and makes zero of zero only, and a
number of sixteen bits is known from these two. So both ways come to the same.

## Contents
- `endAround`, `eq_endAround`: a number folded to sixteen bits, and how it is known.
- `byteOutside`, `halfwordSum`: the halfwords of a file, summed up as they are.
- `Carries`, `carries_sumHalfwords`: what holds of the sum while it is made.
- `toNat_checksum`: the checksum.
- `checksum_overwrite_field`: what is in the field does not matter.
-/

namespace BinaryPatching

namespace Checksum

/-! ## Folding a sum -/

/-- **A number folded to sixteen bits**: what is above them is added in again at the low end, as often as it takes. -/
def endAround (n : Nat) : Nat :=
  if n < 65536 then n else endAround (n % 65536 + n / 65536)

theorem endAround_of_lt {n : Nat} (h : n < 65536) : endAround n = n := by
  rw [endAround, if_pos h]

theorem endAround_of_le {n : Nat} (h : 65536 ≤ n) : endAround n = endAround (n % 65536 + n / 65536) := by
  rw [endAround, if_neg (Nat.not_lt.2 h)]

theorem endAround_lt (n : Nat) : endAround n < 65536 := by
  induction n using endAround.induct with
  | case1 n hlt => rwa [endAround_of_lt hlt]
  | case2 n hge ih => rwa [endAround_of_le (Nat.not_lt.1 hge)]

/-- Folding keeps a number modulo 65535, for 65536 is one more. -/
theorem endAround_mod (n : Nat) : endAround n % 65535 = n % 65535 := by
  induction n using endAround.induct with
  | case1 n hlt => rw [endAround_of_lt hlt]
  | case2 n hge ih =>
    rw [endAround_of_le (Nat.not_lt.1 hge), ih]
    omega

theorem endAround_eq_zero_iff (n : Nat) : endAround n = 0 ↔ n = 0 := by
  induction n using endAround.induct with
  | case1 n hlt => rw [endAround_of_lt hlt]
  | case2 n hge ih =>
    rw [endAround_of_le (Nat.not_lt.1 hge), ih]
    omega

/-- **How a folded number is known.** Of two numbers of sixteen bits that are the same modulo 65535, one can only be
zero and the other 65535, so it takes the case of zero to tell them apart. -/
theorem eq_endAround {m n : Nat} (hlt : m < 65536) (hmod : m % 65535 = n % 65535) (hzero : m = 0 ↔ n = 0) :
    m = endAround n := by
  have hlt' := endAround_lt n
  have hmod' := endAround_mod n
  have hzero' := endAround_eq_zero_iff n
  omega

/-! ## The sum of all halfwords -/

/-- The byte at a position of a file. Behind the end all bytes are zero. -/
def byteAt (data : Bytes) (i : Nat) : Nat := (data[i]?.getD 0).toNat

/-- The byte at a position of a file, where those of the field count as zero. -/
def byteOutside (data : Bytes) (field i : Nat) : Nat := if field ≤ i ∧ i < field + 4 then 0 else byteAt data i

/-- **The sum of some halfwords**, each with its low byte first. -/
def halfwordSum (byte : Nat → Nat) (count : Nat) : Nat :=
  ∑ k ∈ Finset.range count, (byte (2 * k) + 256 * byte (2 * k + 1))

theorem halfwordSum_succ (byte : Nat → Nat) (count : Nat) :
    halfwordSum byte (count + 1) = byte 0 + 256 * byte 1 + halfwordSum (fun i => byte (i + 2)) count := by
  unfold halfwordSum
  rw [Finset.sum_range_succ', Nat.add_comm]
  rfl

/-! ## The sum while it is made -/

/-- **What holds of the sum while it is made**, next to the sum of the same halfwords without any folding. One more fold
brings it to sixteen bits. -/
structure Carries (sum total : Nat) : Prop where
  /-- It is at most one carry above sixteen bits. -/
  le : sum ≤ 65536
  /-- The two are the same modulo 65535. -/
  mod_eq : sum % 65535 = total % 65535
  /-- They are zero together. -/
  zero_iff : sum = 0 ↔ total = 0

theorem Carries.zero : Carries 0 0 := ⟨Nat.zero_le _, rfl, Iff.rfl⟩

/-- One halfword more. -/
theorem Carries.add {sum total halfword : Nat} (h : Carries sum total) (hlt : halfword < 65536) :
    Carries (foldCarry (sum + halfword)) (total + halfword) := by
  obtain ⟨hle, hmod, hzero⟩ := h
  unfold foldCarry
  refine ⟨?_, ?_, ?_⟩ <;> omega

/-- The last fold. -/
theorem Carries.foldCarry_eq {sum total : Nat} (h : Carries sum total) : foldCarry sum = endAround total := by
  obtain ⟨hle, hmod, hzero⟩ := h
  unfold foldCarry
  refine eq_endAround ?_ ?_ ?_ <;> omega

/-- All halfwords of some bytes. -/
theorem carries_sumHalfwords {sum total : Nat} (h : Carries sum total) (data : Bytes) :
    Carries (sumHalfwords sum data) (total + halfwordSum (byteAt data) ((data.length + 1) / 2)) := by
  induction sum, data using sumHalfwords.induct generalizing total with
  | case1 sum => simpa [sumHalfwords, halfwordSum] using h
  | case2 sum b =>
    have hb := b.toNat_lt
    have hsum : halfwordSum (byteAt [b]) 1 = b.toNat := by simp [halfwordSum, byteAt]
    have hlast := h.add (show b.toNat < 65536 by omega)
    rw [← hsum] at hlast
    simpa [sumHalfwords, hsum] using hlast
  | case3 sum b0 b1 rest ih =>
    have h0 := b0.toNat_lt
    have h1 := b1.toNat_lt
    have hcount : ((b0 :: b1 :: rest).length + 1) / 2 = (rest.length + 1) / 2 + 1 := by
      simp only [List.length_cons]
      omega
    have hrest : (fun i => byteAt (b0 :: b1 :: rest) (i + 2)) = byteAt rest := rfl
    have hfirst : byteAt (b0 :: b1 :: rest) 0 + 256 * byteAt (b0 :: b1 :: rest) 1 = b0.toNat + b1.toNat * 256 := by
      rw [Nat.mul_comm b1.toNat]
      rfl
    rw [hcount, halfwordSum_succ, hrest, hfirst, ← Nat.add_assoc]
    exact ih (h.add (by omega))

/-! ## The field -/

theorem getElem?_blankFieldFrom (field index : Nat) (data : Bytes) (i : Nat) :
    (blankFieldFrom field index data)[i]?
      = data[i]?.map fun b => if field ≤ index + i ∧ index + i < field + 4 then 0 else b := by
  induction data generalizing index i with
  | nil => rfl
  | cons b rest ih =>
    cases i with
    | zero => simp [blankFieldFrom]
    | succ i =>
      have hnext : index + 1 + i = index + (i + 1) := by omega
      simp only [blankFieldFrom, List.getElem?_cons_succ]
      rw [ih, hnext]

/-- Outside the field the bytes are those of the file, and in it they are zero. -/
theorem getElem?_blankField (data : Bytes) (field i : Nat) :
    (blankField data field)[i]? = data[i]?.map fun b => if field ≤ i ∧ i < field + 4 then 0 else b := by
  rw [blankField, getElem?_blankFieldFrom, Nat.zero_add]

theorem byteAt_blankField (data : Bytes) (field : Nat) : byteAt (blankField data field) = byteOutside data field := by
  funext i
  unfold byteOutside byteAt
  rw [getElem?_blankField]
  by_cases hfield : field ≤ i ∧ i < field + 4
  · simp only [hfield, and_self, if_true]
    cases data[i]? <;> rfl
  · simp only [if_neg hfield, Option.map_id']

/-- What is written into the field does not matter. -/
theorem blankField_overwrite {data bytes : Bytes} {field : Nat} (hlen : bytes.length = 4)
    (h : field + 4 ≤ data.length) : blankField (Bytes.overwrite data field bytes) field = blankField data field := by
  rw [← hlen] at h
  apply List.ext_getElem?
  intro i
  rw [getElem?_blankField, getElem?_blankField]
  by_cases hfield : field ≤ i ∧ i < field + 4
  · have hlt : i < data.length := by omega
    have hlt' : i < (Bytes.overwrite data field bytes).length := by rwa [Bytes.length_overwrite h]
    rw [List.getElem?_eq_getElem hlt, List.getElem?_eq_getElem hlt']
    simp only [hfield, and_self, if_true, Option.map_some]
  · rw [Bytes.getElem?_overwrite_outside h (by omega)]

end Checksum

open Checksum

/-- **The checksum is one sum.** It is the sum of all halfwords of the file, with zero for the bytes of the field,
folded to sixteen bits at the end, plus the length of the file. -/
theorem toNat_checksum (data : Bytes) (field : Nat) :
    (checksum data field).toNat
      = (endAround (halfwordSum (byteOutside data field) ((data.length + 1) / 2)) + data.length) % 2 ^ 32 := by
  have hsum := carries_sumHalfwords .zero (blankField data field)
  have hlen : (blankField data field).length = data.length := length_blankFieldFrom field 0 data
  rw [Nat.zero_add, byteAt_blankField, hlen] at hsum
  rw [checksum, UInt32.toNat_add, UInt32.toNat_ofNat', UInt32.toNat_ofNat', hsum.foldCarry_eq]
  omega

/-- What is written into the field leaves the checksum as it is. -/
theorem checksum_overwrite_field {data bytes : Bytes} {field : Nat} (hlen : bytes.length = 4)
    (h : field + 4 ≤ data.length) : checksum (Bytes.overwrite data field bytes) field = checksum data field := by
  have hsize : (Bytes.overwrite data field bytes).length = data.length :=
    Bytes.length_overwrite (hlen.symm ▸ h)
  rw [checksum, checksum, blankField_overwrite hlen h, hsize]

/-- Two halfwords whose sum has a carry, a field of other bytes, and a last byte alone. -/
example : checksum [0xFF, 0xFF, 0x02, 0x00, 1, 2, 3, 4, 0x05] 4 = 0x07 + 9 := by decide +kernel

end BinaryPatching
