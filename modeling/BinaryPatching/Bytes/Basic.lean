/-!
# `BinaryPatching.Bytes.Basic` — byte strings

File contents, machine code and digests are lists of bytes, so that every operation on them is described by
`take`, `drop` and `++`.

## Contents
- `Bytes`, and `Bytes.slice?`, `Bytes.overwrite`: reading and replacing a stretch.
- `Bytes.word16?`, `Bytes.word32?`, `Bytes.ofWord16`, `Bytes.ofWord32`: little-endian words.
- `Bytes.ofText`, `Bytes.text?`, `Bytes.ofTextWide`: the encodings of text.
- `Bytes.changes`: the maximal runs in which two contents differ.
-/

namespace BinaryPatching

/-- A byte string. -/
abbrev Bytes := List UInt8

namespace Bytes

/-! ## Stretches -/

/-- The `length` bytes at `start`, when they lie inside the data. -/
def slice? (data : Bytes) (start length : Nat) : Option Bytes :=
  if start + length ≤ data.length then some ((data.drop start).take length) else none

theorem slice?_eq_some {data bytes : Bytes} {start length : Nat} :
    slice? data start length = some bytes ↔
      start + length ≤ data.length ∧ bytes = (data.drop start).take length := by
  unfold slice?
  split
  · rename_i h
    simp [h, eq_comm]
  · rename_i h
    simp [h]

theorem length_of_slice? {data bytes : Bytes} {start length : Nat}
    (h : slice? data start length = some bytes) : bytes.length = length := by
  obtain ⟨hle, rfl⟩ := slice?_eq_some.1 h
  simp; omega

/-- The data with `bytes` in the place of what stood at `start`. -/
def overwrite (data : Bytes) (start : Nat) (bytes : Bytes) : Bytes :=
  data.take start ++ bytes ++ data.drop (start + bytes.length)

/-- Overwriting inside the data keeps its length. -/
theorem length_overwrite {data bytes : Bytes} {start : Nat} (h : start + bytes.length ≤ data.length) :
    (overwrite data start bytes).length = data.length := by
  simp [overwrite]; omega

/-- Inside the stretch the new bytes are read. -/
theorem getElem?_overwrite_inside {data bytes : Bytes} {start i : Nat} (h : start + bytes.length ≤ data.length)
    (hi : i < bytes.length) : (overwrite data start bytes)[start + i]? = bytes[i]? := by
  have hs : start ≤ data.length := by omega
  simp only [overwrite, List.append_assoc]
  have hl : (data.take start).length = start := by rw [List.length_take]; omega
  rw [List.getElem?_append_right (by omega), List.getElem?_append_left (by omega)]
  congr 1
  omega

/-- Outside the stretch the old bytes are read. -/
theorem getElem?_overwrite_outside {data bytes : Bytes} {start i : Nat}
    (h : start + bytes.length ≤ data.length) (hi : i < start ∨ start + bytes.length ≤ i) :
    (overwrite data start bytes)[i]? = data[i]? := by
  simp only [overwrite, List.append_assoc]
  rcases hi with hi | hi
  · rw [List.getElem?_append_left (by simp; omega)]
    simp [hi]
  · have hlen : (data.take start).length = start := by simp; omega
    rw [List.getElem?_append_right (by omega), List.getElem?_append_right (by omega)]
    simp only [hlen, List.getElem?_drop]
    congr 1
    omega

/-- The 16-bit word of two bytes, low byte first. -/
def joinWord16 (low high : UInt8) : UInt16 := low.toUInt16 ||| (high.toUInt16 <<< 8)

/-- The 32-bit word of four bytes, low byte first. -/
def joinWord32 (b0 b1 b2 b3 : UInt8) : UInt32 :=
  b0.toUInt32 ||| (b1.toUInt32 <<< 8) ||| (b2.toUInt32 <<< 16) ||| (b3.toUInt32 <<< 24)

/-- The 16-bit word at an offset, if it lies inside the data. -/
def word16? (data : Bytes) (offset : Nat) : Option UInt16 :=
  match data.drop offset with
  | b0 :: b1 :: _ => some (joinWord16 b0 b1)
  | _ => none

/-- The 32-bit word at an offset, if it lies inside the data. -/
def word32? (data : Bytes) (offset : Nat) : Option UInt32 :=
  match data.drop offset with
  | b0 :: b1 :: b2 :: b3 :: _ => some (joinWord32 b0 b1 b2 b3)
  | _ => none

/-- A word is read inside the data only. -/
theorem stop_le_of_word32? {data : Bytes} {offset : Nat} {w : UInt32} (h : word32? data offset = some w) :
    offset + 4 ≤ data.length := by
  rw [word32?] at h
  split at h
  next b0 b1 b2 b3 rest hdrop =>
    have hlen := congrArg List.length hdrop
    simp only [List.length_drop, List.length_cons] at hlen
    omega
  next => cases h

/-- The two bytes of a word, low byte first. -/
def ofWord16 (w : UInt16) : Bytes := [w.toUInt8, (w >>> 8).toUInt8]

/-- The four bytes of a word, low byte first. -/
def ofWord32 (w : UInt32) : Bytes :=
  [w.toUInt8, (w >>> 8).toUInt8, (w >>> 16).toUInt8, (w >>> 24).toUInt8]

@[simp] theorem length_ofWord16 (w : UInt16) : (ofWord16 w).length = 2 := rfl

@[simp] theorem length_ofWord32 (w : UInt32) : (ofWord32 w).length = 4 := rfl

theorem toNat_joinWord16 (low high : UInt8) : (joinWord16 low high).toNat = low.toNat + 256 * high.toNat := by
  have hlow := low.toNat_lt
  have hhigh := high.toNat_lt
  have hshift : (high.toUInt16 <<< 8).toNat = high.toNat <<< 8 := by
    rw [UInt16.toNat_shiftLeft]
    show high.toNat <<< 8 % 65536 = _
    rw [Nat.shiftLeft_eq]
    omega
  rw [joinWord16, UInt16.toNat_or, hshift, UInt8.toNat_toUInt16, Nat.or_comm,
    ← Nat.shiftLeft_add_eq_or_of_lt (by omega), Nat.shiftLeft_eq]
  omega

/-- The bytes of a word that was read are those it was read from. -/
theorem ofWord16_joinWord16 (low high : UInt8) : ofWord16 (joinWord16 low high) = [low, high] := by
  have hlow := low.toNat_lt
  have hjoin := toNat_joinWord16 low high
  have hfirst : (joinWord16 low high).toUInt8 = low := by
    apply UInt8.toNat_inj.1
    rw [UInt16.toNat_toUInt8, hjoin]
    omega
  have hsecond : ((joinWord16 low high) >>> 8).toUInt8 = high := by
    have hhigh := high.toNat_lt
    apply UInt8.toNat_inj.1
    rw [UInt16.toNat_toUInt8, UInt16.toNat_shiftRight, hjoin]
    show (low.toNat + 256 * high.toNat) >>> 8 % 256 = _
    rw [Nat.shiftRight_eq_div_pow]
    omega
  rw [ofWord16, hfirst, hsecond]

/-- A word is read back from its bytes. -/
theorem joinWord16_ofWord16 (w : UInt16) : joinWord16 w.toUInt8 (w >>> 8).toUInt8 = w := by
  have hw := w.toNat_lt
  apply UInt16.toNat_inj.1
  rw [toNat_joinWord16, UInt16.toNat_toUInt8, UInt16.toNat_toUInt8, UInt16.toNat_shiftRight]
  show w.toNat % 256 + 256 * (w.toNat >>> 8 % 256) = _
  rw [Nat.shiftRight_eq_div_pow]
  omega

/-! ## Text -/

/-- The UTF-8 form of a text. -/
def ofText (s : String) : Bytes := s.toUTF8.data.toList

/-- The text that the bytes are the UTF-8 form of. -/
def text? (data : Bytes) : Option String := String.fromUTF8? ⟨data.toArray⟩

/-- A text is read back from its UTF-8 form. -/
@[simp] theorem text?_ofText (s : String) : text? (ofText s) = some s := by
  simp only [text?, ofText, Array.toArray_toList]
  show String.fromUTF8? s.toUTF8 = some s
  exact dif_pos s.isValidUTF8

/-- The UTF-16 units of a character: one, or a pair of surrogates beyond the first plane. -/
def wideUnits (c : Char) : List UInt16 :=
  let n := c.toNat
  if n < 0x10000 then [UInt16.ofNat n]
  else [UInt16.ofNat (0xD800 + (n - 0x10000) / 0x400), UInt16.ofNat (0xDC00 + (n - 0x10000) % 0x400)]

/-- The UTF-16 form of a text, low byte first. -/
def ofTextWide (s : String) : Bytes := (s.toList.flatMap wideUnits).flatMap ofWord16

/-! ## Differences -/

/-- The maximal runs of changed bytes, each with its offset, of two contents read from `offset` on. `run` holds
    the changed bytes just before. -/
def changesFrom (offset : Nat) (run : Bytes) : Bytes → Bytes → List (Nat × Bytes)
  | a :: as, b :: bs =>
    if a = b then (if run.isEmpty then [] else [(offset - run.length, run)]) ++ changesFrom (offset + 1) [] as bs
    else changesFrom (offset + 1) (run ++ [b]) as bs
  | _, _ => if run.isEmpty then [] else [(offset - run.length, run)]

/-- The maximal runs of bytes in which `new` differs from `old`, with their offsets. -/
def changes (old new : Bytes) : List (Nat × Bytes) := changesFrom 0 [] old new

end Bytes

end BinaryPatching
