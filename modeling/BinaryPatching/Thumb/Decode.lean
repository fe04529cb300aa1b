import BinaryPatching.Thumb.Instruction
import BinaryPatching.Thumb.WideDecode

/-!
# `BinaryPatching.Thumb.Decode` — instructions from code

## Contents
- `decode`: the instruction at the start of some code.
- `length_of_decode`, `bytes_of_decode`: it takes two or four bytes, and they are those of the code.
- `decodeUntil`: the instructions from an address on, one after the other.
- `decodeAll`: all of them.
-/

namespace BinaryPatching.Thumb

/-- The instruction of an operation that was read from some bytes. -/
def Operation.toInstruction (op : Operation) (address : UInt32) (bytes : Bytes) : Instruction :=
  ⟨address, bytes, op.mnemonic, op.operandText⟩

/-- The instruction at the start of the code, which lies at an address. There is none when the encoding has no
    meaning or the code ends within it. -/
def decode (code : Bytes) (address : UInt32) : Option Instruction :=
  match code with
  | b0 :: b1 :: rest =>
    let hw1 := (Bytes.joinWord16 b0 b1).toNat
    if isWide hw1 then
      match rest with
      | b2 :: b3 :: _ =>
        (decodeWide hw1 (Bytes.joinWord16 b2 b3).toNat address).map
          (·.toInstruction address [b0, b1, b2, b3])
      | _ => none
    else (decodeShort hw1 address).map (·.toInstruction address [b0, b1])
  | _ => none

theorem address_of_decode {code : Bytes} {address : UInt32} {i : Instruction}
    (h : decode code address = some i) : i.address = address := by
  unfold decode at h
  split at h
  · simp only at h
    split at h
    · split at h
      · obtain ⟨op, _, rfl⟩ := Option.map_eq_some_iff.1 h; rfl
      · simp at h
    · obtain ⟨op, _, rfl⟩ := Option.map_eq_some_iff.1 h; rfl
  · simp at h

/-- An instruction takes two or four bytes. -/
theorem length_of_decode {code : Bytes} {address : UInt32} {i : Instruction}
    (h : decode code address = some i) : i.bytes.length = 2 ∨ i.bytes.length = 4 := by
  unfold decode at h
  split at h
  · simp only at h
    split at h
    · split at h
      · obtain ⟨op, _, rfl⟩ := Option.map_eq_some_iff.1 h; exact .inr rfl
      · simp at h
    · obtain ⟨op, _, rfl⟩ := Option.map_eq_some_iff.1 h; exact .inl rfl
  · simp at h

/-- The bytes of an instruction are those at the start of the code. -/
theorem bytes_of_decode {code : Bytes} {address : UInt32} {i : Instruction}
    (h : decode code address = some i) : i.bytes = code.take i.bytes.length := by
  unfold decode at h
  split at h
  · simp only at h
    split at h
    · split at h
      · obtain ⟨op, _, rfl⟩ := Option.map_eq_some_iff.1 h; rfl
      · simp at h
    · obtain ⟨op, _, rfl⟩ := Option.map_eq_some_iff.1 h; rfl
  · simp at h

theorem length_le_of_decode {code : Bytes} {address : UInt32} {i : Instruction}
    (h : decode code address = some i) : i.bytes.length ≤ code.length := by
  have := congrArg List.length (bytes_of_decode h)
  simp only [List.length_take] at this
  omega

/-- A stretch of instructions, with the address behind it. -/
structure Run where
  /-- The instructions, in order. -/
  instructions : List Instruction
  /-- The address at which decoding came to a stop. -/
  stop : UInt32
deriving Repr, DecidableEq

/-- The run of instructions in the code that lies at `address`, as part of a run from `start` in code from `base`.
    It ends where no instruction is, where the addresses wrap around, and before an address that `known` holds
    for, unless that is the start. -/
def decodeFrom (known : UInt32 → Bool) (base start address : UInt32) (code : Bytes) : Run :=
  if (address ≠ start && known address) || address < base then ⟨[], address⟩
  else
    match _h : decode code address with
    | none => ⟨[], address⟩
    | some i =>
      let run := decodeFrom known base start i.stop (code.drop i.bytes.length)
      ⟨i :: run.instructions, run.stop⟩
termination_by code.length
decreasing_by
  have h1 := length_of_decode _h
  have h2 := length_le_of_decode _h
  simp only [List.length_drop]
  omega

/-- The run from `start` in code that begins at `base`, up to the first address that `known` holds for. -/
def decodeUntil (known : UInt32 → Bool) (code : Bytes) (base start : UInt32) : Run :=
  if start < base then ⟨[], start⟩
  else decodeFrom known base start start (code.drop (start.toNat - base.toNat))

/-- The run from `start` in code that begins at `base`. -/
def decodeAll (code : Bytes) (base start : UInt32) : Run := decodeUntil (fun _ => false) code base start

end BinaryPatching.Thumb
