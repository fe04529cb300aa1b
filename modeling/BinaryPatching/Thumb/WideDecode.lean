import BinaryPatching.Thumb.ShortDecode

/-!
# `BinaryPatching.Thumb.WideDecode` — encodings of two halfwords

One function for each group of the encoding table, and `decodeWide`, which chooses the group. Encodings outside
the groups that compilers use are shown by their bits, so that decoding can go on behind them.

## Contents
- `notSpelledOut`: an encoding shown by its bits.
- `longBranch`, `withExpandedConstant`, `withPlainConstant`, `withShiftedRegister`: branches and data processing.
- `transferMultiple`, `transferDual`, `transferSingle`, `tableBranch`: loads, stores and jump tables.
- `decodeWide`: all of them.
-/

namespace BinaryPatching.Thumb

/-- An encoding shown by its bits. -/
def notSpelledOut (hw1 hw2 : Nat) : Operation := ⟨".inst.w", [.encoding (UInt32.ofNat (hw1 <<< 16 + hw2))]⟩

/-! ## Branches -/

/-- The displacement of a conditional branch. -/
def conditionalOffset (hw1 hw2 : Nat) : UInt32 :=
  extendSign 21 (field hw1 10 1 <<< 20 + field hw2 11 1 <<< 19 + field hw2 13 1 <<< 18
    + field hw1 0 6 <<< 12 + field hw2 0 11 * 2)

/-- A bit of a long displacement, which is stored as equal to the sign or not. -/
def sameAsSign (bit sign : Nat) : Nat := if bit = sign then 1 else 0

/-- The displacement of an unconditional branch or a call. -/
def longOffset (hw1 hw2 : Nat) : UInt32 :=
  let sign := field hw1 10 1
  extendSign 25 (sign <<< 24 + sameAsSign (field hw2 13 1) sign <<< 23
    + sameAsSign (field hw2 11 1) sign <<< 22 + field hw1 0 10 <<< 12 + field hw2 0 11 * 2)

/-- Branches, calls, and the wide no-operation. -/
def longBranch (hw1 hw2 : Nat) (counter : UInt32) : Option Operation :=
  match flag hw2 14, flag hw2 12 with
  | false, false =>
    match Condition.ofField (field hw1 6 4) with
    | some c => some ⟨"b" ++ c.name ++ ".w", [.value (counter + conditionalOffset hw1 hw2)]⟩
    | none => some (if hw1 = 0xF3AF ∧ hw2 = 0x8000 then ⟨"nop.w", []⟩ else notSpelledOut hw1 hw2)
  | false, true => some ⟨"b.w", [.value (counter + longOffset hw1 hw2)]⟩
  | true, true => some ⟨"bl", [.value (counter + longOffset hw1 hw2)]⟩
  | true, false =>
    if flag hw2 0 then none else some ⟨"blx", [.value (wordPart counter + longOffset hw1 hw2)]⟩

/-! ## Data processing -/

/-- The constant of twelve bits that is spread over both halfwords. -/
def spreadConstant (hw1 hw2 : Nat) : Nat := field hw1 10 1 <<< 11 + field hw2 12 3 <<< 8 + field hw2 0 8

/-- The word that a constant of twelve bits stands for: a byte in a pattern, or eight bits in a place. -/
def expandConstant (c : Nat) : UInt32 :=
  if field c 10 2 = 0 then
    let byte := field c 0 8
    match field c 8 2 with
    | 0 => UInt32.ofNat byte
    | 1 => UInt32.ofNat (byte * 0x00010001)
    | 2 => UInt32.ofNat (byte * 0x01000100)
    | _ => UInt32.ofNat (byte * 0x01010101)
  else
    let value := UInt32.ofNat (0x80 + field c 0 7)
    let places := UInt32.ofNat (field c 7 5)
    (value >>> places) ||| (value <<< (32 - places))

/-- A data processing operation of the shared table, with what it does with its registers. -/
structure Processing where
  /-- The mnemonic without marks. -/
  name : String
  /-- Whether a result is written. -/
  hasTarget : Bool
  /-- Whether a first source is read. -/
  hasSource : Bool

/-- The shared table of data processing. A test is an operation whose result goes nowhere, a move one without a
    first source. -/
def processing (op rn rd : Nat) (setsFlags : Bool) : Option Processing :=
  let isTest := rd = 15 ∧ setsFlags
  match op with
  | 0 => some (if isTest then ⟨"tst", false, true⟩ else ⟨"and", true, true⟩)
  | 1 => some ⟨"bic", true, true⟩
  | 2 => some (if rn = 15 then ⟨"mov", true, false⟩ else ⟨"orr", true, true⟩)
  | 3 => some (if rn = 15 then ⟨"mvn", true, false⟩ else ⟨"orn", true, true⟩)
  | 4 => some (if isTest then ⟨"teq", false, true⟩ else ⟨"eor", true, true⟩)
  | 8 => some (if isTest then ⟨"cmn", false, true⟩ else ⟨"add", true, true⟩)
  | 10 => some ⟨"adc", true, true⟩
  | 11 => some ⟨"sbc", true, true⟩
  | 13 => some (if isTest then ⟨"cmp", false, true⟩ else ⟨"sub", true, true⟩)
  | 14 => some ⟨"rsb", true, true⟩
  | _ => none

/-- The operation of the shared table with its last operands. -/
def processingOperation (hw1 hw2 : Nat) (last : List Operand) : Operation :=
  let rn := field hw1 0 4
  let rd := field hw2 8 4
  let setsFlags := flag hw1 4
  match processing (field hw1 5 4) rn rd setsFlags with
  | some p =>
    ⟨p.name ++ (if setsFlags && p.hasTarget then "s" else "") ++ ".w",
      (if p.hasTarget then [reg rd] else []) ++ (if p.hasSource then [reg rn] else []) ++ last⟩
  | none => notSpelledOut hw1 hw2

/-- Data processing with an expanded constant. -/
def withExpandedConstant (hw1 hw2 : Nat) : Operation :=
  processingOperation hw1 hw2 [.value (expandConstant (spreadConstant hw1 hw2))]

/-- Data processing with a constant as it stands. -/
def withPlainConstant (hw1 hw2 : Nat) (counter : UInt32) : Operation :=
  let rn := field hw1 0 4
  let rd := reg (field hw2 8 4)
  let constant := spreadConstant hw1 hw2
  match field hw1 4 5 with
  | 0 =>
    if rn = 15 then ⟨"adr.w", [rd, .value (wordPart counter + UInt32.ofNat constant)]⟩
    else ⟨"addw", [rd, reg rn, imm constant]⟩
  | 10 =>
    if rn = 15 then ⟨"adr.w", [rd, .value (wordPart counter - UInt32.ofNat constant)]⟩
    else ⟨"subw", [rd, reg rn, imm constant]⟩
  | 4 => ⟨"movw", [rd, imm (rn <<< 12 + constant)]⟩
  | 12 => ⟨"movt", [rd, imm (rn <<< 12 + constant)]⟩
  | _ => notSpelledOut hw1 hw2

/-- The shift of a last register operand. A count of zero stands for 32 in the shifts to the right, and for a
    rotation through the carry in place of a rotation. -/
def shiftOperands (kind amount : Nat) : List Operand :=
  match kind with
  | 0 => if amount = 0 then [] else [.shift .left amount]
  | 1 => [.shift .right (if amount = 0 then 32 else amount)]
  | 2 => [.shift .arithmetic (if amount = 0 then 32 else amount)]
  | _ => if amount = 0 then [.rotateThroughCarry] else [.shift .rotate amount]

/-- Data processing with a register that is shifted. -/
def withShiftedRegister (hw1 hw2 : Nat) : Operation :=
  processingOperation hw1 hw2
    (reg (field hw2 0 4) :: shiftOperands (field hw2 4 2) (field hw2 12 3 * 4 + field hw2 6 2))

/-- Products, with or without a third term. -/
def multiply (hw1 hw2 : Nat) : Operation :=
  let factors := [reg (field hw2 8 4), reg (field hw1 0 4), reg (field hw2 0 4)]
  if field hw2 12 4 = 15 then ⟨"mul.w", factors⟩ else ⟨"mla", factors ++ [reg (field hw2 12 4)]⟩

/-! ## Loads and stores -/

/-- Loads and stores of many registers; at the stack pointer they have names of their own. -/
def transferMultiple (hw1 hw2 : Nat) : Operation :=
  let base := Register.ofField (field hw1 0 4)
  let moves := flag hw1 5
  let onStack := base = .stackPointer ∧ moves
  let list := Operand.registers (Register.ofMask hw2)
  let place := if moves then Operand.moved base else .register base
  match field hw1 7 2, flag hw1 4 with
  | 1, true => if onStack then ⟨"pop.w", [list]⟩ else ⟨"ldm.w", [place, list]⟩
  | 1, false => ⟨"stm.w", [place, list]⟩
  | 2, true => ⟨"ldmdb", [place, list]⟩
  | 2, false => if onStack then ⟨"push.w", [list]⟩ else ⟨"stmdb", [place, list]⟩
  | _, _ => notSpelledOut hw1 hw2

/-- A memory operand whose base may be moved, before the access or after it. -/
def movingOperands (base : Register) (d : Displacement) (before moves : Bool) : List Operand :=
  if before then [.memory base (.displacement d) moves] else [.memory base .none false, .displacement d]

/-- Jump tables of bytes and halfwords. -/
def tableBranch (hw1 hw2 : Nat) : Operation :=
  let base := Register.ofField (field hw1 0 4)
  let index := Register.ofField (field hw2 0 4)
  if flag hw2 4 then ⟨"tbh", [.memory base (.scaled index 1) false]⟩
  else ⟨"tbb", [.memory base (.register index) false]⟩

/-- Loads and stores of two registers. -/
def transferDual (hw1 hw2 : Nat) : Operation :=
  ⟨if flag hw1 4 then "ldrd" else "strd",
    [reg (field hw2 12 4), reg (field hw2 8 4)]
      ++ movingOperands (Register.ofField (field hw1 0 4)) ⟨!flag hw1 7, 4 * field hw2 0 8⟩ (flag hw1 8)
        (flag hw1 5)⟩

/-- The mnemonics of loads and stores of one register. -/
def singleMnemonic (load signed : Bool) (size : Nat) : Option String :=
  match load, signed, size with
  | true, false, 0 => some "ldrb"
  | true, false, 1 => some "ldrh"
  | true, false, 2 => some "ldr"
  | true, true, 0 => some "ldrsb"
  | true, true, 1 => some "ldrsh"
  | false, false, 0 => some "strb"
  | false, false, 1 => some "strh"
  | false, false, 2 => some "str"
  | _, _, _ => none

/-- Loads and stores of one register with a displacement of eight bits, whose base may be moved. A word that is
    pushed or popped alone is shown as such. -/
def transferMoving (hw1 hw2 : Nat) (mnemonic : String) : Operation :=
  let base := Register.ofField (field hw1 0 4)
  let target := Register.ofField (field hw2 12 4)
  let before := flag hw2 10
  let upwards := flag hw2 9
  let moves := flag hw2 8
  let distance := field hw2 0 8
  let onStack := base = .stackPointer ∧ distance = 4 ∧ moves
  if onStack ∧ !before ∧ upwards ∧ mnemonic = "ldr" then ⟨"pop.w", [.registers [target]]⟩
  else if onStack ∧ before ∧ !upwards ∧ mnemonic = "str" then ⟨"push.w", [.registers [target]]⟩
  else if !before ∧ !moves then notSpelledOut hw1 hw2
  else ⟨if before && !moves && upwards then mnemonic ++ "t" else mnemonic,
    .register target :: movingOperands base ⟨!upwards, distance⟩ before moves⟩

/-- Loads and stores of one register. -/
def transferSingle (hw1 hw2 : Nat) : Operation :=
  let base := Register.ofField (field hw1 0 4)
  let target := reg (field hw2 12 4)
  let load := flag hw1 4
  match singleMnemonic load (flag hw1 8) (field hw1 5 2) with
  | none => notSpelledOut hw1 hw2
  | some mnemonic =>
    if load ∧ base = .programCounter then
      ⟨mnemonic ++ ".w", [target, .memory .programCounter (.displacement ⟨!flag hw1 7, field hw2 0 12⟩) false]⟩
    else if flag hw1 7 then ⟨mnemonic ++ ".w", [target, displacedUnlessZero base (field hw2 0 12)]⟩
    else if flag hw2 11 then transferMoving hw1 hw2 mnemonic
    else if field hw2 6 6 = 0 then
      let index := Register.ofField (field hw2 0 4)
      let shift := field hw2 4 2
      ⟨mnemonic ++ ".w",
        [target, .memory base (if shift = 0 then .register index else .scaled index shift) false]⟩
    else notSpelledOut hw1 hw2

/-! ## All groups -/

/-- The operation of two halfwords at an address. -/
def decodeWide (hw1 hw2 : Nat) (address : UInt32) : Option Operation :=
  let counter := counterAt address
  if field hw1 11 5 = 30 ∧ flag hw2 15 then longBranch hw1 hw2 counter
  else if field hw1 11 5 = 30 ∧ !flag hw1 9 then some (withExpandedConstant hw1 hw2)
  else if field hw1 11 5 = 30 ∧ flag hw1 9 then some (withPlainConstant hw1 hw2 counter)
  else if field hw1 9 7 = 116 ∧ !flag hw1 6 then some (transferMultiple hw1 hw2)
  else if field hw1 4 12 = 0xE8D ∧ field hw2 5 11 = 0x780 then some (tableBranch hw1 hw2)
  else if field hw1 9 7 = 116 ∧ flag hw1 6 ∧ (flag hw1 8 ∨ flag hw1 5) then some (transferDual hw1 hw2)
  else if field hw1 9 7 = 117 then some (withShiftedRegister hw1 hw2)
  else if field hw1 9 7 = 124 then some (transferSingle hw1 hw2)
  else if field hw1 4 12 = 0xFB0 ∧ field hw2 4 4 = 0 then some (multiply hw1 hw2)
  else some (notSpelledOut hw1 hw2)

end BinaryPatching.Thumb
