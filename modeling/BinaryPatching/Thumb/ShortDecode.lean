import BinaryPatching.Thumb.Encoding
import BinaryPatching.Thumb.Operand

/-!
# `BinaryPatching.Thumb.ShortDecode` — encodings of one halfword

One function for each group of the encoding table, and `decodeShort`, which chooses the group by the first five
bits. An encoding without a meaning has no operation.

## Contents
- `shiftByCount`, `addSubtract`, `withByte`, `betweenLowRegisters`, `betweenAnyRegisters`: data processing.
- `transferIndexed`, `transferDisplaced`: loads and stores.
- `miscellaneous`, `conditionalOrCall`: the rest.
- `decodeShort`: all of them.
-/

namespace BinaryPatching.Thumb

/-- A register operand from a field. -/
def reg (n : Nat) : Operand := .register (Register.ofField n)

/-- A value operand from a field. -/
def imm (n : Nat) : Operand := .value (UInt32.ofNat n)

/-- A memory operand with a displacement forwards. -/
def displaced (base : Register) (distance : Nat) : Operand :=
  .memory base (.displacement ⟨false, distance⟩) false

/-- A memory operand with a displacement forwards that is left out when it is zero. -/
def displacedUnlessZero (base : Register) (distance : Nat) : Operand :=
  if distance = 0 then .memory base .none false else displaced base distance

/-- Shifts by a count, where a shift to the left by nothing is a move. A count of zero stands for 32 in the
    shifts to the right. -/
def shiftByCount (hw : Nat) : Operation :=
  let op := field hw 11 2
  let count := field hw 6 5
  if op = 0 ∧ count = 0 then ⟨"movs", [reg (field hw 0 3), reg (field hw 3 3)]⟩
  else
    let mnemonic := match op with
      | 0 => "lsls"
      | 1 => "lsrs"
      | _ => "asrs"
    ⟨mnemonic, [reg (field hw 0 3), reg (field hw 3 3), .count (if count = 0 then 32 else count)]⟩

/-- Sums and differences of a register and a register or a number of three bits. -/
def addSubtract (hw : Nat) : Operation :=
  let last := field hw 6 3
  ⟨if flag hw 9 then "subs" else "adds",
    [reg (field hw 0 3), reg (field hw 3 3), if flag hw 10 then imm last else reg last]⟩

/-- Operations of a register with a byte. -/
def withByte (hw : Nat) : Operation :=
  let mnemonic := match field hw 11 2 with
    | 0 => "movs"
    | 1 => "cmp"
    | 2 => "adds"
    | _ => "subs"
  ⟨mnemonic, [reg (field hw 8 3), imm (field hw 0 8)]⟩

/-- The mnemonics of the operations between two low registers. -/
def lowRegisterMnemonic (op : Nat) : String :=
  match op with
  | 0 => "ands"
  | 1 => "eors"
  | 2 => "lsls"
  | 3 => "lsrs"
  | 4 => "asrs"
  | 5 => "adcs"
  | 6 => "sbcs"
  | 7 => "rors"
  | 8 => "tst"
  | 9 => "rsbs"
  | 10 => "cmp"
  | 11 => "cmn"
  | 12 => "orrs"
  | 13 => "muls"
  | 14 => "bics"
  | _ => "mvns"

/-- Operations between two low registers. -/
def betweenLowRegisters (hw : Nat) : Operation :=
  let op := field hw 6 4
  let first := reg (field hw 0 3)
  let second := reg (field hw 3 3)
  ⟨lowRegisterMnemonic op,
    if op = 9 then [first, second, .count 0]
    else if op = 13 then [first, second, first]
    else [first, second]⟩

/-- Operations between any two registers, and branches to a register. -/
def betweenAnyRegisters (hw : Nat) : Operation :=
  let first := reg (field hw 7 1 * 8 + field hw 0 3)
  let second := reg (field hw 3 4)
  match field hw 8 2 with
  | 0 => ⟨"add", [first, second]⟩
  | 1 => ⟨"cmp", [first, second]⟩
  | 2 => ⟨"mov", [first, second]⟩
  | _ => ⟨if flag hw 7 then "blx" else "bx", [second]⟩

/-- Loads and stores at the sum of two registers. -/
def transferIndexed (hw : Nat) : Operation :=
  let mnemonic := match field hw 9 3 with
    | 0 => "str"
    | 1 => "strh"
    | 2 => "strb"
    | 3 => "ldrsb"
    | 4 => "ldr"
    | 5 => "ldrh"
    | 6 => "ldrb"
    | _ => "ldrsh"
  ⟨mnemonic, [reg (field hw 0 3),
    .memory (Register.ofField (field hw 3 3)) (.register (Register.ofField (field hw 6 3))) false]⟩

/-- Loads and stores at a displacement of five bits, counted in units of the size of what is moved. -/
def transferDisplaced (hw : Nat) : Operation :=
  let count := field hw 6 5
  let (mnemonic, distance) := match field hw 11 5 with
    | 12 => ("str", 4 * count)
    | 13 => ("ldr", 4 * count)
    | 14 => ("strb", count)
    | 15 => ("ldrb", count)
    | 16 => ("strh", 2 * count)
    | _ => ("ldrh", 2 * count)
  ⟨mnemonic, [reg (field hw 0 3), displacedUnlessZero (Register.ofField (field hw 3 3)) distance]⟩

/-- The letters after `it`: for each further instruction whether it runs under the condition or its opposite. The
    lowest bit that is set ends the mask. -/
def itLetters (condition mask : Nat) : String :=
  let last := ((List.range 4).find? fun bit => flag mask bit).getD 4
  String.ofList ((([3, 2, 1].filter fun bit => decide (last < bit)).map fun bit =>
    if field mask bit 1 = condition % 2 then 't' else 'e'))

/-- Hints, and the heads of conditional blocks. -/
def hint (hw : Nat) : Option Operation :=
  let first := field hw 4 4
  let mask := field hw 0 4
  if mask = 0 then
    match first with
    | 0 => some ⟨"nop", []⟩
    | 1 => some ⟨"yield", []⟩
    | 2 => some ⟨"wfe", []⟩
    | 3 => some ⟨"wfi", []⟩
    | 4 => some ⟨"sev", []⟩
    | _ => none
  else (Condition.ofField first).map fun c => ⟨"it" ++ itLetters first mask, [.condition c]⟩

/-- The letters of the interrupt masks that a change of state names. -/
def maskLetters (hw : Nat) : String :=
  (if flag hw 2 then "a" else "") ++ (if flag hw 1 then "i" else "") ++ (if flag hw 0 then "f" else "")

/-- Comparison of a register with zero and a short branch forwards. -/
def compareAndBranch (hw : Nat) (counter : UInt32) : Operation :=
  let distance := field hw 9 1 * 64 + field hw 3 5 * 2
  ⟨if flag hw 11 then "cbnz" else "cbz",
    [reg (field hw 0 3), .value (counter + UInt32.ofNat distance)]⟩

/-- The group of encodings that adjust the stack, extend and reverse values, and hint. -/
def miscellaneous (hw : Nat) (counter : UInt32) : Option Operation :=
  match field hw 8 4 with
  | 0 => some ⟨if flag hw 7 then "sub" else "add",
      [.register .stackPointer, .register .stackPointer, imm (4 * field hw 0 7)]⟩
  | 1 => some (compareAndBranch hw counter)
  | 3 => some (compareAndBranch hw counter)
  | 9 => some (compareAndBranch hw counter)
  | 11 => some (compareAndBranch hw counter)
  | 2 =>
    let mnemonic := match field hw 6 2 with
      | 0 => "sxth"
      | 1 => "sxtb"
      | 2 => "uxth"
      | _ => "uxtb"
    some ⟨mnemonic, [reg (field hw 0 3), reg (field hw 3 3)]⟩
  | 4 => some ⟨"push", [.registers (Register.ofMask (field hw 0 8))]⟩
  | 5 => some ⟨"push", [.registers (Register.ofMask (field hw 0 8 + 0x4000))]⟩
  | 6 =>
    if field hw 5 3 = 3 then some ⟨if flag hw 4 then "cpsid" else "cpsie", [.masks (maskLetters hw)]⟩
    else none
  | 10 =>
    let operands := [reg (field hw 0 3), reg (field hw 3 3)]
    match field hw 6 2 with
    | 0 => some ⟨"rev", operands⟩
    | 1 => some ⟨"rev16", operands⟩
    | 3 => some ⟨"revsh", operands⟩
    | _ => none
  | 12 => some ⟨"pop", [.registers (Register.ofMask (field hw 0 8))]⟩
  | 13 => some ⟨"pop", [.registers (Register.ofMask (field hw 0 8 + 0x8000))]⟩
  | 14 => some ⟨"bkpt", [imm (field hw 0 8)]⟩
  | 15 => hint hw
  | _ => none

/-- Conditional branches and calls of the system. One condition is undefined. -/
def conditionalOrCall (hw : Nat) (counter : UInt32) : Option Operation :=
  match Condition.ofField (field hw 8 4) with
  | some c => some ⟨"b" ++ c.name, [.value (counter + extendSign 9 (2 * field hw 0 8))]⟩
  | none => if field hw 8 4 = 15 then some ⟨"svc", [imm (field hw 0 8)]⟩ else none

/-- The operation of a halfword that stands alone, at an address. -/
def decodeShort (hw : Nat) (address : UInt32) : Option Operation :=
  let counter := counterAt address
  match field hw 11 5 with
  | 0 => some (shiftByCount hw)
  | 1 => some (shiftByCount hw)
  | 2 => some (shiftByCount hw)
  | 3 => some (addSubtract hw)
  | 4 => some (withByte hw)
  | 5 => some (withByte hw)
  | 6 => some (withByte hw)
  | 7 => some (withByte hw)
  | 8 => some (if flag hw 10 then betweenAnyRegisters hw else betweenLowRegisters hw)
  | 9 => some ⟨"ldr", [reg (field hw 8 3), displaced .programCounter (4 * field hw 0 8)]⟩
  | 10 => some (transferIndexed hw)
  | 11 => some (transferIndexed hw)
  | 12 => some (transferDisplaced hw)
  | 13 => some (transferDisplaced hw)
  | 14 => some (transferDisplaced hw)
  | 15 => some (transferDisplaced hw)
  | 16 => some (transferDisplaced hw)
  | 17 => some (transferDisplaced hw)
  | 18 => some ⟨"str", [reg (field hw 8 3), displaced .stackPointer (4 * field hw 0 8)]⟩
  | 19 => some ⟨"ldr", [reg (field hw 8 3), displaced .stackPointer (4 * field hw 0 8)]⟩
  | 20 => some ⟨"adr", [reg (field hw 8 3), .value (wordPart counter + UInt32.ofNat (4 * field hw 0 8))]⟩
  | 21 => some ⟨"add", [reg (field hw 8 3), .register .stackPointer, imm (4 * field hw 0 8)]⟩
  | 22 => miscellaneous hw counter
  | 23 => miscellaneous hw counter
  | 24 => some ⟨"stm", [.moved (Register.ofField (field hw 8 3)), .registers (Register.ofMask (field hw 0 8))]⟩
  | 25 =>
    let base := Register.ofField (field hw 8 3)
    some ⟨"ldm", [if flag hw base.val then .register base else .moved base,
      .registers (Register.ofMask (field hw 0 8))]⟩
  | 26 => conditionalOrCall hw counter
  | 27 => conditionalOrCall hw counter
  | 28 => some ⟨"b", [.value (counter + extendSign 12 (2 * field hw 0 11))]⟩
  | _ => none

end BinaryPatching.Thumb
