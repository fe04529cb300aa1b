import BinaryPatching.Text.Numeral

/-!
# `BinaryPatching.Thumb.Operand` — registers, conditions and operands

What a decoded instruction says after its mnemonic, and how it is spelled. The decoder builds operands as data;
their spelling is fixed here once for all encodings.

## Contents
- `Register`, `Condition`: the names of registers and of condition codes.
- `Index`, `Operand`: the forms of operands, with `Operand.text`.
- `Operation`: a mnemonic with its operands.
-/

namespace BinaryPatching.Thumb

open Text

/-! ## Registers and conditions -/

/-- A core register, by its number. -/
abbrev Register := Fin 16

/-- The register of a field; only the low four bits count. -/
def Register.ofField (n : Nat) : Register := Fin.ofNat 16 n

/-- The name of a register. The last seven have names of their own. -/
def Register.name (r : Register) : String :=
  match r.val with
  | 9 => "sb"
  | 10 => "sl"
  | 11 => "fp"
  | 12 => "ip"
  | 13 => "sp"
  | 14 => "lr"
  | 15 => "pc"
  | n => "r" ++ decimal n

/-- The stack pointer. -/
def Register.stackPointer : Register := 13

/-- The link register. -/
def Register.link : Register := 14

/-- The program counter. -/
def Register.programCounter : Register := 15

/-- The registers of a bit mask, lowest first. -/
def Register.ofMask (mask : Nat) : List Register := (List.finRange 16).filter fun r => mask.testBit r.val

/-- A condition code that an instruction can be made to depend on. -/
abbrev Condition := Fin 14

/-- The condition of a field; the last two values name none. -/
def Condition.ofField (n : Nat) : Option Condition := if h : n < 14 then some ⟨n, h⟩ else none

/-- The name of a condition. -/
def Condition.name (c : Condition) : String :=
  match c.val with
  | 0 => "eq"
  | 1 => "ne"
  | 2 => "hs"
  | 3 => "lo"
  | 4 => "mi"
  | 5 => "pl"
  | 6 => "vs"
  | 7 => "vc"
  | 8 => "hi"
  | 9 => "ls"
  | 10 => "ge"
  | 11 => "lt"
  | 12 => "gt"
  | _ => "le"

/-! ## Operands -/

/-- How far a displacement goes, and in which direction. -/
structure Displacement where
  /-- Whether it is subtracted. -/
  down : Bool
  /-- Its size in bytes. -/
  distance : Nat
deriving Repr, DecidableEq

/-- A displacement as an operand. The sign stands between the mark and the digits. -/
def Displacement.text (d : Displacement) : String :=
  (if d.down then "#-0x" else "#0x") ++ lowerHex d.distance

/-- What is added to the base of a memory operand. -/
inductive Index where
  /-- Nothing. -/
  | none
  /-- A displacement. -/
  | displacement (d : Displacement)
  /-- A register. -/
  | register (r : Register)
  /-- A register, shifted to the left. -/
  | scaled (r : Register) (shift : Nat)
deriving Repr, DecidableEq

/-- The spelling of an index, after the base. -/
def Index.text : Index → String
  | .none => ""
  | .displacement d => ", " ++ d.text
  | .register r => ", " ++ r.name
  | .scaled r shift => ", " ++ r.name ++ ", lsl #" ++ decimal shift

/-- How a register operand is shifted. -/
inductive Shift where
  /-- To the left. -/
  | left
  /-- To the right, filling with zeros. -/
  | right
  /-- To the right, filling with the sign. -/
  | arithmetic
  /-- In a circle to the right. -/
  | rotate
deriving Repr, DecidableEq

/-- The name of a shift. -/
def Shift.name : Shift → String
  | .left => "lsl"
  | .right => "lsr"
  | .arithmetic => "asr"
  | .rotate => "ror"

/-- One operand. -/
inductive Operand where
  /-- A register. -/
  | register (r : Register)
  /-- A register that is moved on by the transfer. -/
  | moved (r : Register)
  /-- A list of registers. -/
  | registers (rs : List Register)
  /-- A small number, in decimal. -/
  | count (n : Nat)
  /-- A value or an address, in hexadecimal. -/
  | value (v : UInt32)
  /-- A displacement that stands by itself. -/
  | displacement (d : Displacement)
  /-- The bits of an instruction that is not spelled out, all eight digits. -/
  | encoding (w : UInt32)
  /-- A place in memory; `first` when the base is moved on to it before the access. -/
  | memory (base : Register) (index : Index) (first : Bool)
  /-- A shift of the register before it. -/
  | shift (kind : Shift) (amount : Nat)
  /-- A rotation of the register before it by one place, through the carry. -/
  | rotateThroughCarry
  /-- A condition. -/
  | condition (c : Condition)
  /-- Interrupt masks, by their letters. -/
  | masks (letters : String)
deriving Repr, DecidableEq

/-- The spelling of an operand. -/
def Operand.text : Operand → String
  | .register r => r.name
  | .moved r => r.name ++ "!"
  | .registers rs => "\x7b" ++ ", ".intercalate (rs.map Register.name) ++ "\x7d"
  | .count n => "#" ++ decimal n
  | .value v => "#0x" ++ lowerHex v.toNat
  | .displacement d => d.text
  | .encoding w => "#0x" ++ lowerHex8 w
  | .memory base index first => "[" ++ base.name ++ index.text ++ "]" ++ (if first then "!" else "")
  | .shift kind amount => kind.name ++ " #" ++ decimal amount
  | .rotateThroughCarry => "rrx"
  | .condition c => c.name
  | .masks letters => letters

/-- A mnemonic with its operands: what an encoding means at an address. -/
structure Operation where
  /-- The mnemonic, small letters, with the mark of a wide encoding. -/
  mnemonic : String
  /-- The operands, in order. -/
  operands : List Operand
deriving Repr, DecidableEq

/-- The operands of an operation as one text. -/
def Operation.operandText (op : Operation) : String := ", ".intercalate (op.operands.map Operand.text)

end BinaryPatching.Thumb
