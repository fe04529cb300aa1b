import BinaryPatching.Proofs.Thumb.Groups
import BinaryPatching.Proofs.Thumb.Operands

/-!
# `BinaryPatching.Proofs.Thumb.Targets` — where branches go

A branch holds the distance to its target as a signed number, whose bits are spread over its encoding. The decoder shows
the target itself, as text. Here the number is taken from the encoding once more: the target that is shown is the exact
one, up to the size of addresses.

## Contents
- `displacement`, `Instruction.exactTarget`, `Instruction.StaysInside`: where a branch goes.
- `Instruction.Names`, `branch_names`: the target that a decoded branch shows.
-/

namespace BinaryPatching.Thumb

open Text

/-! ## Displacements -/

/-- The number in the fields of a long displacement. -/
def longValue (hw1 hw2 : Nat) : Nat :=
  let sign := field hw1 10 1
  sign <<< 24 + sameAsSign (field hw2 13 1) sign <<< 23 + sameAsSign (field hw2 11 1) sign <<< 22
    + field hw1 0 10 <<< 12 + field hw2 0 11 * 2

/-- The number in the fields of the displacement of a conditional branch. -/
def conditionalValue (hw1 hw2 : Nat) : Nat :=
  field hw1 10 1 <<< 20 + field hw2 11 1 <<< 19 + field hw2 13 1 <<< 18 + field hw1 0 6 <<< 12 + field hw2 0 11 * 2

theorem sameAsSign_le (bit sign : Nat) : sameAsSign bit sign ≤ 1 := by
  unfold sameAsSign
  split <;> decide

theorem longValue_lt (hw1 hw2 : Nat) : longValue hw1 hw2 < 1 <<< 25 := by
  have hsign := field_lt hw1 10 1
  have hhigh := field_lt hw1 0 10
  have hlow := field_lt hw2 0 11
  have hfirst := sameAsSign_le (field hw2 13 1) (field hw1 10 1)
  have hsecond := sameAsSign_le (field hw2 11 1) (field hw1 10 1)
  simp only [longValue, Nat.shiftLeft_eq] at *
  omega

theorem conditionalValue_lt (hw1 hw2 : Nat) : conditionalValue hw1 hw2 < 1 <<< 21 := by
  have hsign := field_lt hw1 10 1
  have hfirst := field_lt hw2 11 1
  have hsecond := field_lt hw2 13 1
  have hhigh := field_lt hw1 0 6
  have hlow := field_lt hw2 0 11
  simp only [conditionalValue, Nat.shiftLeft_eq] at *
  omega

/-- The displacement in the encoding of a branch of one halfword. Those that compare a register go forwards only. -/
def shortDisplacement (hw : Nat) : Int :=
  if field hw 12 4 = 11 then (field hw 9 1 * 64 + field hw 3 5 * 2 : Nat)
  else if field hw 12 4 = 13 then Int.bmod (2 * field hw 0 8 : Nat) 0x200
  else Int.bmod (2 * field hw 0 11 : Nat) 0x1000

/-- The displacement in the encoding of a branch of two halfwords. -/
def wideDisplacement (hw1 hw2 : Nat) : Int :=
  if flag hw2 12 then Int.bmod (longValue hw1 hw2) 0x2000000 else Int.bmod (conditionalValue hw1 hw2) 0x200000

/-- **The displacement of a branch**: the signed number in its encoding. -/
def displacement : Bytes → Int
  | [b0, b1] => shortDisplacement (Bytes.joinWord16 b0 b1).toNat
  | [b0, b1, b2, b3] => wideDisplacement (Bytes.joinWord16 b0 b1).toNat (Bytes.joinWord16 b2 b3).toNat
  | _ => 0

@[simp] theorem displacement_short (hw : UInt16) : displacement (Bytes.ofWord16 hw) = shortDisplacement hw.toNat := by
  rw [Bytes.ofWord16, displacement, Bytes.joinWord16_ofWord16]

@[simp] theorem displacement_wide (hw1 hw2 : UInt16) :
    displacement (Bytes.ofWord16 hw1 ++ Bytes.ofWord16 hw2) = wideDisplacement hw1.toNat hw2.toNat := by
  show displacement [hw1.toUInt8, (hw1 >>> 8).toUInt8, hw2.toUInt8, (hw2 >>> 8).toUInt8] = _
  rw [displacement, Bytes.joinWord16_ofWord16, Bytes.joinWord16_ofWord16]

/-- **Where a branch goes**, before addresses wrap around. -/
def Instruction.exactTarget (i : Instruction) : Int := i.address.toNat + 4 + displacement i.bytes

/-- **A branch that does not wrap around**: the exact target is an address. -/
def Instruction.StaysInside (i : Instruction) : Prop := 0 ≤ i.exactTarget ∧ i.exactTarget < 0x100000000

/-! ## Targets -/

/-- What a field in two's complement adds to an address is its signed number. -/
theorem add_extendSign {bits value m : Nat} (hm : 1 <<< bits = m) (hpos : 0 < bits) (hbits : bits ≤ 32)
    (hvalue : value < m) (a : UInt32) : a + extendSign bits value = lowWord (a.toNat + Int.bmod value m) := by
  obtain ⟨n, rfl⟩ : ∃ n, bits = n + 1 := ⟨bits - 1, by omega⟩
  have hdouble : m = 2 * (1 <<< n) := by
    rw [← hm, Nat.shiftLeft_succ]
  have hhalf : 1 <<< n ≤ 1 <<< 31 := by
    rw [Nat.one_shiftLeft, Nat.one_shiftLeft]
    exact Nat.pow_le_pow_right (by decide) (by omega)
  have hlimit : 1 <<< 31 = 0x80000000 := rfl
  have hemod : (value : Int) % (m : Int) = value := Int.emod_eq_of_lt (by omega) (by omega)
  have ha := a.toNat_lt
  apply UInt32.toNat_inj.1
  rw [UInt32.toNat_add, extendSign, lowWord, hm, Nat.add_sub_cancel, Int.bmod, hemod]
  generalize 1 <<< n = half at *
  by_cases hlow : value < half
  · rw [if_pos hlow, if_pos (by omega), UInt32.toNat_ofNat', UInt32.toNat_ofNat']
    omega
  · rw [if_neg hlow, if_neg (by omega), UInt32.toNat_ofNat', UInt32.toNat_ofNat']
    omega

theorem add_ofNat (a : UInt32) (n : Nat) : a + UInt32.ofNat n = lowWord (a.toNat + n) := by
  have ha := a.toNat_lt
  apply UInt32.toNat_inj.1
  rw [UInt32.toNat_add, lowWord, UInt32.toNat_ofNat', UInt32.toNat_ofNat']
  omega

/-- The program counter as an exact number. -/
theorem lowWord_counterAt (address : UInt32) (d : Int) :
    lowWord ((counterAt address).toNat + d) = lowWord (address.toNat + 4 + d) := by
  have h4 : (4 : UInt32).toNat = 4 := rfl
  rw [counterAt, UInt32.toNat_add, h4, lowWord, lowWord]
  congr 2
  omega

/-- **The operands of a direct branch**: its target, alone or behind a register. -/
def Instruction.Names (i : Instruction) (target : UInt32) : Prop :=
  i.operands = "#0x" ++ lowerHex target.toNat ∨
    ∃ r : Register, i.operands = r.name ++ ", #0x" ++ lowerHex target.toNat

/-- The value that the operands end in is their literal. -/
theorem Instruction.Names.literalValue {i : Instruction} {target : UInt32} (h : i.Names target) :
    i.literalValue = some target := by
  rcases h with h | ⟨r, h⟩
  · have hend : i.operands.toList = [] ++ '#' :: '0' :: 'x' :: Nat.toDigits 16 target.toNat := by
      rw [h]
      simp
    exact literalValue_of_operands hend
  · have hend :
        i.operands.toList = (r.name.toList ++ [',', ' ']) ++ '#' :: '0' :: 'x' :: Nat.toDigits 16 target.toNat := by
      rw [h]
      simp
    exact literalValue_of_operands hend

/-- The plain names of registers have no bracket. -/
theorem bracket_not_mem_plainName : ∀ r : Register, '[' ∉ r.plainName := by decide +kernel

/-- Under the plain names, the operands end in the target as before, and nothing in front of it has a bracket. -/
theorem Instruction.Names.plain {i : Instruction} {target : UInt32} (h : i.Names target) :
    ∃ front, i.withPlainRegisters.operands.toList = front ++ '#' :: '0' :: 'x' :: Nat.toDigits 16 target.toNat
      ∧ '[' ∉ front := by
  rcases h with h | ⟨r, h⟩
  · refine ⟨[], ?_, List.not_mem_nil⟩
    show (plainRegisterNames i.operands).toList = _
    rw [h, toList_plainValue, List.nil_append]
  · refine ⟨r.plainName ++ [',', ' '], ?_, ?_⟩
    · show (plainRegisterNames i.operands).toList = _
      rw [h, toList_plainOperands, List.append_assoc]
      rfl
    · intro hmem
      rcases List.mem_append.1 hmem with hname | hrest
      · exact bracket_not_mem_plainName r hname
      · revert hrest
        decide

theorem names_value {mnemonic : String} {address target : UInt32} {bytes : Bytes} :
    ((Operation.mk mnemonic [.value target]).toInstruction address bytes).Names target := .inl rfl

theorem names_registerValue {mnemonic : String} {address target : UInt32} {bytes : Bytes} {r : Register} :
    ((Operation.mk mnemonic [.register r, .value target]).toInstruction address bytes).Names target := by
  refine .inr ⟨r, ?_⟩
  show r.name ++ ", " ++ ("#0x" ++ lowerHex target.toNat) = _
  rw [String.append_assoc, String.append_assoc]
  rfl

theorem names_of_shortBranch {hw : UInt16} {address : UInt32} {op : Operation} (h : ShortBranch hw.toNat address op)
    (hblx : op.mnemonic ≠ "blx") :
    (op.toInstruction address (Bytes.ofWord16 hw)).Names
      (lowWord (op.toInstruction address (Bytes.ofWord16 hw)).exactTarget) := by
  show Instruction.Names _ (lowWord (address.toNat + 4 + displacement (Bytes.ofWord16 hw)))
  rw [displacement_short, shortDisplacement, ← lowWord_counterAt]
  cases h with
  | always h =>
    have hgroup := field_twelve_four hw.toNat
    have hvalue := field_lt hw.toNat 0 11
    rw [if_neg (by omega), if_neg (by omega),
      ← add_extendSign (show 1 <<< 12 = 0x1000 from rfl) (by decide) (by decide) (by omega)]
    exact names_value
  | conditional h hc =>
    have hvalue := field_lt hw.toNat 0 8
    rw [if_neg (by omega), if_pos h,
      ← add_extendSign (show 1 <<< 9 = 0x200 from rfl) (by decide) (by decide) (by omega)]
    exact names_value
  | compare h =>
    rw [if_pos h]
    exact add_ofNat _ _ ▸ names_registerValue
  | register => exact absurd rfl hblx

theorem names_of_wideBranch {hw1 hw2 : UInt16} {address : UInt32} {op : Operation}
    (h : WideBranch hw1.toNat hw2.toNat address op) (hblx : op.mnemonic ≠ "blx") :
    (op.toInstruction address (Bytes.ofWord16 hw1 ++ Bytes.ofWord16 hw2)).Names
      (lowWord (op.toInstruction address (Bytes.ofWord16 hw1 ++ Bytes.ofWord16 hw2)).exactTarget) := by
  show Instruction.Names _ (lowWord (address.toNat + 4 + displacement (Bytes.ofWord16 hw1 ++ Bytes.ofWord16 hw2)))
  have hlong := longValue_lt hw1.toNat hw2.toNat
  have hconditional := conditionalValue_lt hw1.toNat hw2.toNat
  rw [displacement_wide, wideDisplacement, ← lowWord_counterAt]
  cases h with
  | conditional _ h _ =>
    rw [h, if_neg Bool.false_ne_true,
      ← add_extendSign (show 1 <<< 21 = 0x200000 from rfl) (by decide) (by decide) hconditional]
    exact names_value
  | always _ h =>
    rw [if_pos h, ← add_extendSign (show 1 <<< 25 = 0x2000000 from rfl) (by decide) (by decide) hlong]
    exact names_value
  | call _ h =>
    rw [if_pos h, ← add_extendSign (show 1 <<< 25 = 0x2000000 from rfl) (by decide) (by decide) hlong]
    exact names_value
  | exchange => exact absurd rfl hblx

/-- **A direct branch names its target**, and leads there. -/
theorem branch_names {code : Bytes} {address : UInt32} {i : Instruction} (h : decode code address = some i)
    (hjump : isJump i.mnemonic = true) (hblx : i.mnemonic ≠ "blx") : i.Names (lowWord i.exactTarget) := by
  rcases jump_cases h hjump with ⟨hw, op, hbranch, rfl⟩ | ⟨hw1, hw2, op, _, _, hbranch, rfl⟩
  · exact names_of_shortBranch hbranch hblx
  · exact names_of_wideBranch hbranch hblx

theorem Instruction.Names.branchTarget {i : Instruction} {target : UInt32} (h : i.Names target)
    (hjump : isJump i.mnemonic = true) : i.branchTarget = some target := by
  rw [Instruction.branchTarget, if_pos hjump, h.literalValue]

end BinaryPatching.Thumb
