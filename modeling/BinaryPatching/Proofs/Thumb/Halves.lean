import BinaryPatching.Proofs.Thumb.Groups
import BinaryPatching.Proofs.Thumb.Operands

/-!
# `BinaryPatching.Proofs.Thumb.Halves` — the loads of half a word

An instruction that loads half of a word takes four bytes. It names a register and a value, and nothing else, and the
register is the one that it writes.

## Contents
- `HalfLoad`, `halfLoad_withPlainRegisters`: a load of half a word under the plain names of registers.
- `HalfLoad.writtenRegister_eq`: the register that it writes.
-/

namespace BinaryPatching.Thumb

open Text

/-! ## Their operands -/

/-- **A load of half a word** under the plain names: one of the two mnemonics, a register and a value. -/
structure HalfLoad (i : Instruction) (r : Register) (v : UInt32) : Prop where
  /-- The mnemonic. -/
  isHalf : isHalf i.mnemonic = true
  /-- The operands. -/
  operands_eq : i.operands.toList = r.plainName ++ ',' :: ' ' :: '#' :: '0' :: 'x' :: Nat.toDigits 16 v.toNat

/-- Every decoded instruction with one of the two mnemonics is one. -/
theorem halfLoad_withPlainRegisters {code : Bytes} {address : UInt32} {i : Instruction}
    (h : decode code address = some i) (hhalf : isHalf i.mnemonic = true) :
    ∃ r v, HalfLoad i.withPlainRegisters r v := by
  obtain ⟨_, r, v, hoperands⟩ := half_cases h hhalf
  refine ⟨r, v, hhalf, ?_⟩
  show (plainRegisterNames i.operands).toList = _
  rw [hoperands, toList_plainOperands]

theorem HalfLoad.mnemonic_eq {i : Instruction} {r : Register} {v : UInt32} (h : HalfLoad i r v) :
    i.mnemonic = "movw" ∨ i.mnemonic = "movt" := isHalf_iff.1 h.isHalf

/-! ## The register written -/

/-- The first field of a text ends at the first comma, if there is no bracket before. -/
theorem fieldsFrom_append {field front rest : List Char} (hfront : ∀ c ∈ front, c ≠ ',' ∧ nesting 0 c = 0) :
    fieldsFrom 0 field (front ++ ',' :: rest) = trim (field ++ front) :: fieldsFrom 0 [] rest := by
  induction front generalizing field with
  | nil => rw [List.nil_append, List.append_nil, fieldsFrom, if_pos ⟨rfl, rfl⟩]
  | cons c front ih =>
    obtain ⟨hcomma, hnesting⟩ := hfront c List.mem_cons_self
    rw [List.cons_append, fieldsFrom, if_neg fun h => hcomma h.1, hnesting,
      ih fun x hx => hfront x (List.mem_cons_of_mem _ hx), List.append_assoc]
    rfl

/-- The plain names of registers have no comma, bracket or blank. -/
theorem plain_plainName (r : Register) : ∀ c ∈ r.plainName, c ≠ ',' ∧ nesting 0 c = 0 ∧ isBlank c = false := by
  have hall : ∀ r : Register,
      (r.plainName.all fun c => decide (c ≠ ',' ∧ nesting 0 c = 0 ∧ isBlank c = false)) = true := by decide +kernel
  exact fun c hc => of_decide_eq_true (List.all_eq_true.1 (hall r) c hc)

/-- The plain name of a register is known as one. -/
theorem isRegister_plainName : ∀ r : Register,
    onChars (fun cs => (cs.reverse.dropWhile (· == '!')).reverse) (String.ofList r.plainName)
      = String.ofList r.plainName ∧ isRegister (String.ofList r.plainName) = true := by
  decide +kernel

/-- **The register that a load of half a word writes** is the one that it names. -/
theorem HalfLoad.writtenRegister_eq {i : Instruction} {r : Register} {v : UInt32} (h : HalfLoad i r v) :
    i.writtenRegister = some (String.ofList r.plainName) := by
  have hfields : i.operandFields.head? = some (String.ofList r.plainName) := by
    rw [Instruction.operandFields, h.operands_eq, fieldsFrom_append fun c hc => ?_]
    · rw [List.nil_append, trim_of_no_blank fun c hc => (plain_plainName r c hc).2.2]
      rfl
    · exact ⟨(plain_plainName r c hc).1, (plain_plainName r c hc).2.1⟩
  have hwrites : (Instruction.readingMnemonics.any (fun beginning => beginning.toList.isPrefixOf i.baseMnemonic.toList)
      || isJump i.mnemonic || i.baseMnemonic == "bx") = false := by
    rw [Instruction.baseMnemonic]
    rcases h.mnemonic_eq with hm | hm <;> rw [hm] <;> decide +kernel
  unfold Instruction.writtenRegister
  dsimp only
  rw [hwrites, if_neg Bool.false_ne_true, hfields, Option.bind_some, (isRegister_plainName r).1,
    if_pos (isRegister_plainName r).2]

end BinaryPatching.Thumb
