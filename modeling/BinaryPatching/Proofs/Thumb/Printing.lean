import BinaryPatching.Proofs.Thumb.Spelling

/-!
# `BinaryPatching.Proofs.Thumb.Printing` — decoded instructions are printable

Whatever the decoder makes of an encoding is spelled in the printable characters of ASCII, between the blank and the
tilde: the letters, digits and marks of its spelling are.

## Contents
- `isPrintable`, `printable`: characters and texts.
- `Instruction.IsPrintable`, `isPrintable_of_decode`: instructions.
-/

namespace BinaryPatching.Thumb

open Text

/-! ## Texts -/

/-- **The printable characters** of ASCII. -/
def isPrintable (c : Char) : Bool := 0x20 ≤ c.toNat && c.toNat < 0x7F

/-- Whether a text is made of printable characters. -/
def printable (text : String) : Bool := text.toList.all isPrintable

theorem printable_append (a b : String) : printable (a ++ b) = (printable a && printable b) := by
  rw [printable, String.toList_append, List.all_append]
  rfl

theorem printable_iff {text : String} : printable text = true ↔ ∀ c ∈ text.toList, isPrintable c = true :=
  List.all_eq_true

/-- Letters and digits are printable. -/
theorem isPrintable_of_isPlain {c : Char} (h : isPlain c = true) : isPrintable c = true := by
  have hrange := toNat_of_isPlain h
  simp only [isPrintable, Bool.and_eq_true, decide_eq_true_eq]
  omega

/-- The digits of a number in hexadecimal are printable. -/
theorem isPrintable_toDigits (n : Nat) : ∀ c ∈ Nat.toDigits 16 n, isPrintable c = true :=
  fun c hc => isPrintable_of_isPlain (isPlain_toDigits n c hc)

theorem printable_lowerHex (n : Nat) : printable (lowerHex n) = true := by
  refine printable_iff.2 fun c hc => isPrintable_toDigits n c ?_
  rwa [toList_lowerHex] at hc

/-! ## Instructions -/

/-- **A printable instruction**: its mnemonic and its operands are. -/
structure Instruction.IsPrintable (i : Instruction) : Prop where
  /-- The mnemonic. -/
  mnemonic : printable i.mnemonic = true
  /-- The operands. -/
  operands : printable i.operands = true

/-- **Whatever is decoded is printable**, under the plain names of registers. -/
theorem isPrintable_of_decode {code : Bytes} {address : UInt32} {i : Instruction} (h : decode code address = some i) :
    i.withPlainRegisters.IsPrintable := by
  refine ⟨printable_iff.2 fun c hc => ?_, printable_iff.2 ?_⟩
  · rcases Bool.or_eq_true_iff.1 ((isDecodedMnemonic_of_decode h).forall_mem c hc) with hplain | hpoint
    · exact isPrintable_of_isPlain hplain
    · rw [beq_iff_eq.1 hpoint]
      rfl
  · exact (spelled_withPlainRegisters_of_decode h).forall_mem (fun _ => isPrintable_of_isPlain) (by decide)

end BinaryPatching.Thumb
