import BinaryPatching.Bytes.Basic
import BinaryPatching.Thumb.Instruction

/-!
# `BinaryPatching.Code.Pairs` — loads of a constant in two halves

A word is loaded by a `movw` for its low half and a `movt` for its high half. Next to each other and on one
register, in either order, the two are shown as a single `mov` of the whole word.

## Contents
- `registerAndValue?`: the operands of a half.
- `joinHalves?`: the single instruction for two neighbours.
- `joinPairs`: a run of instructions with all its pairs joined.
-/

namespace BinaryPatching

open Text Thumb

/-- The register and the number in operands of the form `r0, #1`. -/
def registerAndValue? (operands : String) : Option (String × UInt32) :=
  match splitOnce ',' operands.toList with
  | none => none
  | some (register, value) =>
    match trim value with
    | '#' :: number =>
      (parseNumber (String.ofList number)).map fun v => (onChars trim (String.ofList register), lowWord v)
    | _ => none

/-- The instruction that loads, at the place of two neighbours, the word whose halves they load. -/
def joinHalves? (first second : Instruction) : Option Instruction :=
  if first.stop ≠ second.address then none
  else
    let halves :=
      if first.mnemonic = "movw" ∧ second.mnemonic = "movt" then some (first, second)
      else if first.mnemonic = "movt" ∧ second.mnemonic = "movw" then some (second, first)
      else none
    match halves with
    | none => none
    | some (low, high) =>
      match registerAndValue? low.operands, registerAndValue? high.operands with
      | some (register, lowValue), some (other, highValue) =>
        if register = other then
          some ⟨first.address, first.bytes ++ second.bytes, "mov",
            register ++ ", #0x" ++ lowerHex ((highValue <<< 16) + lowValue).toNat⟩
        else none
      | _, _ => none

/-- The instructions with every pair joined, from the front on. -/
def joinPairs : List Instruction → List Instruction
  | first :: second :: rest =>
    match joinHalves? first second with
    | some joined => joined :: joinPairs rest
    | none => first :: joinPairs (second :: rest)
  | is => is

end BinaryPatching
