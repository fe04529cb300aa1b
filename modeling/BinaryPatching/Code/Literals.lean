import BinaryPatching.Image.Basic
import BinaryPatching.Thumb.Encoding
import BinaryPatching.Thumb.Instruction

/-!
# `BinaryPatching.Code.Literals` — words loaded from beside the code

A load relative to the program counter takes its word from the same section as a rule. Where it does, the word is
shown in place of the memory operand.

## Contents
- `CounterReference`, `counterReference?`: the memory operand in a text of operands.
- `literal?`, `withLiteral?`: the word, and the instruction with the word in place of the operand.
- `literalOverflows`: words whose file offset does not fit into a word.
-/

namespace BinaryPatching

open Text Thumb

/-- A memory operand relative to the program counter, within the text that holds it. -/
structure CounterReference where
  /-- The text before it. -/
  before : List Char
  /-- The displacement, as it is written. -/
  displacement : List Char
  /-- The text after it. -/
  after : List Char

/-- The characters before the displacement of a memory operand relative to the program counter. -/
def referenceMark : List Char := ['[', 'p', 'c', ',', ' ', '#']

/-- The first memory operand relative to the program counter, in a text that follows `before`. -/
def counterReferenceFrom (before : List Char) : List Char → Option CounterReference
  | [] => none
  | c :: rest =>
    let behind := (c :: rest).drop referenceMark.length
    let displacement := behind.takeWhile (· != ']')
    if referenceMark.isPrefixOf (c :: rest) && behind.contains ']' && isLiteral displacement then
      some ⟨before, displacement, behind.drop (displacement.length + 1)⟩
    else counterReferenceFrom (before ++ [c]) rest

/-- The first memory operand relative to the program counter. -/
def counterReference? (operands : String) : Option CounterReference := counterReferenceFrom [] operands.toList

/-- The address that an instruction at an address reads with a displacement. -/
def literalAddress (address : UInt32) (displacement : Int) : UInt32 :=
  lowWord ((wordPart (counterAt address)).toNat + displacement)

/-- The memory operand of an instruction and the address of the word that it loads, when the first and the last byte of
    the word lie in the section. -/
def literal? (s : Section) (i : Instruction) : Option (CounterReference × UInt32) :=
  match counterReference? i.operands with
  | none => none
  | some reference =>
    match parseNumber (String.ofList reference.displacement) with
    | none => none
    | some displacement =>
      let literal := literalAddress i.address displacement
      if s.containsAddress literal && s.containsAddress (literal + 3) then some (reference, literal) else none

/-- The instruction with the word that it loads in place of its memory operand, when the word can be read. -/
def withLiteral? (image : Image) (s : Section) (i : Instruction) : Option Instruction :=
  match literal? s i with
  | none => none
  | some (reference, literal) =>
    (image.readWord? literal).map fun word =>
      let operands := reference.before ++ ['#', '0', 'x'] ++ Nat.toDigits 16 word.toNat ++ reference.after
      { i with operands := String.ofList operands }

/-- Whether the file offset of the word that an instruction loads does not fit into a word. -/
def literalOverflows (image : Image) (s : Section) (i : Instruction) : Bool :=
  (literal? s i).any fun (_, literal) => image.offsetOverflows literal

end BinaryPatching
