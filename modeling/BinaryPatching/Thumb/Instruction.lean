import BinaryPatching.Bytes.Basic
import BinaryPatching.Text.Numeral
import BinaryPatching.Text.Split
import BinaryPatching.Text.Word

/-!
# `BinaryPatching.Thumb.Instruction` — instructions as text

An instruction of a listing: where it is, its bytes, and its text in two parts. Instructions come from the
decoder and from listing files alike, so all questions about them are answered from the text.

## Contents
- `isJump`, `isConditionalJump`, `isRegister`: the vocabulary of mnemonics and registers.
- `plainRegisterNames`: the numbered names of registers in place of their other names.
- `Instruction`, with `text`, `literalValue`, `branchTarget`, `operandFields`, `writtenRegister`,
  `readsRegister`.
-/

namespace BinaryPatching.Thumb

open Text

/-! ## Mnemonics and registers -/

/-- The condition codes that a conditional branch can bear, with both names of those that have two. -/
def branchConditions : List String :=
  ["eq", "ne", "cs", "hs", "cc", "lo", "mi", "pl", "vs", "vc", "hi", "ls", "ge", "lt", "gt", "le"]

/-- The text without a given ending, if it has it. -/
def withoutEnding? (ending text : List Char) : Option (List Char) :=
  if ending.isSuffixOf text then some (text.take (text.length - ending.length)) else none

/-- The mnemonic without the mark of a wide encoding. -/
def withoutWide (mnemonic : String) : String :=
  onChars (fun cs => (withoutEnding? ['.', 'w'] cs).getD cs) mnemonic

/-- The mnemonic without the mark of its width. -/
def withoutWidth (mnemonic : String) : String :=
  onChars (fun cs => (withoutEnding? ['.', 'w'] cs).getD ((withoutEnding? ['.', 'n'] cs).getD cs)) mnemonic

/-- Whether a mnemonic is that of a branch that need not be taken. -/
def isConditionalJump (mnemonic : String) : Bool :=
  let base := withoutWide mnemonic
  base == "cbz" || base == "cbnz" || branchConditions.any fun c => base == "b" ++ c

/-- Whether a mnemonic is that of a direct branch. -/
def isJump (mnemonic : String) : Bool :=
  let base := withoutWide mnemonic
  base == "b" || base == "bl" || base == "blx" || isConditionalJump mnemonic

/-- The registers that are known by a name without a number. -/
def registerNames : List String := ["sp", "lr", "pc", "sb", "sl", "fp", "ip"]

/-- Whether a text names a register. -/
def isRegister (text : String) : Bool :=
  registerNames.contains text ||
    match text.toList with
    | 'r' :: number => ((readUnsigned 10 256 number).map fun n => decide (n ≤ 15)).getD false
    | _ => false

/-- The numbered name of the registers nine to twelve, whose other names depend on their use. -/
def plainRegisterName (word : List Char) : List Char :=
  if word = ['s', 'b'] then ['r', '9']
  else if word = ['s', 'l'] then ['r', '1', '0']
  else if word = ['f', 'p'] then ['r', '1', '1']
  else if word = ['i', 'p'] then ['r', '1', '2']
  else word

/-- The operands with the registers nine to twelve under their numbered names. -/
def plainRegisterNames (operands : String) : String := onChars (renameWords plainRegisterName) operands

/-! ## Parts of operands -/

/-- The number that the text ends in, after a mark `#`; blanks may follow. -/
def endingNumber? (cs : List Char) : Option (List Char) :=
  let number := trimEnd ((cs.reverse.takeWhile (· != '#')).reverse)
  if cs.contains '#' && isLiteral number then some number else none

/-- How brackets change the depth of nesting. -/
def nesting (depth : Int) (c : Char) : Int :=
  if c = '[' ∨ c = '\x7b' then depth + 1 else if c = ']' ∨ c = '\x7d' then depth - 1 else depth

/-- The fields of a text of which the part `field` has been read, at a depth of nesting. Only a comma outside all
    brackets ends a field; what remains at the end is a field when it is not blank. -/
def fieldsFrom (depth : Int) (field : List Char) : List Char → List (List Char)
  | [] => if (trim field).isEmpty then [] else [trim field]
  | c :: rest =>
    if c = ',' ∧ depth = 0 then trim field :: fieldsFrom depth [] rest
    else fieldsFrom (nesting depth c) (field ++ [c]) rest

/-- Whether one of the alphanumeric words of a field is the name of a register. -/
def mentions (register : String) (field : String) : Bool :=
  ((splitAt (fun c => !c.isAlphanum) field.toList).map String.ofList).contains register

/-! ## Instructions -/

/-- One instruction: its place, its bytes and its text. -/
structure Instruction where
  /-- The address of its first byte. -/
  address : UInt32
  /-- Its bytes. -/
  bytes : Bytes
  /-- The mnemonic. -/
  mnemonic : String
  /-- The operands. -/
  operands : String
deriving Repr, DecidableEq

namespace Instruction

/-- The number of bytes. -/
def size (i : Instruction) : UInt32 := UInt32.ofNat i.bytes.length

/-- The address of the byte that follows; addresses wrap around. -/
def stop (i : Instruction) : UInt32 := i.address + i.size

/-- Mnemonic and operands as one text, the form that patterns are matched against. -/
def text (i : Instruction) : String :=
  if i.operands.isEmpty then i.mnemonic else i.mnemonic ++ " " ++ i.operands

/-- An instruction as a line: its address and its text. -/
def line (i : Instruction) : String := hex8 i.address ++ ": " ++ i.text

/-- The mnemonic without the mark of its width. -/
def baseMnemonic (i : Instruction) : String := withoutWidth i.mnemonic

/-- Whether this is a call. -/
def isCall (i : Instruction) : Bool := i.baseMnemonic == "bl" || i.baseMnemonic == "blx"

/-- The literal that the operands end in. -/
def literalValue (i : Instruction) : Option UInt32 :=
  (endingNumber? i.operands.toList).bind fun number => (parseNumber (String.ofList number)).map lowWord

/-- The target of a direct branch. -/
def branchTarget (i : Instruction) : Option UInt32 := if isJump i.mnemonic then i.literalValue else none

/-- The operands between the commas outside brackets. -/
def operandFields (i : Instruction) : List String := (fieldsFrom 0 [] i.operands.toList).map String.ofList

/-- The mnemonics that write no register, by their beginnings. -/
def readingMnemonics : List String := ["st", "cmp", "cmn", "tst", "teq", "push", "it"]

/-- The register that the instruction writes as its first operand. -/
def writtenRegister (i : Instruction) : Option String :=
  let base := i.baseMnemonic
  if readingMnemonics.any (fun beginning => beginning.toList.isPrefixOf base.toList) || isJump i.mnemonic
      || base == "bx" then none
  else
    i.operandFields.head?.bind fun first =>
      let register := onChars (fun cs => (cs.reverse.dropWhile (· == '!')).reverse) first
      if isRegister register then some register else none

/-- Whether a register is among the operands that are read. -/
def readsRegister (i : Instruction) (register : String) : Bool :=
  (i.operandFields.drop (if i.writtenRegister.isSome then 1 else 0)).any (mentions register)

/-- The instruction with the registers nine to twelve under their numbered names. -/
def withPlainRegisters (i : Instruction) : Instruction :=
  { i with operands := plainRegisterNames i.operands }

@[simp] theorem bytes_withPlainRegisters (i : Instruction) : i.withPlainRegisters.bytes = i.bytes := rfl

@[simp] theorem mnemonic_withPlainRegisters (i : Instruction) : i.withPlainRegisters.mnemonic = i.mnemonic := rfl

end Instruction

end BinaryPatching.Thumb
