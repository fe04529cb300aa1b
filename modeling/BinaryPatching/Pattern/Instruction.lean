import BinaryPatching.Pattern.Token
import BinaryPatching.Text.Split
import BinaryPatching.Thumb.Instruction

/-!
# `BinaryPatching.Pattern.Instruction` — patterns for instructions

A pattern is written like an instruction, with `?` for any one token and `r?` for any register. Patterns for
several instructions in a row are separated by semicolons.

## Contents
- `Token.agrees`, `matchesTokens`: one instruction against one pattern.
- `matchesText`: the same from their texts.
- `InstructionPattern`: patterns for several instructions, with `InstructionPattern.parse` and
  `InstructionPattern.matchesRun`.
-/

namespace BinaryPatching

open Text Thumb

/-- Whether a token of an instruction agrees with one of a pattern. Numbers are compared by value. -/
def Token.agrees (actual expected : Token) : Bool :=
  expected.isWildcard
    || (if expected.isRegisterWildcard then actual.text.toList.head? == some 'r'
        else actual.text == expected.text || (actual.value.isSome && actual.value == expected.value))

/-- Whether the mnemonic of an instruction is the one wanted. It may have a mark for a wide encoding that the
    pattern lacks. -/
def sameMnemonic (mnemonic wanted : Token) : Bool :=
  mnemonic.text == wanted.text || withoutEnding? ['.', 'w'] mnemonic.text.toList == some wanted.text.toList

/-- Whether the tokens of an instruction match those of a pattern. A single `?`, alone or after the mnemonic,
    stands for everything; otherwise there is one token for each of the pattern. -/
def matchesTokens (instruction pattern : List Token) : Bool :=
  match instruction, pattern with
  | mnemonic :: operands, wanted :: expected =>
    if expected.isEmpty && wanted.isWildcard then true
    else if !sameMnemonic mnemonic wanted then false
    else
      match expected with
      | [] => true
      | [only] =>
        only.isWildcard || (operands.length == 1 && (operands.zip expected).all fun (a, e) => a.agrees e)
      | _ => operands.length == expected.length && (operands.zip expected).all fun (a, e) => a.agrees e
  | _, _ => false

/-- Whether an instruction matches a pattern, both given by their texts. -/
def matchesText (instruction pattern : String) : Except PatternError Bool :=
  match tokenizeInstruction instruction with
  | .error e => .error e
  | .ok actual =>
    match tokenizeInstruction pattern with
    | .error e => .error e
    | .ok expected => .ok (matchesTokens actual expected)

/-- Patterns for instructions that follow one another. -/
structure InstructionPattern where
  /-- The text they were read from. -/
  source : String
  /-- The tokens of every pattern. -/
  parts : List (List Token)
  /-- There is at least one. -/
  nonempty : parts ≠ []
deriving Repr, DecidableEq

namespace InstructionPattern

/-- The number of instructions looked for. -/
def size (p : InstructionPattern) : Nat := p.parts.length

/-- The tokens of every text, up to the first that has none. -/
def tokenizeAll : List String → Except PatternError (List (List Token))
  | [] => .ok []
  | text :: rest =>
    match tokenizeInstruction text with
    | .error e => .error e
    | .ok tokens => (tokenizeAll rest).map (tokens :: ·)

/-- The patterns of a text. Blank parts between semicolons are passed over, but one has to be left. -/
def parse (source : String) : Except PatternError InstructionPattern :=
  let texts := ((splitAt (· == ';') source.toList).map trim).filter fun part => !part.isEmpty
  match tokenizeAll (texts.map String.ofList) with
  | .error e => .error e
  | .ok parts => if h : parts = [] then .error .empty else .ok ⟨source, parts, h⟩

/-- Whether an instruction matches the tokens of a pattern. An instruction that has no tokens matches none. -/
def matchesInstruction (part : List Token) (i : Instruction) : Bool :=
  match tokenizeInstruction i.text with
  | .ok tokens => matchesTokens tokens part
  | .error _ => false

/-- Whether the instructions at the front of a list match every part in order. -/
def matchesParts : List (List Token) → List Instruction → Bool
  | [], _ => true
  | _ :: _, [] => false
  | part :: parts, i :: rest => matchesInstruction part i && matchesParts parts rest

/-- Whether a list of instructions starts with those looked for. -/
def matchesRun (p : InstructionPattern) (run : List Instruction) : Bool := matchesParts p.parts run

end InstructionPattern

end BinaryPatching
