import BinaryPatching.Assembly.Basic
import BinaryPatching.Text.Word

/-!
# `BinaryPatching.Assembly.Source` — the source of a fragment of code

A fragment is written as if it stood at its address in the image, but the assembler puts it at an address of its
own. So absolute addresses in branches and definitions of labels are written relative to a label at the start of
the fragment, and padding is put in front so that addresses below the start exist. The padding keeps the word
alignment of the start.

## Contents
- `branchLine?`, `equateLine?`: the lines that name an address.
- `relativeLine`: a line with its address made relative.
- `paddingFor`: the padding for the lowest address named.
- `buildSource`: the whole source.
-/

namespace BinaryPatching

open Text

/-! ## Lines that name an address -/

/-- A line that names an address at its end. -/
structure AddressLine where
  /-- What stands before the address. -/
  before : List Char
  /-- The address. -/
  target : UInt32
deriving Repr, DecidableEq

/-- The small form of a letter, for comparisons in which the long s and the sign for kelvin count as letters. -/
def foldLetter (c : Char) : Char :=
  if c.toNat = 0x17F then 's' else if c.toNat = 0x212A then 'k' else c.toLower

/-- The mnemonics of the branches whose targets are made relative. -/
def relocatableBranches : List String :=
  ["b", "bl", "blx", "beq", "bne", "bcs", "bhs", "bcc", "blo", "bmi", "bpl", "bvs", "bvc", "bhi", "bls", "bge",
    "blt", "bgt", "ble", "bal", "cbz", "cbnz"]

/-- Whether a word is such a mnemonic, in any case, with or without the mark of a width. -/
def isRelocatableBranch (word : List Char) : Bool :=
  let small := word.map foldLetter
  relocatableBranches.any fun m =>
    let m := m.toList
    small == m || small == m ++ ['.', 'w'] || small == m ++ ['.', 'n']

/-- The address that a text consists of, in hexadecimal after `0x`, blanks behind it apart. -/
def hexAddress? (cs : List Char) : Option UInt32 :=
  let number := cs.takeWhile fun c => !isBlank c
  match afterHexMark number with
  | some digits =>
    if (cs.dropWhile fun c => !isBlank c).all isBlank && !digits.isEmpty && digits.all (isDigitOf 16) then
      (parseNumber (String.ofList number)).map lowWord
    else none
  | none => none

/-- A register operand at the start of a text, up to the first character that is not blank behind its comma; empty
    if there is none. -/
def registerOperand (cs : List Char) : List Char :=
  match cs with
  | c :: rest =>
    let digits := rest.takeWhile isDecimal
    let behind := rest.drop digits.length
    let gap := behind.takeWhile isBlank
    match behind.drop gap.length with
    | ',' :: rest =>
      if (c == 'r' || c == 'R') && !digits.isEmpty then c :: digits ++ gap ++ ',' :: rest.takeWhile isBlank else []
    | _ => []
  | [] => []

/-- The address in a line that is a branch: a mnemonic, for some a register, and the address. -/
def branchLine? (line : List Char) : Option AddressLine :=
  let indent := line.takeWhile isBlank
  let rest := line.drop indent.length
  let word := rest.takeWhile fun c => !isBlank c
  let rest := rest.drop word.length
  let gap := rest.takeWhile isBlank
  let rest := rest.drop gap.length
  let register := registerOperand rest
  let rest := rest.drop register.length
  let number := match rest with
    | '#' :: number => number
    | _ => rest
  if isRelocatableBranch word && !gap.isEmpty then
    (hexAddress? number).map fun target => ⟨indent ++ word ++ gap ++ register, target⟩
  else none

/-- Whether a word can name a label. -/
def isLabel (word : List Char) : Bool :=
  match word with
  | c :: rest => ((foldLetter c).isAlpha || c == '_') && rest.all isWord
  | [] => false

/-- The address in a line that gives an address to a label. -/
def equateLine? (line : List Char) : Option AddressLine :=
  let indent := line.takeWhile isBlank
  let rest := line.drop indent.length
  let label := rest.takeWhile fun c => !isBlank c
  let rest := rest.drop label.length
  let gap := rest.takeWhile isBlank
  let rest := rest.drop gap.length
  let word := rest.takeWhile fun c => !isBlank c
  let rest := rest.drop word.length
  let gap2 := rest.takeWhile isBlank
  let number := rest.drop gap2.length
  if isLabel label && word.map Char.toLower == ['e', 'q', 'u'] && !gap2.isEmpty then
    (hexAddress? number).map fun target => ⟨indent ++ label ++ gap ++ word ++ gap2, target⟩
  else none

/-- The address that a line names. -/
def addressLine? (line : List Char) : Option AddressLine := (branchLine? line).or (equateLine? line)

/-! ## The source -/

/-- The label at the start of the fragment. -/
def originLabel : String := "patch_origin"

/-- An address relative to the start of the fragment. -/
def relativeAddress (origin target : UInt32) : String :=
  if origin ≤ target then originLabel ++ " + 0x" ++ upperHex (target - origin).toNat
  else originLabel ++ " - 0x" ++ upperHex (origin - target).toNat

/-- A line with the address that it names made relative. -/
def relativeLine (origin : UInt32) (line : List Char) : String :=
  match addressLine? line with
  | some l => String.ofList l.before ++ relativeAddress origin l.target
  | none => String.ofList line

/-- The lowest of the start and the addresses that the lines name. -/
def lowestAddress (origin : UInt32) (lines : List (List Char)) : UInt32 :=
  (lines.filterMap addressLine?).foldl (fun lowest l => if l.target < lowest then l.target else lowest) origin

/-- The padding that reaches down to an address: as much as needed, and up to three bytes more, so that the start
    has the same word alignment behind it as in the image. -/
def paddingFor (origin lowest : UInt32) : UInt32 :=
  if origin ≤ lowest then 0
  else
    let needed := origin - lowest
    needed + (origin % 4 + 4 - needed % 4) % 4

/-- A source, with the padding at its start. -/
structure AssemblySource where
  /-- The text. -/
  text : String
  /-- The number of bytes of padding. -/
  padding : UInt32
deriving Repr, DecidableEq

/-- The source of a fragment at an address. -/
def buildSource (origin : UInt32) (codeType : CodeType) (body : String) : AssemblySource :=
  let lines := Text.lines body.toList
  let padding := paddingFor origin (lowestAddress origin lines)
  { text := "    AREA |.text|, CODE, READONLY\n    " ++ codeType.directive ++ "\n"
      ++ (if padding = 0 then "" else "    SPACE " ++ decimal padding.toNat ++ "\n")
      ++ originLabel ++ "\n"
      ++ String.join (lines.map fun line => relativeLine origin line ++ "\n")
      ++ "    END\n"
    padding }

end BinaryPatching
