import BinaryPatching.Bytes.Hex
import BinaryPatching.Code.Map
import BinaryPatching.FileTree.Basic
import BinaryPatching.Text.Lowercase

/-!
# `BinaryPatching.Code.Listing` — code kept in a file

The code of a file is written down once and read back as long as the file stays the same. The first line names the
digest of the file; every other line holds an address, bytes, mnemonic and operands between tabs.

## Contents
- `ListingError`: what can be wrong with a listing.
- `Listing.text`, `Listing.save`: writing.
- `Listing.parseLine`, `Listing.load`: reading.
-/

namespace BinaryPatching

open Text Thumb

/-- Why a line is no line of a listing. -/
inductive ListingFault where
  /-- There is no tab. -/
  | missingBytes
  /-- There is only one tab. -/
  | missingMnemonic
  /-- The address is no hexadecimal number of 32 bits. -/
  | badAddress
  /-- The bytes are no hexadecimal pairs. -/
  | badBytes
deriving Repr, DecidableEq

/-- The wording of a fault. -/
def ListingFault.message : ListingFault → String
  | .missingBytes => "missing bytes"
  | .missingMnemonic => "missing mnemonic"
  | .badAddress => "bad address"
  | .badBytes => "bad bytes"

/-- What can be wrong with a listing. -/
inductive ListingError where
  /-- The file cannot be read or written. -/
  | io (cause : IoError)
  /-- A line makes no sense. Lines are counted from one. -/
  | invalidLine (line : Nat) (fault : ListingFault)
deriving Repr, DecidableEq

/-- The wording of an error. -/
def ListingError.message : ListingError → String
  | .io cause => "IO error: " ++ cause.message
  | .invalidLine line fault => "Invalid listing line " ++ decimal line ++ ": " ++ fault.message

/-- The wording of what lies behind an error, if it is not an error of its own. -/
def ListingError.cause? : ListingError → Option String
  | .io cause => some cause.message
  | .invalidLine .. => none

namespace Listing

/-! ## Writing -/

/-- The beginning of the first line. -/
def headerMark : String := "; sha1 "

/-- The line of an instruction. -/
def instructionLine (i : Instruction) : String :=
  hex8 i.address ++ "\t" ++ Bytes.hex i.bytes ++ "\t" ++ i.mnemonic ++ "\t" ++ i.operands ++ "\n"

/-- The listing of the code of a file with a digest. -/
def text (code : CodeMap) (digest : String) : String :=
  headerMark ++ digest ++ "\n" ++ String.join (code.instructions.map instructionLine)

/-- The tree with a listing written to a file, whose directories are made. -/
def save (tree : FileTree) (code : CodeMap) (digest path : String) : Except ListingError FileTree :=
  match tree.writeWithParents path (Bytes.ofText (text code digest)) with
  | .ok tree => .ok tree
  | .error e => .error (.io e)

/-! ## Reading -/

/-- The bytes of the lines of a file whose current line is `line`, without their line ends. A carriage return before
    a line end belongs to it. -/
def byteLinesFrom (line : Bytes) : Bytes → List Bytes
  | [] => if line.isEmpty then [] else [line]
  | b :: rest =>
    if b = 10 then (if line.getLast? = some 13 then line.dropLast else line) :: byteLinesFrom [] rest
    else byteLinesFrom (line ++ [b]) rest

/-- The bytes of the lines of a file. -/
def byteLines (data : Bytes) : List Bytes := byteLinesFrom [] data

/-- The instruction of a line. Further tabs belong to the operands, which may be missing. -/
def parseLine (line : List Char) : Except ListingFault Instruction :=
  match splitOnce '\t' line with
  | none => .error .missingBytes
  | some (address, rest) =>
    match splitOnce '\t' rest with
    | none => .error .missingMnemonic
    | some (bytes, rest) =>
      let (mnemonic, operands) := (splitOnce '\t' rest).getD (rest, [])
      match readUnsigned 16 0x100000000 (trim address) with
      | none => .error .badAddress
      | some address =>
        match Bytes.ofHex? (String.ofList bytes) with
        | none => .error .badBytes
        | some bytes =>
          .ok ⟨UInt32.ofNat address, bytes, String.ofList mnemonic, String.ofList operands⟩

/-- The instructions of the lines from a line number on. Blank lines hold none. -/
def parseLines (number : Nat) : List Bytes → Except ListingError (List Instruction)
  | [] => .ok []
  | line :: rest =>
    match Bytes.text? line with
    | none => .error (.io .invalidText)
    | some text =>
      if (trim text.toList).isEmpty then parseLines (number + 1) rest
      else
        match parseLine text.toList with
        | .error fault => .error (.invalidLine number fault)
        | .ok i =>
          match parseLines (number + 1) rest with
          | .error e => .error e
          | .ok is => .ok (i :: is)

/-- Whether a first line is that of a listing for a digest. -/
def isHeaderFor (digest : String) (line : List Char) : Bool :=
  headerMark.toList.isPrefixOf line &&
    equalIgnoringCase (String.ofList (trim (line.drop headerMark.toList.length))) digest

/-- The code in the content of a listing, if the listing was made for a digest. -/
def read (data : Bytes) (digest : String) : Except ListingError (Option CodeMap) :=
  match byteLines data with
  | [] => .ok none
  | header :: rest =>
    match Bytes.text? header with
    | none => .error (.io .invalidText)
    | some text =>
      if isHeaderFor digest text.toList then
        match parseLines 2 rest with
        | .error e => .error e
        | .ok is => .ok (some (.ofList is))
      else .ok none

/-- The code in a listing file, if there is one and it was made for a digest. -/
def load (tree : FileTree) (path digest : String) : Except ListingError (Option CodeMap) :=
  if tree.exists? path then
    match tree.read path with
    | .error e => .error (.io e)
    | .ok data => read data digest
  else .ok none

end Listing

end BinaryPatching
