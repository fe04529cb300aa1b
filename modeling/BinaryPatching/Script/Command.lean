import BinaryPatching.Assembly.Basic
import BinaryPatching.Pattern.Bytes
import BinaryPatching.Pattern.Instruction
import BinaryPatching.Text.Replace

/-!
# `BinaryPatching.Script.Command` — the commands of a script

A script finds places in an image, changes what is there, and names the definition under which the changes are
filed. Commands are data here; how they are written is said in `Script.Vocabulary`, and what they do in
`Script.Execution`.

## Contents
- `Scope`, `Target`, `Constraints`: the parameters of searches.
- `Destination`: where patches are filed.
- `Command`: the commands.
-/

namespace BinaryPatching

open Text

/-! ## Searches -/

/-- The part of a file that is searched, and in which direction. -/
inductive Scope where
  /-- From the start. -/
  | first
  /-- From the cursor on. -/
  | next
  /-- From the cursor back. -/
  | previous
deriving Repr, DecidableEq

/-- What a call or a reference leads to. -/
inductive Target where
  /-- An address. -/
  | address (place : UInt32)
  /-- A symbol. -/
  | symbol (name : String)
deriving Repr, DecidableEq

namespace Target

/-- The target that a text names: an address if it is a number, and a symbol otherwise. -/
def ofText (text : String) : Target :=
  match parseNumber text with
  | some v => .address (lowWord v)
  | none => .symbol text

/-- The target as messages show it. -/
def text : Target → String
  | .address place => "0x" ++ hex8 place
  | .symbol name => name

end Target

/-- A register, and the pattern of the instruction that writes or reads it. -/
structure RegisterConstraint where
  /-- The register. -/
  register : String
  /-- The pattern, if it matters. -/
  pattern : Option InstructionPattern
deriving Repr, DecidableEq

/-- What must hold in the neighbourhood of an instruction. -/
structure Constraints where
  /-- The instruction before it that wrote a register last. -/
  writer : Option RegisterConstraint
  /-- The instruction behind it that reads a register first. -/
  reader : Option RegisterConstraint
deriving Repr, DecidableEq

/-! ## Destinations -/

/-- Where patches are filed, and where files are looked for and written. -/
structure Destination where
  /-- The name of the definition. -/
  name : String
  /-- The description of the version. -/
  version : String
  /-- The directory of the files, below the input root. -/
  relativePath : String
  /-- The directory of the patched files, below the output root; empty if none are written. -/
  relativeOutputPath : String
deriving Repr, DecidableEq

namespace Destination

/-- What stands for the version in an output path. -/
def versionMark : String := "%VERSION%"

/-- The directory of the patched files, for this version. -/
def outputPath (d : Destination) : String :=
  onChars (replaceAll versionMark.toList d.version.toList) d.relativeOutputPath

/-- The path under which a file is recorded. -/
def recordPath (d : Destination) (name : String) : String :=
  let directory := Path.normalize d.relativePath
  let name := Path.normalize name
  if directory.isEmpty then name
  else onChars (fun cs => (cs.reverse.dropWhile (· == '\\')).reverse) directory ++ "\\" ++ name

end Destination

/-! ## Commands -/

/-- The commands. -/
inductive Command where
  /-- Patches are filed at a destination from here on. -/
  | fileUnder (destination : Destination)
  /-- The file to be patched is opened. -/
  | openFile (path : String)
  /-- The open file is closed and its patches are filed. -/
  | closeFile
  /-- The definitions are written to their file. -/
  | writeDefinitions
  /-- Bytes are looked for; `what` describes them. -/
  | findBytes (scope : Scope) (pattern : BytePattern) (what : String)
  /-- Instructions are looked for; the cursor is put on one at a distance from the first. -/
  | findInstructions (scope : Scope) (pattern : InstructionPattern) (distance : Int)
  /-- An instruction with a literal is looked for. -/
  | findValue (scope : Scope) (value : UInt32)
  /-- A conditional jump is looked for. -/
  | findConditionalJump (scope : Scope)
  /-- A call is looked for. -/
  | findCall (scope : Scope) (target : Target) (constraints : Constraints)
  /-- The cursor goes to the first instruction with a target as its literal. -/
  | jumpToReference (target : Target) (constraints : Constraints)
  /-- The cursor goes to an import. -/
  | jumpToImport (name : String)
  /-- The cursor goes to an export. -/
  | jumpToExport (name : String)
  /-- The cursor goes to the literal of its instruction. -/
  | jumpToTarget
  /-- The cursor goes to an address. -/
  | jumpToAddress (place : UInt32)
  /-- The cursor goes to a labelled address. -/
  | jumpToLabel (name : String)
  /-- The cursor goes back to where it was before the last jump. -/
  | jumpBack
  /-- The address of the cursor gets a label. -/
  | createLabel (name : String)
  /-- The script goes on at a label. -/
  | goTo (label : String)
  /-- The script goes on at a label if the last search had a hit. -/
  | goToIfFound (label : String)
  /-- The script goes on at a label if the last search had no hit. -/
  | goToIfNotFound (label : String)
  /-- The script ends with an error if the last search had a hit. -/
  | failIfFound (message : String)
  /-- The script ends with an error if the last search had no hit. -/
  | failIfNotFound (message : String)
  /-- The conditional jump at the cursor is always taken from here on, or, if it has another mnemonic, never. -/
  | makeUnconditional (mnemonic : String)
  /-- Code is assembled and written at the cursor. -/
  | patchCode (codeType : CodeType) (body : String)
  /-- Bytes are written at the cursor. -/
  | patchBytes (bytes : Bytes)
  /-- A text in UTF-8 and a zero are written at the cursor. -/
  | patchText (text : String)
  /-- A text in UTF-16 and a zero are written at the cursor. -/
  | patchTextWide (text : String)
  /-- The checksum of the image is brought up to date. -/
  | patchChecksum
  /-- A message is reported. -/
  | report (message : String)
deriving Repr, DecidableEq

end BinaryPatching
