import BinaryPatching.Code.Listing
import BinaryPatching.Image.Basic
import BinaryPatching.Patch.Error
import BinaryPatching.Script.Basic

/-!
# `BinaryPatching.Script.Error` — why a script fails

## Contents
- `ExecutionError`: why a command fails.
- `ScriptError`: why a run of a whole script fails.
-/

namespace BinaryPatching

open Text

/-- Why a command fails. -/
inductive ExecutionError where
  /-- No destination has been named. -/
  | noDefinition
  /-- No file is open. -/
  | noOpenFile
  /-- There is no such label. -/
  | labelNotFound (label : String)
  /-- The label is there already. -/
  | duplicateLabel (label : String)
  /-- No section maps the address. -/
  | badAddress (place : UInt32)
  /-- No instruction starts at the address. -/
  | noInstruction (place : UInt32)
  /-- The instruction at the address is no conditional jump. -/
  | notConditionalJump (place : UInt32) (text : String)
  /-- The instruction at the address leads nowhere. -/
  | noTarget (place : UInt32)
  /-- A branch cannot be encoded. -/
  | branchOutOfRange (source target size : UInt32)
  /-- There is no instruction of the size that does nothing. -/
  | unsupportedWidth (place size : UInt32)
  /-- A hit and the distance from it lead out of the code. -/
  | indexOutOfRange (distance : Int)
  /-- There was no jump to go back from. -/
  | emptyHistory
  /-- The script takes too many steps. -/
  | stepLimit (limit : Nat)
  /-- There is no file for the definitions. -/
  | noDefinitionsPath
  /-- The script itself says so. -/
  | raised (message : String)
  /-- The image does not allow it. -/
  | image (cause : ImageError)
  /-- A listing does not serve. -/
  | listing (cause : ListingError)
  /-- There is no code. -/
  | assembler (cause : AssemblerError)
  /-- A patch cannot be made. -/
  | patch (cause : PatchError)
  /-- A file cannot be written. -/
  | io (cause : IoError)
deriving Repr, DecidableEq

/-- The wording of an error. -/
def ExecutionError.message : ExecutionError → String
  | .noDefinition => "No patch definition is active"
  | .noOpenFile => "No file is open for patching"
  | .labelNotFound label => "Label not found: " ++ label
  | .duplicateLabel label => "Label already defined: " ++ label
  | .badAddress place => "Address 0x" ++ hex8 place ++ " is not mapped"
  | .noInstruction place => "No instruction at 0x" ++ hex8 place
  | .notConditionalJump place text =>
    "Instruction at 0x" ++ hex8 place ++ " is not a conditional jump (" ++ text ++ ")"
  | .noTarget place => "Instruction at 0x" ++ hex8 place ++ " has no target address"
  | .branchOutOfRange source target size =>
    "Branch from 0x" ++ hex8 source ++ " to 0x" ++ hex8 target ++ " cannot be encoded in " ++ decimal size.toNat
      ++ " bytes"
  | .unsupportedWidth place size =>
    "Instruction at 0x" ++ hex8 place ++ " has unsupported width " ++ decimal size.toNat
  | .indexOutOfRange distance => "Match index " ++ signedDecimal distance ++ " is outside the code map"
  | .emptyHistory => "Jump history is empty"
  | .stepLimit limit => "Step limit of " ++ decimal limit ++ " commands exceeded"
  | .noDefinitionsPath => "No definitions path is configured"
  | .raised message => message
  | .image cause => "Image error: " ++ cause.message
  | .listing cause => "Analysis error: " ++ cause.message
  | .assembler cause => "Assembler error: " ++ cause.message
  | .patch cause => "Patch error: " ++ cause.message
  | .io cause => "IO error: " ++ cause.message

/-- Why a run of a whole script fails. -/
inductive ScriptError where
  /-- The text is no script. -/
  | parse (cause : ParseError)
  /-- A command fails; it is named by its line and its text. -/
  | execution (line : Nat) (command : String) (cause : ExecutionError)
  /-- The script cannot be read. -/
  | io (cause : IoError)
  /-- The definitions cannot be read or written. -/
  | patch (cause : PatchError)
deriving Repr, DecidableEq

/-- The wording of an error. -/
def ScriptError.message : ScriptError → String
  | .parse cause => "Parse error: " ++ cause.message
  | .execution line command cause => "Line " ++ decimal line ++ " (" ++ command ++ "): " ++ cause.message
  | .io cause => "IO error: " ++ cause.message
  | .patch cause => "Patch error: " ++ cause.message

end BinaryPatching
