import BinaryPatching.FileTree.Basic
import BinaryPatching.Json.Decoding
import BinaryPatching.Text.Position

/-!
# `BinaryPatching.Patch.Error` — what can go wrong with patches

## Contents
- `Duplicate`: what must be there only once.
- `PatchError`, `PatchError.message`: the errors and their wording.
- `PatchError.cause?`: the wording of what lies behind an error.
-/

namespace BinaryPatching

open Text

/-- What must not be there twice. -/
inductive Duplicate where
  /-- A definition of a name. -/
  | definition (name : String)
  /-- A version of a description, within a definition. -/
  | version (name description : String)
  /-- A file of a path. -/
  | file (path : String)
  /-- A patch at an address, within a file. -/
  | address (path : String) (place : UInt32)
deriving Repr, DecidableEq

/-- The wording of a duplicate. -/
def Duplicate.text : Duplicate → String
  | .definition name => "patch definition: " ++ name
  | .version name description => "target version: " ++ name ++ "/" ++ description
  | .file path => "target file: " ++ path
  | .address path place => "patch address: " ++ path ++ "@0x" ++ hex8 place

/-- What can go wrong with patches. -/
inductive PatchError where
  /-- A file cannot be read or written. -/
  | io (cause : IoError)
  /-- A text is not that of a store; the position is behind the part that has the fault. -/
  | json (fault : JsonFault) (position : Position)
  /-- There is no definition of the name. -/
  | definitionNotFound (name : String)
  /-- Something is there twice. -/
  | duplicate (what : Duplicate)
  /-- A patch would change the size of a file. -/
  | lengthMismatch (address : UInt32) (unpatched patched : Nat)
  /-- A patch does not lie inside the file. -/
  | outOfBounds (address : UInt32) (length : Nat)
deriving Repr, DecidableEq

/-- The wording of an error. -/
def PatchError.message : PatchError → String
  | .io cause => "IO error: " ++ cause.message
  | .json fault position => "JSON error: " ++ position.mark fault.message
  | .definitionNotFound name => "Patch definition not found: " ++ name
  | .duplicate what => "Duplicate " ++ what.text
  | .lengthMismatch address unpatched patched =>
    "Patch at 0x" ++ hex8 address ++ " changes size (" ++ decimal unpatched ++ " -> " ++ decimal patched ++ " bytes)"
  | .outOfBounds address length =>
    "Patch at 0x" ++ hex8 address ++ " (" ++ decimal length ++ " bytes) is outside the file"

/-- The wording of what lies behind an error, if it is not an error of its own. -/
def PatchError.cause? : PatchError → Option String
  | .io cause => some cause.message
  | .json fault position => some (position.mark fault.message)
  | _ => none

end BinaryPatching
