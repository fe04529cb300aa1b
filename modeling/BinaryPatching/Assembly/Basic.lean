import BinaryPatching.FileTree.Basic
import BinaryPatching.Image.ObjectFile
import BinaryPatching.Text.Lowercase

/-!
# `BinaryPatching.Assembly.Basic` — kinds of code and assemblers

## Contents
- `AssemblerError`: why there is no code.
- `CodeType`, `CodeType.parse`: the kinds of code.
- `AssemblyRequest`, `Assembler`: what an assembler is asked, and one that answers from a list.
-/

namespace BinaryPatching

open Text

/-- Why there is no code. -/
inductive AssemblerError where
  /-- The assembler or its files cannot be reached. -/
  | io (cause : IoError)
  /-- There is no assembler. -/
  | notConfigured
  /-- A text is no kind of code. -/
  | unknownCodeType (text : String)
  /-- The assembler refused the source. -/
  | failed (diagnostic : String)
  /-- The assembler took too long. -/
  | timeout (seconds : Nat)
  /-- The object file makes no sense, or its code section reaches beyond its end. -/
  | invalidObject (outOfBounds : Bool)
  /-- The object file has no code section. -/
  | noCodeSection
  /-- The code is empty. -/
  | empty
deriving Repr, DecidableEq

/-- The wording of an error. -/
def AssemblerError.message : AssemblerError → String
  | .io cause => "IO error: " ++ cause.message
  | .notConfigured => "No assembler configured"
  | .unknownCodeType text => "Unknown code type: " ++ text
  | .failed diagnostic => "Assembler failed:\n" ++ diagnostic
  | .timeout seconds => "Assembler timed out after " ++ decimal seconds ++ "s"
  | .invalidObject true => "Invalid object file: code section out of bounds"
  | .invalidObject false => "Invalid object file: the headers are malformed"
  | .noCodeSection => "Object file has no code section"
  | .empty => "Assembled code is empty"

/-- The error that stands for the lack of code in an object file. -/
def ObjectError.toAssemblerError : ObjectError → AssemblerError
  | .malformed => .invalidObject false
  | .outOfBounds => .invalidObject true
  | .noCodeSection => .noCodeSection
  | .empty => .empty

/-- The kinds of code. -/
inductive CodeType where
  /-- Wide instructions only. -/
  | arm
  /-- Short instructions. -/
  | thumb
  /-- Short and wide instructions mixed. -/
  | thumb2
deriving Repr, DecidableEq

namespace CodeType

/-- The name of a kind. -/
def name : CodeType → String
  | arm => "ARM"
  | thumb => "Thumb"
  | thumb2 => "Thumb2"

/-- The directive that announces the kind to the assembler. -/
def directive : CodeType → String
  | arm => "ARM"
  | thumb => "THUMB"
  | thumb2 => "THUMB"

/-- The kind of a name in any case. -/
def parse (text : String) : Except AssemblerError CodeType :=
  let name := onChars lowercase text
  if name = "arm" then .ok arm
  else if name = "thumb" then .ok thumb
  else if name = "thumb2" then .ok thumb2
  else .error (.unknownCodeType text)

end CodeType

/-- What an assembler is asked: code of a kind from a source, for an address. -/
structure AssemblyRequest where
  /-- The address. -/
  origin : UInt32
  /-- The kind of code. -/
  codeType : CodeType
  /-- The source. -/
  body : String
deriving Repr, DecidableEq

/-- An assembler as a run sees it: its answers in order, one for each request, and the requests so far. -/
structure Assembler where
  /-- The answers still to come. -/
  replies : List (Except AssemblerError Bytes)
  /-- The answer when they are used up. -/
  otherwise : AssemblerError
  /-- The requests so far, first to last. -/
  requests : List AssemblyRequest

namespace Assembler

/-- The assembler that answers everything with an error. -/
def failing (e : AssemblerError) : Assembler := ⟨[], e, []⟩

/-- The answer to a request, and the assembler afterwards. -/
def ask (a : Assembler) (request : AssemblyRequest) : Except AssemblerError Bytes × Assembler :=
  match a.replies with
  | [] => (.error a.otherwise, { a with requests := a.requests ++ [request] })
  | reply :: rest => (reply, { a with replies := rest, requests := a.requests ++ [request] })

end Assembler

end BinaryPatching
