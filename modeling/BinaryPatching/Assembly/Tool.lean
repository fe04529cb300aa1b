import BinaryPatching.Assembly.Source

/-!
# `BinaryPatching.Assembly.Tool` — assembling with a program of its own

The source goes to an outside program, which leaves an object file. What the program does is a value here, so that
all that follows from it is a function.

## Contents
- `Invocation`: how the program is called.
- `ToolRun`: what the program does.
- `assembleWith`: the code that comes of it.
-/

namespace BinaryPatching

open Text

/-- A call of the program. -/
structure Invocation where
  /-- Whether short code is asked for, on the command line. -/
  asksForShortCode : Bool
  /-- The source. -/
  source : AssemblySource
deriving Repr, DecidableEq

/-- The call for a fragment. Short code has to be asked for. -/
def Invocation.of (request : AssemblyRequest) : Invocation :=
  ⟨request.codeType ≠ .arm, buildSource request.origin request.codeType request.body⟩

/-- What the program does when it is called. -/
inductive ToolRun where
  /-- It cannot be started. -/
  | refused (cause : IoError)
  /-- It does not end within the time it is given. -/
  | tooLong
  /-- It ends, with success or not, and may leave an object file and messages. -/
  | ended (success : Bool) (object : Option Bytes) (messages : String)
deriving Repr, DecidableEq

/-- The code that comes of a call, when the program is given a number of seconds. -/
def assembleWith (seconds : Nat) (call : Invocation) (run : ToolRun) : Except AssemblerError Bytes :=
  match run with
  | .refused cause => .error (.io cause)
  | .tooLong => .error (.timeout seconds)
  | .ended true (some object) _ =>
    match ObjectFile.code object call.source.padding with
    | .ok code => .ok code
    | .error e => .error e.toAssemblerError
  | .ended _ _ messages => .error (.failed (onChars trim messages))

end BinaryPatching
