import BinaryPatching.Text.Blank
import BinaryPatching.Text.Lowercase

/-!
# `BinaryPatching.CommandLine.LogLevel` — how much is reported

## Contents
- `LogLevel`, `LogLevel.name`: the levels, from silence to everything.
- `LogLevel.ofText`: the level that a text asks for.
-/

namespace BinaryPatching

/-- How much is reported while a command runs. -/
inductive LogLevel where
  /-- Nothing. -/
  | off
  /-- Errors. -/
  | error
  /-- Warnings, and the level before. -/
  | warn
  /-- Progress, and the levels before. -/
  | info
  /-- Details, and the levels before. -/
  | debug
  /-- Everything. -/
  | trace
deriving Repr, DecidableEq

/-- The name of a level. -/
def LogLevel.name : LogLevel → String
  | .off => "OFF"
  | .error => "ERROR"
  | .warn => "WARN"
  | .info => "INFO"
  | .debug => "DEBUG"
  | .trace => "TRACE"

/-- The level of a name in any case. Every other text asks for progress. -/
def LogLevel.ofText (text : String) : LogLevel :=
  let name := Text.onChars Text.lowercase text
  if name = "error" then .error
  else if name = "warn" ∨ name = "warning" then .warn
  else if name = "debug" then .debug
  else if name = "trace" then .trace
  else if name = "off" then .off
  else .info

end BinaryPatching
