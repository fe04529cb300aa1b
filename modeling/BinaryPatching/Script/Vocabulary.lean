import BinaryPatching.Script.Argument

/-!
# `BinaryPatching.Script.Vocabulary` — how commands are written

Every command has a name and a row of parameters. Several names can stand for one kind of command, as those of the
searches for each scope do.

## Contents
- `CommandForm`: a name, its parameters, and the command they make.
- `CommandForm.all`: all names of the language.
- `CommandForm.named?`: the form of a name in any case.
- `commandName`: the name at the start of a line.
-/

namespace BinaryPatching

open Text

/-- A command as it is written. -/
structure CommandForm where
  /-- Its name. -/
  name : String
  /-- Its parameters. -/
  parameters : List Parameter
  /-- The command that values of the parameters make. -/
  build : Arguments → Except BindError Command

namespace CommandForm

/-! ## Searches -/

/-- A search for a text. -/
def findText (scope : Scope) (pattern : String → BytePattern) (a : Arguments) : Except BindError Command :=
  let text := a.text "Text"
  if (pattern text).isEmpty then .error (a.invalid "Text" .emptyText)
  else .ok (.findBytes scope (pattern text) ("\"" ++ text ++ "\""))

/-- A search for bytes. -/
def findBytes (scope : Scope) (a : Arguments) : Except BindError Command :=
  (a.bytePattern "Bytes").map fun p => .findBytes scope p p.written

/-- A search for instructions. -/
def findInstructions (scope : Scope) (a : Arguments) : Except BindError Command :=
  match a.instructionPattern "Pattern" with
  | .error e => .error e
  | .ok p => (a.number "Index").map fun distance => .findInstructions scope p distance

/-- A search for a literal, of which the low 32 bits count. -/
def findValue (scope : Scope) (a : Arguments) : Except BindError Command :=
  (a.number "Value").map fun v => .findValue scope (lowWord v)

/-- A search for calls. -/
def findCall (scope : Scope) (a : Arguments) : Except BindError Command :=
  a.constraints.map fun c => .findCall scope (.ofText (a.text "Target")) c

/-- The parameters of searches for calls and references. -/
def callParameters : List Parameter :=
  [.required "Target", .optional "PreRegister" "", .optional "PrePattern" "", .optional "PostRegister" "",
    .optional "PostPattern" ""]

/-- The parameters of searches for instructions. -/
def patternParameters : List Parameter := [.required "Pattern", .optional "Index" "0"]

/-! ## All names -/

/-- A command without parameters. -/
def plain (name : String) (command : Command) : CommandForm := ⟨name, [], fun _ => .ok command⟩

/-- A command with one parameter whose text it takes as it is. -/
def textual (name parameter : String) (command : String → Command) : CommandForm :=
  ⟨name, [.required parameter], fun a => .ok (command (a.text parameter))⟩

/-- All names of the language. -/
def all : List CommandForm :=
  [⟨"PatchDefinition",
      [.required "Name", ⟨"Version", ["VersionFrom"], none⟩, .optional "RelativePath" "",
        .optional "RelativeOutputPath" ""],
      fun a => .ok (.fileUnder
        ⟨a.text "Name", a.text "Version", a.text "RelativePath", a.text "RelativeOutputPath"⟩)⟩,
    textual "PatchFile" "Path" .openFile,
    plain "ClosePatchFile" .closeFile,
    plain "WriteDefinitions" .writeDefinitions,
    ⟨"FindFirstAscii", [.required "Text"], findText .first .ofText⟩,
    ⟨"FindNextAscii", [.required "Text"], findText .next .ofText⟩,
    ⟨"FindFirstUnicode", [.required "Text"], findText .first .ofTextWide⟩,
    ⟨"FindNextUnicode", [.required "Text"], findText .next .ofTextWide⟩,
    ⟨"FindFirstBytes", [.required "Bytes"], findBytes .first⟩,
    ⟨"FindNextBytes", [.required "Bytes"], findBytes .next⟩,
    ⟨"FindFirstInstructionPattern", patternParameters, findInstructions .first⟩,
    ⟨"FindNextInstructionPattern", patternParameters, findInstructions .next⟩,
    ⟨"FindPreviousInstructionPattern", patternParameters, findInstructions .previous⟩,
    ⟨"FindValue", [.required "Value"], findValue .first⟩,
    ⟨"FindNextValue", [.required "Value"], findValue .next⟩,
    ⟨"FindPreviousValue", [.required "Value"], findValue .previous⟩,
    plain "FindNextConditionalJump" (.findConditionalJump .next),
    plain "FindPreviousConditionalJump" (.findConditionalJump .previous),
    ⟨"FindNextFunctionCall", callParameters, findCall .next⟩,
    ⟨"FindPreviousFunctionCall", callParameters, findCall .previous⟩,
    ⟨"JumpToReference", callParameters,
      fun a => a.constraints.map fun c => .jumpToReference (.ofText (a.text "Target")) c⟩,
    textual "JumpToImport" "Name" .jumpToImport,
    textual "JumpToExport" "Name" .jumpToExport,
    plain "JumpToTarget" .jumpToTarget,
    ⟨"JumpToAddress", [.required "Address"], fun a => (a.address "Address").map .jumpToAddress⟩,
    textual "JumpToLabel" "Name" .jumpToLabel,
    plain "JumpBack" .jumpBack,
    textual "CreateLabel" "Name" .createLabel,
    textual "Go" "Label" .goTo,
    textual "IfFoundGo" "Label" .goToIfFound,
    textual "IfNotFoundGo" "Label" .goToIfNotFound,
    textual "IfFoundThrowError" "Message" .failIfFound,
    textual "IfNotFoundThrowError" "Message" .failIfNotFound,
    ⟨"MakeJumpUnconditional", [.required "Mnemonic"],
      fun a => .ok (.makeUnconditional (onChars lowercase (a.text "Mnemonic")))⟩,
    ⟨"PatchCode", [.optional "CodeType" "Thumb2"],
      fun a => (a.codeType "CodeType").map fun t => .patchCode t a.body⟩,
    ⟨"PatchBytes", [.required "Bytes"], fun a => (a.bytes "Bytes").map .patchBytes⟩,
    textual "PatchAscii" "Text" .patchText,
    textual "PatchUnicode" "Text" .patchTextWide,
    plain "PatchChecksum" .patchChecksum,
    textual "Log" "Message" .report]

/-- The form of a name in any case. -/
def named? (name : String) : Option CommandForm := all.find? fun form => equalIgnoringCase form.name name

/-- All forms in the order of their names. -/
def sorted : List CommandForm := all.mergeSort fun a b => decide (a.name ≤ b.name)

end CommandForm

/-- The name at the start of a line: letters, digits and underscores of ASCII. -/
def commandName (line : List Char) : List Char :=
  (firstWord line).takeWhile fun c => c.isAlphanum || c == '_'

end BinaryPatching
