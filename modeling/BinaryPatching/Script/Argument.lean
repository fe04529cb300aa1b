import BinaryPatching.Script.Command

/-!
# `BinaryPatching.Script.Argument` — the values given to a command

Every value is written as a single token and kept as its text; a command reads from the text what it needs.

## Contents
- `Parameter`: what a command can be given.
- `BindError`: why a line is no command.
- `Arguments`: the values of all parameters, read as texts, numbers, addresses, bytes and patterns.
-/

namespace BinaryPatching

open Text Thumb

/-- A parameter of a command. -/
structure Parameter where
  /-- Its name. -/
  name : String
  /-- Other names for it. -/
  aliases : List String
  /-- The value where none is given, if it can be left out. -/
  standard : Option String
deriving Repr, DecidableEq

namespace Parameter

/-- A parameter that must be given. -/
def required (name : String) : Parameter := ⟨name, [], none⟩

/-- A parameter that can be left out. -/
def optional (name standard : String) : Parameter := ⟨name, [], some standard⟩

/-- Whether a name in any case is one of the parameter's. -/
def isNamed (p : Parameter) (name : String) : Bool :=
  equalIgnoringCase p.name name || p.aliases.any fun a => equalIgnoringCase a name

end Parameter

/-! ## Errors -/

/-- Why the text of a value does not serve. -/
inductive ValueFault where
  /-- It is no number. -/
  | notNumber
  /-- It is a number that is no address. -/
  | notAddress
  /-- It does not consist of hexadecimal pairs. -/
  | notBytes
  /-- There is nothing to look for. -/
  | emptyText
  /-- It is no pattern. -/
  | notPattern (cause : PatternError)
  /-- It is no kind of code. -/
  | notCodeType (cause : AssemblerError)
deriving Repr, DecidableEq

/-- The wording of a fault. -/
def ValueFault.message : ValueFault → String
  | .notNumber => "expected a decimal or 0x number"
  | .notAddress => "out of range for a 32-bit address"
  | .notBytes => "expected hex bytes"
  | .emptyText => "empty search text"
  | .notPattern cause => cause.message
  | .notCodeType cause => cause.message

/-- Why a line is no command. -/
inductive BindError where
  /-- It has no tokens. -/
  | tokenize (cause : PatternError)
  /-- There is no command of the name. -/
  | unknownCommand (name : String)
  /-- It does not begin with a name. -/
  | missingCommand (found : String)
  /-- The command has no parameter of the name. -/
  | unknownParameter (command name : String)
  /-- There are more values than parameters. -/
  | tooManyParameters (command : String) (most : Nat)
  /-- A parameter that must be given is not. -/
  | missingParameter (command name : String)
  /-- A parameter is given twice. -/
  | duplicateParameter (command name : String)
  /-- A value without a name stands behind one with a name. -/
  | positionalAfterNamed (command : String)
  /-- A token is no value. -/
  | unexpectedToken (text : String)
  /-- A value does not serve. -/
  | invalidValue (name value : String) (fault : ValueFault)
deriving Repr, DecidableEq

/-- The wording of an error. -/
def BindError.message : BindError → String
  | .tokenize cause => cause.message
  | .unknownCommand name => "Unknown command '" ++ name ++ "'"
  | .missingCommand found => "Expected a command name, found '" ++ found ++ "'"
  | .unknownParameter command name => command ++ " has no parameter '" ++ name ++ "'"
  | .tooManyParameters command most => command ++ " takes at most " ++ decimal most ++ " parameters"
  | .missingParameter command name => command ++ " is missing parameter '" ++ name ++ "'"
  | .duplicateParameter command name => command ++ ": parameter '" ++ name ++ "' given twice"
  | .positionalAfterNamed command => command ++ ": positional parameters must precede named ones"
  | .unexpectedToken text => "Unexpected '" ++ text ++ "'"
  | .invalidValue name value fault => "Invalid value '" ++ value ++ "' for " ++ name ++ ": " ++ fault.message

/-! ## Values -/

/-- The values of all parameters of a command, by their names, and the lines of its block. -/
structure Arguments where
  /-- The values. -/
  values : List (String × String)
  /-- The lines of the block, if the command has one. -/
  body : String
deriving Repr, DecidableEq

namespace Arguments

/-- The text of a value. -/
def text (a : Arguments) (name : String) : String := (a.values.lookup name).getD ""

/-- The error for a value that does not serve. -/
def invalid (a : Arguments) (name : String) (fault : ValueFault) : BindError :=
  .invalidValue name (a.text name) fault

/-- A value that is a number. -/
def number (a : Arguments) (name : String) : Except BindError Int :=
  match parseNumber (a.text name) with
  | some v => .ok v
  | none => .error (a.invalid name .notNumber)

/-- A value that is an address. -/
def address (a : Arguments) (name : String) : Except BindError UInt32 :=
  match a.number name with
  | .error e => .error e
  | .ok v =>
    if 0 ≤ v ∧ v < 0x100000000 then .ok (lowWord v)
    else .error (.invalidValue name (signedDecimal v) .notAddress)

/-- A value that is a row of bytes, at least one, between which blanks may stand. -/
def bytes (a : Arguments) (name : String) : Except BindError Bytes :=
  match Bytes.ofHex? (onChars (fun cs => cs.filter fun c => !isBlank c) (a.text name)) with
  | some (b :: rest) => .ok (b :: rest)
  | _ => .error (a.invalid name .notBytes)

/-- A value that is a pattern for bytes. -/
def bytePattern (a : Arguments) (name : String) : Except BindError BytePattern :=
  match BytePattern.parse (a.text name) with
  | .ok p => .ok p
  | .error e => .error (a.invalid name (.notPattern e))

/-- A value that is a pattern for instructions. -/
def instructionPattern (a : Arguments) (name : String) : Except BindError InstructionPattern :=
  match InstructionPattern.parse (a.text name) with
  | .ok p => .ok p
  | .error e => .error (a.invalid name (.notPattern e))

/-- A value that is a kind of code. -/
def codeType (a : Arguments) (name : String) : Except BindError CodeType :=
  match CodeType.parse (a.text name) with
  | .ok t => .ok t
  | .error e => .error (a.invalid name (.notCodeType e))

/-- The constraint that two values make, the register and the pattern. Without a register there is none, whatever
    the pattern. -/
def constraint (a : Arguments) (register pattern : String) : Except BindError (Option RegisterConstraint) :=
  let name := lowercase (trim (a.text register).toList)
  if name.isEmpty then .ok none
  else
    let name := plainRegisterNames (String.ofList name)
    if (trim (a.text pattern).toList).isEmpty then .ok (some ⟨name, none⟩)
    else (a.instructionPattern pattern).map fun p => some ⟨name, some p⟩

/-- The constraints of a search for calls or references. -/
def constraints (a : Arguments) : Except BindError Constraints :=
  match a.constraint "PreRegister" "PrePattern" with
  | .error e => .error e
  | .ok writer => (a.constraint "PostRegister" "PostPattern").map fun reader => ⟨writer, reader⟩

end Arguments

end BinaryPatching
