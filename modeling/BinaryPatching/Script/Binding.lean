import BinaryPatching.Script.Vocabulary

/-!
# `BinaryPatching.Script.Binding` — from a line to a command

Behind the name of a command come its values, one token each, first those that are told by their place and then
those that are told by the name of their parameter. Commas may stand anywhere between them.

## Contents
- `Argument`, `Argument.read`: the values in the order of the line.
- `Filling`: the parameters as far as they are given.
- `bind`: the command of a line.
-/

namespace BinaryPatching

open Text

/-! ## Values in order -/

/-- One value of a line. -/
inductive Argument where
  /-- A value told by its place. -/
  | positional (value : String)
  /-- A value told by the name of its parameter. -/
  | named (name value : String)
  /-- Something else, where the values end. -/
  | unexpected (text : String)
deriving Repr, DecidableEq

/-- Whether a token is a value. -/
def Token.isValue (t : Token) : Bool := t.kind == .text || t.kind == .number

/-- The values of the tokens behind the name of a command. -/
def Argument.read : List Token → List Argument
  | [] => []
  | .separator :: rest => read rest
  | .name n :: .operator '=' :: value :: rest =>
    if value.isValue then .named n value.text :: read rest else [.unexpected (n ++ "=")]
  | [.name n, .operator '='] => [.unexpected (n ++ "=")]
  | t :: rest => if t.isValue then .positional t.text :: read rest else [.unexpected t.written]

/-! ## Parameters filled -/

/-- The parameters of a command as far as they are given. -/
structure Filling where
  /-- The values, by the names of their parameters. -/
  given : List (String × String)
  /-- The number of values told by their place. -/
  places : Nat
  /-- Whether a value has been told by its name. -/
  anyNamed : Bool
deriving Repr, DecidableEq

namespace Filling

/-- Nothing is given. -/
def start : Filling := ⟨[], 0, false⟩

/-- The parameters with one more value. -/
def add (form : CommandForm) (f : Filling) : Argument → Except BindError Filling
  | .unexpected text => .error (.unexpectedToken text)
  | .positional value =>
    if f.anyNamed then .error (.positionalAfterNamed form.name)
    else
      match form.parameters[f.places]? with
      | none => .error (.tooManyParameters form.name form.parameters.length)
      | some p => .ok { f with given := f.given ++ [(p.name, value)], places := f.places + 1 }
  | .named name value =>
    match form.parameters.find? (·.isNamed name) with
    | none => .error (.unknownParameter form.name name)
    | some p =>
      if (f.given.lookup p.name).isSome then .error (.duplicateParameter form.name p.name)
      else .ok { f with given := f.given ++ [(p.name, value)], anyNamed := true }

/-- The parameters with some more values, in order. -/
def addAll (form : CommandForm) (f : Filling) : List Argument → Except BindError Filling
  | [] => .ok f
  | a :: rest =>
    match f.add form a with
    | .error e => .error e
    | .ok f => addAll form f rest

/-- The values of some parameters of a command; those that are not given have their standard values. -/
def complete (command : String) (f : Filling) : List Parameter → Except BindError (List (String × String))
  | [] => .ok []
  | p :: rest =>
    match (f.given.lookup p.name).or p.standard with
    | none => .error (.missingParameter command p.name)
    | some value => (complete command f rest).map ((p.name, value) :: ·)

end Filling

/-! ## Commands -/

/-- The command of a form with the values of some tokens. -/
def CommandForm.bind (form : CommandForm) (tokens : List Token) (body : String) : Except BindError Command :=
  match Filling.start.addAll form (Argument.read tokens) with
  | .error e => .error e
  | .ok f =>
    match f.complete form.name form.parameters with
    | .error e => .error e
    | .ok values => form.build ⟨values, body⟩

/-- The command of a line, with the lines of its block. -/
def bind (line body : String) : Except BindError Command :=
  match tokenize line with
  | .error e => .error (.tokenize e)
  | .ok [] => .error (.missingCommand "")
  | .ok (.name name :: rest) =>
    match CommandForm.named? name with
    | none => .error (.unknownCommand name)
    | some form => form.bind rest body
  | .ok (t :: _) => .error (.missingCommand t.written)

end BinaryPatching
