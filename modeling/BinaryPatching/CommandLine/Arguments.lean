import BinaryPatching.CommandLine.LogLevel
import BinaryPatching.Text.Numeral
import BinaryPatching.Text.Split

/-!
# `BinaryPatching.CommandLine.Arguments` — what a command line asks for

A command line names a task, what the task is about, and options. Some options belong to every task and may stand
before or behind its name; the others stand behind it. An option has a long name after two hyphens, and some have a
letter after one; letters may be joined. Its value follows as a word of its own or is attached.

## Contents
- `CommandOption`, `commonOptions`, `TaskKind.options`: the options.
- `WordReader`: the words of a command line, read one after the other.
- `Task`, `CommandLine`: what a command line asks for.
- `CommandLine.parse`: its reading; a command line that makes no sense has none.
-/

namespace BinaryPatching

open Text

/-! ## Options -/

/-- What an option takes. -/
inductive OptionKind where
  /-- Nothing. -/
  | flag
  /-- Any text. -/
  | text
  /-- A path, which is not empty. -/
  | path
  /-- A number of 64 bits. -/
  | number
deriving Repr, DecidableEq

/-- An option. -/
structure CommandOption where
  /-- Its long name. -/
  name : String
  /-- Its letter. -/
  letter : Option Char
  /-- What it takes. -/
  kind : OptionKind
deriving Repr, DecidableEq

/-- Whether a text is a value for an option. -/
def OptionKind.accepts (kind : OptionKind) (value : String) : Bool :=
  match kind with
  | .flag => true
  | .text => true
  | .path => !value.isEmpty
  | .number => (readUnsigned 10 0x10000000000000000 value.toList).isSome

/-- The options of every task. -/
def commonOptions : List CommandOption :=
  [⟨"config", some 'c', .path⟩, ⟨"log-level", some 'l', .text⟩, ⟨"quiet", some 'q', .flag⟩,
    ⟨"no-color", none, .flag⟩]

/-- The kinds of tasks. -/
inductive TaskKind where
  /-- A script is run. -/
  | run
  /-- A definition is applied. -/
  | apply
  /-- An image is analyzed. -/
  | analyze
deriving Repr, DecidableEq

namespace TaskKind

/-- The kind of a name. -/
def ofName (name : String) : Option TaskKind :=
  if name = "run" then some run else if name = "apply" then some apply else if name = "analyze" then some analyze
  else none

/-- The options of one kind of task only. -/
def options : TaskKind → List CommandOption
  | run =>
    [⟨"input", some 'i', .path⟩, ⟨"output", some 'o', .path⟩, ⟨"definitions", some 'd', .path⟩,
      ⟨"listing-dir", none, .path⟩, ⟨"assembler", none, .path⟩, ⟨"assembler-timeout", none, .number⟩]
  | apply => [⟨"definitions", some 'd', .path⟩, ⟨"root", some 'r', .path⟩]
  | analyze => [⟨"output", some 'o', .path⟩, ⟨"print", none, .flag⟩]

/-- Whether a text can be what a task is about: a definition has any name, and files have paths. -/
def acceptsSubject (kind : TaskKind) (subject : String) : Bool :=
  match kind with
  | apply => true
  | run | analyze => !subject.isEmpty

end TaskKind

/-! ## Words -/

/-- The words of a command line as far as they have been read. -/
structure WordReader where
  /-- The kind of task, once it is named. -/
  kind : Option TaskKind
  /-- The options before the name of the task. -/
  outer : List (String × String)
  /-- The options behind the name of the task, or before it as long as there is none. -/
  options : List (String × String)
  /-- What the task is about. -/
  subject : Option String
  /-- The option whose value comes next. -/
  pending : Option CommandOption
  /-- Whether no options follow. -/
  wordsOnly : Bool
deriving Repr, DecidableEq

namespace WordReader

/-- Nothing is read yet. -/
def start : WordReader := ⟨none, [], [], none, none, false⟩

/-- The options that can stand here. -/
def known (r : WordReader) : List CommandOption :=
  commonOptions ++ (r.kind.map TaskKind.options).getD []

/-- The reader with an option given. No option is given twice in one place. -/
def give (r : WordReader) (o : CommandOption) (value : String) : Option WordReader :=
  if (r.options.lookup o.name).isSome || !o.kind.accepts value then none
  else some { r with options := r.options ++ [(o.name, value)] }

/-- The reader after a long option, without its hyphens. -/
def readLong (r : WordReader) (word : List Char) : Option WordReader :=
  let name := String.ofList (word.takeWhile (· != '='))
  let attached := (splitOnce '=' word).map fun (_, value) => String.ofList value
  match r.known.find? (·.name == name), attached with
  | none, _ => none
  | some o, some value => if o.kind = .flag then none else r.give o value
  | some o, none => if o.kind = .flag then r.give o "" else some { r with pending := some o }

/-- The reader after joined letters. What follows the letter of an option with a value is its value, with or without
    a sign of equality before it. -/
def readLetters (r : WordReader) : List Char → Option WordReader
  | [] => some r
  | c :: rest =>
    match r.known.find? (·.letter == some c) with
    | none => none
    | some o =>
      if o.kind = .flag then (r.give o "").bind fun r => readLetters r rest
      else
        match rest with
        | [] => some { r with pending := some o }
        | '=' :: value => r.give o (String.ofList value)
        | value => r.give o (String.ofList value)

/-- The reader after a word that is no option: the name of a task, or what it is about. -/
def readPlain (r : WordReader) (word : String) : Option WordReader :=
  match r.kind with
  | none => (TaskKind.ofName word).map fun kind => { r with kind := some kind, outer := r.options, options := [] }
  | some kind =>
    if r.subject.isSome || !kind.acceptsSubject word then none else some { r with subject := some word }

/-- Whether a word looks like an option. A single hyphen does not. -/
def looksLikeOption (word : List Char) : Bool := word.head? == some '-' && word != ['-']

/-- The reader after one more word. -/
def read (r : WordReader) (word : String) : Option WordReader :=
  let cs := word.toList
  match r.pending with
  | some o => if looksLikeOption cs then none else { r with pending := none }.give o word
  | none =>
    if r.wordsOnly || !looksLikeOption cs then r.readPlain word
    else
      match cs with
      | ['-', '-'] => if r.kind.isSome then some { r with wordsOnly := true } else none
      | '-' :: '-' :: long => r.readLong long
      | _ => r.readLetters (cs.drop 1)

/-- The reader after some more words. -/
def readAll (r : WordReader) : List String → Option WordReader
  | [] => some r
  | word :: rest => (r.read word).bind fun r => readAll r rest

/-- The value of an option. -/
def value? (r : WordReader) (name : String) : Option String := r.options.lookup name

/-- The value of an option of every task. What stands behind the name of the task counts before what stands in front
    of it. -/
def commonValue? (r : WordReader) (name : String) : Option String :=
  (r.options.lookup name).or (r.outer.lookup name)

end WordReader

/-! ## Command lines -/

/-- What is to be done. -/
inductive Task where
  /-- A script is run, with settings of its own. -/
  | run (script : String) (inputRoot outputRoot definitionsPath listingDir assemblerPath : Option String)
      (assemblerTimeout : Option Nat)
  /-- A definition is applied to the files below a root. -/
  | apply (name : String) (definitionsPath : Option String) (root : String)
  /-- The listing of an image is written, and shown if asked for. -/
  | analyze (binary : String) (output : Option String) (shown : Bool)
deriving Repr, DecidableEq

/-- What a command line asks for. -/
structure CommandLine where
  /-- The file of the settings. -/
  config : Option String
  /-- How much is reported. -/
  level : LogLevel
  /-- Whether nothing is reported. -/
  quiet : Bool
  /-- What is to be done. -/
  task : Task
deriving Repr, DecidableEq

namespace CommandLine

/-- The task that words ask for. -/
def taskOf (r : WordReader) (kind : TaskKind) (subject : String) : Task :=
  match kind with
  | .run =>
    .run subject (r.value? "input") (r.value? "output") (r.value? "definitions") (r.value? "listing-dir")
      (r.value? "assembler") ((r.value? "assembler-timeout").bind fun t => readUnsigned 10 0x10000000000000000 t.toList)
  | .apply => .apply subject (r.value? "definitions") ((r.value? "root").getD ".")
  | .analyze => .analyze subject (r.value? "output") (r.value? "print").isSome

/-- What some words ask for, if they make sense. -/
def parse (words : List String) : Option CommandLine :=
  match WordReader.start.readAll words with
  | none => none
  | some r =>
    match r.kind, r.subject, r.pending with
    | some kind, some subject, none =>
      some
        { config := r.commonValue? "config"
          level := .ofText ((r.commonValue? "log-level").getD "info")
          quiet := (r.commonValue? "quiet").isSome
          task := taskOf r kind subject }
    | _, _, _ => none

end CommandLine

end BinaryPatching
