import BinaryPatching.Script.Binding

/-!
# `BinaryPatching.Script.Basic` — scripts

A script is a text with one command on a line. Two slashes begin a comment, a name before a colon on a line of its
own labels the command that follows, and the lines behind a command for code belong to it, up to a line that ends
the block.

## Contents
- `ScriptLine`, `Script`: commands, and where labels stand.
- `withoutComment`: a line without its comment.
- `Script.block?`: the lines of a block.
- `Script.parse`: the script of a text, or a `ParseError`.
-/

namespace BinaryPatching

open Text

/-- One command of a script. -/
structure ScriptLine where
  /-- The number of its line, counted from one. -/
  number : Nat
  /-- Its label. -/
  label : Option String
  /-- Its text. -/
  text : String
  /-- The command. -/
  command : Command
deriving Repr, DecidableEq

/-- The commands of a script in order, and the positions that labels stand for. -/
structure Script where
  /-- The commands. -/
  lines : List ScriptLine
  /-- The labels. -/
  labels : List (String × Nat)
deriving Repr, DecidableEq

/-- Why a text is no script. -/
inductive ParseError where
  /-- A line is no command. -/
  | command (line : Nat) (cause : BindError)
  /-- A label is defined already. -/
  | duplicateLabel (line : Nat) (label : String)
  /-- A label is empty or has a blank in it. -/
  | invalidLabel (line : Nat) (label : String)
  /-- A label stands where another one has been given already. -/
  | labelAlreadyAssigned (line : Nat) (label : String)
  /-- A block has no end. -/
  | unterminatedCode (line : Nat)
  /-- The end of a block stands outside all blocks. -/
  | unexpectedEndCode (line : Nat)
deriving Repr, DecidableEq

/-- The wording of what is wrong with a line. -/
def ParseError.message : ParseError → String
  | .command line cause => "Line " ++ decimal line ++ ": " ++ cause.message
  | .duplicateLabel line label => "Line " ++ decimal line ++ ": label '" ++ label ++ "' is already defined"
  | .invalidLabel line label => "Line " ++ decimal line ++ ": invalid label '" ++ label ++ "'"
  | .labelAlreadyAssigned line label =>
    "Line " ++ decimal line ++ ": label '" ++ label ++ "' follows another label for the same line"
  | .unterminatedCode line => "Line " ++ decimal line ++ ": PatchCode block is not terminated"
  | .unexpectedEndCode line => "Line " ++ decimal line ++ ": EndCode without PatchCode"

/-! ## Comments -/

/-- The part of a line before its comment, when the text before lies inside a string or not, and ends in an odd
    number of backslashes there or not. -/
def beforeComment (quoted escaped : Bool) : List Char → List Char
  | [] => []
  | c :: rest =>
    if c = '\\' ∧ quoted then c :: beforeComment quoted (!escaped) rest
    else if c = '"' ∧ !escaped then c :: beforeComment (!quoted) false rest
    else if c = '/' ∧ !quoted ∧ rest.head? = some '/' then []
    else c :: beforeComment quoted false rest

/-- A line without its comment. Two slashes inside a string begin none. -/
def withoutComment (line : List Char) : List Char := beforeComment false false line

namespace Script

/-! ## Blocks -/

/-- Whether a text ends a block. -/
def isBlockEnd (text : List Char) : Bool :=
  equalIgnoringCase (String.ofList text) "EndCode" || equalIgnoringCase (String.ofList text) "EndPatch"

/-- The lines of a block up to its end, and the lines behind it. Nothing but the blanks at the ends of a line is
    taken from it to see whether it ends the block. -/
def block? : List (List Char) → Option (List (List Char) × List (List Char))
  | [] => none
  | line :: rest =>
    if isBlockEnd (trim line) then some ([], rest)
    else (block? rest).map fun (body, behind) => (line :: body, behind)

/-- The lines of a block, the line that ends it and those behind it are all lines. -/
theorem length_block? {lines body behind : List (List Char)} (h : block? lines = some (body, behind)) :
    lines.length = body.length + 1 + behind.length := by
  induction lines generalizing body with
  | nil => simp [block?] at h
  | cons line rest ih =>
    unfold block? at h
    split at h
    · cases h; simp; omega
    · obtain ⟨⟨b, r⟩, hb, he⟩ := Option.map_eq_some_iff.1 h
      cases he
      have := ih hb
      simp only [List.length_cons]; omega

/-- Whether a command is followed by a block. -/
def hasBlock (name : List Char) : Bool := equalIgnoringCase (String.ofList name) "PatchCode"

/-- The lines of the block of a command, and those behind the command. -/
def bodyOf (name : List Char) (lines : List (List Char)) : Option (List (List Char) × List (List Char)) :=
  if hasBlock name then block? lines else some ([], lines)

theorem length_bodyOf_le {name : List Char} {lines body behind : List (List Char)}
    (h : bodyOf name lines = some (body, behind)) : behind.length ≤ lines.length := by
  unfold bodyOf at h
  split at h
  · have := length_block? h; omega
  · simp at h; simp [h.2]

/-! ## Scripts -/

/-- A script as far as it has been read, with a label that waits for its command. -/
structure Draft where
  /-- The commands. -/
  lines : List ScriptLine
  /-- The labels of those commands. -/
  labels : List (String × Nat)
  /-- The label that waits. -/
  pending : Option String

/-- A draft with a label that waits. -/
def Draft.addLabel (d : Draft) (number : Nat) (label : List Char) : Except ParseError Draft :=
  let name := String.ofList label
  if label.isEmpty || label.any isBlank then .error (.invalidLabel number name)
  else if d.pending.isSome then .error (.labelAlreadyAssigned number name)
  else if (d.labels.lookup name).isSome then .error (.duplicateLabel number name)
  else .ok { d with pending := some name }

/-- The labels of a draft when the one that waits stands for the position behind all commands. -/
def Draft.settledLabels (d : Draft) : List (String × Nat) :=
  match d.pending with
  | some label => d.labels ++ [(label, d.lines.length)]
  | none => d.labels

/-- A draft with one more command, which gets the label that waits. -/
def Draft.addCommand (d : Draft) (number : Nat) (text : List Char) (command : Command) : Draft :=
  { lines := d.lines ++ [⟨number, d.pending, String.ofList text, command⟩]
    labels := d.settledLabels
    pending := none }

/-- The draft after the command of a line, with the lines behind it and its block. -/
def readCommand (number : Nat) (d : Draft) (text : List Char) (rest : List (List Char)) :
    Except ParseError (Draft × List (List Char)) :=
  let name := commandName text
  if isBlockEnd name then .error (.unexpectedEndCode number)
  else
    match bodyOf name rest with
    | none => .error (.unterminatedCode number)
    | some (body, behind) =>
      match bind (String.ofList text) ("\n".intercalate (body.map String.ofList)) with
      | .error e => .error (.command number e)
      | .ok command => .ok (d.addCommand number text command, behind)

theorem length_readCommand_le {number : Nat} {d e : Draft} {text : List Char} {rest behind : List (List Char)}
    (h : readCommand number d text rest = .ok (e, behind)) : behind.length ≤ rest.length := by
  unfold readCommand at h
  simp only at h
  split at h
  · simp at h
  · split at h
    · simp at h
    · rename_i hb
      split at h
      · simp at h
      · cases h
        exact length_bodyOf_le hb

/-- The draft after a line of text and, if it is a command, its block; with the lines behind. -/
def readLine (number : Nat) (d : Draft) (text : List Char) (rest : List (List Char)) :
    Except ParseError (Draft × List (List Char)) :=
  if text.isEmpty then .ok (d, rest)
  else if text.getLast? = some ':' then (d.addLabel number (trim text.dropLast)).map fun d => (d, rest)
  else readCommand number d text rest

theorem length_readLine_le {number : Nat} {d e : Draft} {text : List Char} {rest behind : List (List Char)}
    (h : readLine number d text rest = .ok (e, behind)) : behind.length ≤ rest.length := by
  unfold readLine at h
  split at h
  · cases h; exact Nat.le_refl _
  · split at h
    · cases hl : d.addLabel number (trim text.dropLast) with
      | error e => simp [hl, Except.map] at h
      | ok d => simp [hl, Except.map] at h; simp [h.2]
    · exact length_readCommand_le h

/-- The draft of the lines from a number on. -/
def readLines (number : Nat) (d : Draft) : List (List Char) → Except ParseError Draft
  | [] => .ok d
  | line :: rest =>
    match _h : readLine number d (trim (withoutComment line)) rest with
    | .error e => .error e
    | .ok (d, behind) => readLines (number + 1 + (rest.length - behind.length)) d behind
termination_by lines => lines.length
decreasing_by
  have := length_readLine_le _h
  simp only [List.length_cons]; omega

/-- The script of a text. A label at its end stands for the position behind all commands. -/
def parse (source : String) : Except ParseError Script :=
  (readLines 1 ⟨[], [], none⟩ (Text.lines source.toList)).map fun d => ⟨d.lines, d.settledLabels⟩

/-- The script without commands. -/
def empty : Script := ⟨[], []⟩

/-- The number of commands. -/
def size (script : Script) : Nat := script.lines.length

/-- The position that a label stands for. -/
def labelPosition? (script : Script) (label : String) : Option Nat := script.labels.lookup label

end Script

end BinaryPatching
