import BinaryPatching.Script.Basic

/-!
# `BinaryPatching.Proofs.Script.Layout` — how the lines of a script are read

Every line of a script is blank, a label, a command or part of a block, and which of these it is depends on the lines
before it only by whether a block is open. Reading a script that is accepted goes through its lines in order; a command
for code takes the lines of its block with it, so that what stands behind the block is read like all else.

## Contents
- `Script.endsBlock`: the lines that end a block.
- `Script.LineKind`, `Script.kinds`: what each line of a text is.
- `Script.Reads`: how a draft grows line by line, and block by block.
- `Script.reads_of_parse`: every script that is accepted is read that way.
-/

namespace BinaryPatching

open Text

namespace Script

/-! ## Blocks -/

/-- Whether a line ends a block that is open before it. -/
def endsBlock (line : List Char) : Bool := isBlockEnd (trim line)

/-- The code that the lines of a block are. -/
def codeOf (body : List (List Char)) : String := "\n".intercalate (body.map String.ofList)

/-- A block goes up to the first line that ends it. -/
theorem block?_eq_some {lines body behind : List (List Char)} (h : block? lines = some (body, behind)) :
    ∃ last, lines = body ++ last :: behind ∧ endsBlock last = true ∧ ∀ line ∈ body, endsBlock line = false := by
  induction lines generalizing body with
  | nil => cases h
  | cons line rest ih =>
    unfold block? at h
    split at h
    · rename_i hend
      cases h
      exact ⟨line, rfl, hend, fun _ hl => absurd hl List.not_mem_nil⟩
    · rename_i hopen
      obtain ⟨⟨tail, _⟩, htail, heq⟩ := Option.map_eq_some_iff.1 h
      cases heq
      obtain ⟨last, rfl, hlast, hbody⟩ := ih htail
      refine ⟨last, rfl, hlast, fun l hl => ?_⟩
      rcases List.mem_cons.1 hl with rfl | hl
      · exact Bool.eq_false_iff.2 hopen
      · exact hbody l hl

/-! ## The kinds of lines -/

/-- What a line of a script is. -/
inductive LineKind where
  /-- Nothing, or only a comment. -/
  | blank
  /-- A label. -/
  | label (name : String)
  /-- A command. -/
  | command (text : String)
  /-- A line of a block. -/
  | code
  /-- The line that ends a block. -/
  | codeEnd
deriving Repr, DecidableEq

namespace LineKind

/-- What a line outside of blocks is, by its text without comment and blanks. -/
def ofText (text : List Char) : LineKind :=
  if text.isEmpty then .blank
  else if text.getLast? = some ':' then .label (String.ofList (trim text.dropLast))
  else .command (String.ofList text)

/-- Whether a block begins behind the line. -/
def opensBlock : LineKind → Bool
  | command text => hasBlock (commandName text.toList)
  | _ => false

/-- Whether the line is a command. -/
def isCommand : LineKind → Bool
  | command _ => true
  | _ => false

/-- The text of a command. -/
def command? : LineKind → Option String
  | command text => some text
  | _ => none

end LineKind

/-- What lines are, when a block is open before them or not. -/
def kindsFrom (open? : Bool) : List (List Char) → List LineKind
  | [] => []
  | line :: rest =>
    if open? then
      if endsBlock line then .codeEnd :: kindsFrom false rest else .code :: kindsFrom true rest
    else
      let kind := LineKind.ofText (trim (withoutComment line))
      kind :: kindsFrom kind.opensBlock rest

/-- **What the lines of a text are.** -/
def kinds (source : String) : List LineKind := kindsFrom false (Text.lines source.toList)

/-- A line outside of blocks. -/
theorem kindsFrom_cons {line : List Char} {kind : LineKind} (h : LineKind.ofText (trim (withoutComment line)) = kind)
    (rest : List (List Char)) :
    kindsFrom false (line :: rest) = kind :: kindsFrom kind.opensBlock rest := by
  subst h
  rfl

/-- The lines of a block, and those behind it. -/
theorem kindsFrom_block {body : List (List Char)} (hbody : ∀ line ∈ body, endsBlock line = false) {last : List Char}
    (hlast : endsBlock last = true) (behind : List (List Char)) :
    kindsFrom true (body ++ last :: behind)
      = List.replicate body.length .code ++ .codeEnd :: kindsFrom false behind := by
  induction body with
  | nil =>
    show kindsFrom true (last :: behind) = .codeEnd :: kindsFrom false behind
    rw [kindsFrom, if_pos rfl, if_pos hlast]
  | cons line body ih =>
    have hopen : ¬endsBlock line = true := Bool.eq_false_iff.1 (hbody line List.mem_cons_self)
    rw [List.cons_append, kindsFrom, if_pos rfl, if_neg hopen, ih fun l hl => hbody l (List.mem_cons_of_mem _ hl)]
    rfl

/-! ## Reading -/

/-- **How a draft grows** while the lines from a number on are read. -/
inductive Reads : Nat → Draft → List (List Char) → Draft → Prop where
  /-- No lines are left. -/
  | done {number : Nat} {d : Draft} : Reads number d [] d
  /-- A blank line is passed over. -/
  | blank {number : Nat} {d e : Draft} {line : List Char} {rest : List (List Char)}
    (hkind : LineKind.ofText (trim (withoutComment line)) = .blank) (hrest : Reads (number + 1) d rest e) :
    Reads number d (line :: rest) e
  /-- A label waits for its command. No label waits already, and none of the same name has been given to a command. -/
  | label {number : Nat} {d e : Draft} {line : List Char} {rest : List (List Char)} {name : String}
    (hkind : LineKind.ofText (trim (withoutComment line)) = .label name) (hpending : d.pending = none)
    (hfresh : d.labels.lookup name = none) (hrest : Reads (number + 1) { d with pending := some name } rest e) :
    Reads number d (line :: rest) e
  /-- A command takes no other line. -/
  | command {number : Nat} {d e : Draft} {line text : List Char} {rest : List (List Char)} {command : Command}
    (hkind : LineKind.ofText (trim (withoutComment line)) = .command (String.ofList text))
    (hblock : hasBlock (commandName text) = false) (hbind : bind (String.ofList text) "" = .ok command)
    (hrest : Reads (number + 1) (d.addCommand number text command) rest e) : Reads number d (line :: rest) e
  /-- A command for code takes its block. -/
  | block {number : Nat} {d e : Draft} {line text last : List Char} {body behind : List (List Char)}
    {command : Command} (hkind : LineKind.ofText (trim (withoutComment line)) = .command (String.ofList text))
    (hblock : hasBlock (commandName text) = true) (hbody : ∀ l ∈ body, endsBlock l = false)
    (hlast : endsBlock last = true) (hbind : bind (String.ofList text) (codeOf body) = .ok command)
    (hrest : Reads (number + body.length + 2) (d.addCommand number text command) behind e) :
    Reads number d (line :: (body ++ last :: behind)) e

/-- What a label must be like that is taken. -/
theorem addLabel_eq_ok {number : Nat} {d e : Draft} {label : List Char} (h : d.addLabel number label = .ok e) :
    d.pending = none ∧ d.labels.lookup (String.ofList label) = none ∧
      e = { d with pending := some (String.ofList label) } := by
  unfold Draft.addLabel at h
  dsimp only at h
  split at h
  · cases h
  · split at h
    · cases h
    · rename_i hpending
      split at h
      · cases h
      · rename_i hfresh
        cases h
        exact ⟨Option.not_isSome_iff_eq_none.1 hpending, Option.not_isSome_iff_eq_none.1 hfresh, rfl⟩

/-- What a command takes from the lines behind it. -/
theorem readCommand_eq_ok {number : Nat} {d e : Draft} {text : List Char} {rest behind : List (List Char)}
    (h : readCommand number d text rest = .ok (e, behind)) :
    ∃ body command, bodyOf (commandName text) rest = some (body, behind) ∧
      bind (String.ofList text) (codeOf body) = .ok command ∧ e = d.addCommand number text command := by
  unfold readCommand at h
  dsimp only at h
  split at h
  · cases h
  · split at h
    · cases h
    · rename_i body behind' hbody
      split at h
      · cases h
      · rename_i command hbind
        cases h
        exact ⟨body, command, hbody, hbind, rfl⟩

/-- **A draft that is read** grows line by line. -/
theorem reads_of_readLines {number : Nat} {d e : Draft} {lines : List (List Char)}
    (h : readLines number d lines = .ok e) : Reads number d lines e := by
  fun_induction readLines number d lines with
  | case1 =>
    cases h
    exact .done
  | case2 => cases h
  | case3 number d line rest d' behind hline ih =>
    have hrest := ih h
    unfold readLine at hline
    split at hline
    · rename_i hempty
      cases hline
      rw [Nat.sub_self, Nat.add_zero] at hrest
      exact .blank (if_pos hempty) hrest
    · rename_i hempty
      split at hline
      · rename_i hcolon
        obtain ⟨d'', hadd, heq⟩ : ∃ d'', d.addLabel number (trim (trim (withoutComment line)).dropLast) = .ok d'' ∧
            (d'', rest) = (d', behind) := by
          cases hadd : d.addLabel number (trim (trim (withoutComment line)).dropLast) with
          | error e => rw [hadd] at hline; cases hline
          | ok d'' => rw [hadd] at hline; exact ⟨d'', rfl, Except.ok.inj hline⟩
        cases heq
        obtain ⟨hpending, hfresh, rfl⟩ := addLabel_eq_ok hadd
        rw [Nat.sub_self, Nat.add_zero] at hrest
        exact .label ((if_neg hempty).trans (if_pos hcolon)) hpending hfresh hrest
      · rename_i hcolon
        have hkind : LineKind.ofText (trim (withoutComment line))
            = .command (String.ofList (trim (withoutComment line))) := (if_neg hempty).trans (if_neg hcolon)
        obtain ⟨body, command, hbody, hbind, rfl⟩ := readCommand_eq_ok hline
        cases hblock : hasBlock (commandName (trim (withoutComment line))) with
        | false =>
          rw [bodyOf, hblock] at hbody
          cases hbody
          rw [Nat.sub_self, Nat.add_zero] at hrest
          exact .command hkind hblock hbind hrest
        | true =>
          rw [bodyOf, hblock] at hbody
          obtain ⟨last, rfl, hlast, hopen⟩ := block?_eq_some hbody
          have hnumber : number + 1 + ((body ++ last :: behind).length - behind.length) = number + body.length + 2 := by
            rw [List.length_append, List.length_cons]
            omega
          rw [hnumber] at hrest
          exact .block hkind hblock hopen hlast hbind hrest

/-- The script of a fixed text can be computed. -/
theorem parse_eq_ok {source : String} {script : Script} (h : (parse source).toOption = some script) :
    parse source = .ok script := by
  cases hparse : parse source with
  | error e =>
    rw [hparse] at h
    cases h
  | ok other =>
    rw [hparse] at h
    cases h
    rfl

/-- **A script that is accepted** is read from its first line on, and a label that waits at the end is its last. -/
theorem reads_of_parse {source : String} {script : Script} (h : parse source = .ok script) :
    ∃ d, Reads 1 ⟨[], [], none⟩ (Text.lines source.toList) d ∧ script.lines = d.lines ∧
      script.labels = d.settledLabels := by
  unfold parse at h
  cases hread : readLines 1 ⟨[], [], none⟩ (Text.lines source.toList) with
  | error e =>
    rw [hread] at h
    cases h
  | ok d =>
    rw [hread] at h
    cases h
    exact ⟨d, reads_of_readLines hread, rfl, rfl⟩

end Script

end BinaryPatching
