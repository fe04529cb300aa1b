import BinaryPatching.Script.Session

/-!
# `BinaryPatching.Script.Search` — searches in the open file

Bytes are looked for in the working copy, and instructions in the code of the file as it was. A search for
instructions goes through positions of the code in the order of its scope and takes the first that serves.

## Contents
- `positions`: the positions of a scope.
- `firstMapped`: the first hit of a pattern for bytes that has an address.
- `Constraints.hold`: whether the neighbourhood of an instruction serves.
- `Session.findBytes`, `Session.findInstruction`, `Session.findInstructions`, `Session.findCall`,
  `Session.jumpToReference`: the searches.
-/

namespace BinaryPatching

open Text Thumb

/-- The positions of a scope in the order in which they are searched. -/
def positions (code : CodeMap) (cursor : UInt32) : Scope → List Nat
  | .first => List.range code.size
  | .next =>
    let first := code.positionAtOrAfter (if cursor = 0xFFFFFFFF then cursor else cursor + 1)
    List.range' first (code.size - first)
  | .previous =>
    if cursor = 0 then []
    else
      match code.positionAtOrBefore (cursor - 1) with
      | some last => (List.range (last + 1)).reverse
      | none => []

/-! ## Bytes -/

/-- The address of the first hit at or after a file offset that has one, when at most `count` hits are looked at. -/
def firstMapped (image : Image) (data : Bytes) (pattern : BytePattern) : Nat → Nat → Option UInt32
  | 0, _ => none
  | count + 1, start =>
    match pattern.findFrom data start with
    | none => none
    | some hit =>
      match image.addressOf? (UInt32.ofNat hit) with
      | some place => some place
      | none => firstMapped image data pattern count (hit + 1)

/-- The file offset at which a search for bytes starts: the start of the file, or behind the cursor if it has an
    offset. -/
def OpenFile.searchStart (f : OpenFile) (cursor : UInt32) : Scope → Nat
  | .first => 0
  | .next | .previous =>
    match f.image.offsetOf cursor with
    | .ok offset => offset.toNat + 1
    | .error _ => 0

/-- The state after a search for bytes. -/
def Session.findBytes (s : Session) (f : OpenFile) (scope : Scope) (pattern : BytePattern) (what : String) :
    Session :=
  s.settle (firstMapped f.image f.data pattern (f.data.length + 1) (f.searchStart s.cursor scope)) what

/-! ## Constraints -/

/-- How far the neighbourhood of an instruction reaches. -/
def constraintWindow : Nat := 16

/-- Whether there is an instruction and it has the pattern of a constraint. -/
def RegisterConstraint.holds (c : RegisterConstraint) : Option Instruction → Bool
  | none => false
  | some i =>
    match c.pattern with
    | none => true
    | some pattern => pattern.matchesRun [i]

/-- The instruction before a position that wrote a register last. -/
def lastWriter (code : CodeMap) (position : Nat) (register : String) : Option Instruction :=
  let first := position - constraintWindow
  ((code.instructions.drop first).take (position - first)).reverse.find? fun i => i.writtenRegister == some register

/-- The instruction behind a position that reads a register first. -/
def firstReader (code : CodeMap) (position : Nat) (register : String) : Option Instruction :=
  ((code.instructions.drop (position + 1)).take constraintWindow).find? fun i => i.readsRegister register

/-- Whether the neighbourhood of a position serves. -/
def Constraints.hold (c : Constraints) (code : CodeMap) (position : Nat) : Bool :=
  (match c.writer with
    | none => true
    | some w => w.holds (lastWriter code position w.register))
  && match c.reader with
    | none => true
    | some r => r.holds (firstReader code position r.register)

/-! ## Instructions -/

/-- The address of the first position of a scope that serves. -/
def findPosition (code : CodeMap) (cursor : UInt32) (scope : Scope) (serves : Nat → Bool) : Option UInt32 :=
  (((positions code cursor scope).find? serves).bind code.at?).map (·.address)

/-- The state after a search for an instruction. -/
def Session.findInstruction (s : Session) (f : OpenFile) (scope : Scope) (what : String) (serves : Nat → Bool) :
    Session :=
  s.settle (findPosition f.code s.cursor scope serves) what

/-- Whether the instruction at a position is of a kind. -/
def CodeMap.anyAt (code : CodeMap) (position : Nat) (isWanted : Instruction → Bool) : Bool :=
  (code.at? position).any isWanted

/-- A search for instructions in a row, which puts the cursor at a distance from the first of them. -/
def Session.findInstructions (s : Session) (f : OpenFile) (scope : Scope) (pattern : InstructionPattern)
    (distance : Int) : Progress Session :=
  let what := "pattern \"" ++ pattern.source ++ "\""
  match (positions f.code s.cursor scope).find? fun p => pattern.matchesRun (f.code.instructions.drop p) with
  | none => (.ok (), s.settle none what)
  | some hit =>
    let position := (hit : Int) + distance
    match if position < 0 then none else f.code.at? position.toNat with
    | none => (.error (.indexOutOfRange distance), s)
    | some i => (.ok (), s.settle (some i.address) what)

/-! ## Calls and references -/

/-- Where a target leads: its address, and whether it is that of an import. -/
def Target.resolve? (image : Image) : Target → Option (UInt32 × Bool)
  | .address place => some (place, false)
  | .symbol name =>
    match image.exportNamed? name with
    | some s => some (s.address, false)
    | none => (image.importNamed? name).map fun s => (s.address, true)

/-- Whether an instruction calls an address. Imports are also called through a register that was loaded with
    their address. -/
def Thumb.Instruction.calls (i : Instruction) (place : UInt32) (imported : Bool) : Bool :=
  (i.isCall && i.branchTarget == some place) || (imported && i.literalValue == some place)

/-- The state after a search for a call. -/
def Session.findCall (s : Session) (f : OpenFile) (scope : Scope) (target : Target) (constraints : Constraints) :
    Session :=
  let what := "call to " ++ target.text
  match target.resolve? f.image with
  | none => s.settle none what
  | some (place, imported) =>
    s.findInstruction f scope what fun p =>
      f.code.anyAt p (fun i => i.calls place imported) && constraints.hold f.code p

/-- The state after a jump to the first instruction with a target as its literal. -/
def Session.jumpToReference (s : Session) (f : OpenFile) (target : Target) (constraints : Constraints) : Session :=
  let what := "reference to " ++ target.text
  let hit := (target.resolve? f.image).bind fun (place, _) =>
    findPosition f.code 0 .first fun p =>
      f.code.anyAt p (fun i => i.literalValue == some place) && constraints.hold f.code p
  match hit with
  | none => s.settle none what
  | some place => { s.jump place with found := true }.say ("Found " ++ what ++ " at 0x" ++ hex8 place)

end BinaryPatching
