import BinaryPatching.Image.Checksum
import BinaryPatching.Script.Session
import BinaryPatching.Thumb.Encode

/-!
# `BinaryPatching.Script.Patching` — changes of the open file

## Contents
- `Session.patchData`: bytes written at the cursor.
- `Session.makeUnconditional`: a conditional jump replaced.
- `Session.patchChecksum`: the checksum brought up to date.
- `Session.patchCode`: assembled code written at the cursor, with `OpenFile.labelLines` for its source.
-/

namespace BinaryPatching

open Text Thumb

/-- Bytes written at the cursor, which then goes behind them. -/
def Session.patchData (s : Session) (f : OpenFile) (bytes : Bytes) (what : String) : Progress Session :=
  ((f.write s.cursor bytes).within s.putFile).andThen fun t =>
    (.ok (), { t with cursor := s.cursor + UInt32.ofNat bytes.length }.say
      ("Patched " ++ decimal bytes.length ++ " " ++ what ++ " at 0x" ++ hex8 s.cursor))

/-! ## Conditional jumps -/

/-- What takes the place of a conditional jump, and how messages call it. A jump with the wanted mnemonic becomes a
    branch to the same target, any other becomes an instruction that does nothing. -/
def replacement (i : Instruction) (mnemonic : String) : Except ExecutionError (Bytes × String) :=
  if i.mnemonic = mnemonic ∨ i.baseMnemonic = withoutWide mnemonic then
    match i.branchTarget with
    | none => .error (.noTarget i.address)
    | some target =>
      match encodeBranch i.size i.address target with
      | none => .error (.branchOutOfRange i.address target i.size)
      | some bytes => .ok (bytes, "branch to 0x" ++ hex8 target)
  else
    match encodeNop i.size with
    | none => .error (.unsupportedWidth i.address i.size)
    | some bytes => .ok (bytes, "nop")

/-- The conditional jump at the cursor replaced. -/
def Session.makeUnconditional (s : Session) (f : OpenFile) (mnemonic : String) : Progress Session :=
  match f.code.get? s.cursor with
  | none => (.error (.noInstruction s.cursor), s)
  | some i =>
    if isConditionalJump i.mnemonic then
      match replacement i mnemonic with
      | .error e => (.error e, s)
      | .ok (bytes, what) =>
        ((f.write s.cursor bytes).within s.putFile).andThen fun t =>
          (.ok (), t.say ("Replaced " ++ i.text ++ " at 0x" ++ hex8 s.cursor ++ " with " ++ what))
    else (.error (.notConditionalJump s.cursor i.text), s)

/-! ## Checksum and code -/

/-- The checksum of the working copy written to its place. -/
def Session.patchChecksum (s : Session) (f : OpenFile) : Progress Session :=
  match f.image.checksumOffset with
  | none => (.error (.image .noChecksumField), s)
  | some offset =>
    let sum := checksum f.data offset
    ((f.writeOffset (UInt32.ofNat offset) (Bytes.ofWord32 sum)).within s.putFile).andThen fun t =>
      (.ok (), t.say ("Checksum set to 0x" ++ hex8 sum))

/-- The lines of assembler source that define the labels of a file. -/
def OpenFile.labelLines (f : OpenFile) : String :=
  String.join (f.labels.map fun (name, place) => name ++ " EQU 0x" ++ hex8 place ++ "\n")

/-- Assembled code written at the cursor, which then goes to the first instruction behind it. -/
def Session.patchCode (s : Session) (f : OpenFile) (codeType : CodeType) (bytes : Bytes) : Progress Session :=
  ((f.write s.cursor bytes).within s.putFile).andThen fun t =>
    let stop := s.cursor + UInt32.ofNat bytes.length
    (.ok (), { t with cursor := (f.code.nextBoundary stop).getD stop }.say
      ("Patched " ++ decimal bytes.length ++ " bytes of " ++ codeType.name ++ " code at 0x" ++ hex8 s.cursor))

end BinaryPatching
