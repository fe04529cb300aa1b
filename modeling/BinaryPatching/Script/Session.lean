import BinaryPatching.Bytes.Sha1
import BinaryPatching.Code.Map
import BinaryPatching.Patch.Log
import BinaryPatching.Script.Error

/-!
# `BinaryPatching.Script.Session` — the state of a run

A session has a store of definitions, a destination at which patches are filed, at most one open file, and a cursor.
All writes go to a working copy of the open file and are recorded; when the file is closed, what they come to is
filed in the store.

An action that fails has an error for its outcome and may have changed the state before, so the state afterwards
comes with the outcome in either case.

## Contents
- `Progress`: the outcome of an action, and the state afterwards.
- `OpenFile`: a file under patch, and `OpenFile.write`: bytes written to it.
- `Session`: the state.
- `Session.withFile`, `Session.putFile`: what is done to the open file.
- `Session.fileRecord`: the patches of the open file filed in the store.
-/

namespace BinaryPatching

open Text

/-! ## Actions -/

/-- What an action makes of a state: success or an error, and the state afterwards in either case. -/
abbrev Progress (σ : Type) := Except ExecutionError Unit × σ

namespace Progress

variable {σ τ : Type}

/-- A further step, taken if the ones before succeeded. -/
def andThen (p : Progress σ) (next : σ → Progress σ) : Progress σ :=
  match p with
  | (.error e, s) => (.error e, s)
  | (.ok _, s) => next s

/-- What an action on a part of a state makes of the whole. -/
def within (p : Progress σ) (put : σ → τ) : Progress τ := (p.1, put p.2)

end Progress

/-! ## Open files -/

/-- A file under patch. -/
structure OpenFile where
  /-- The path that the script gives. -/
  name : String
  /-- The path under which it is recorded. -/
  path : String
  /-- The file as it was. -/
  image : Image
  /-- The working copy. -/
  data : Bytes
  /-- The code of the file as it was. -/
  code : CodeMap
  /-- The writes to the working copy. -/
  log : PatchLog
  /-- The digest of the file as it was. -/
  unpatchedHash : Bytes
  /-- The labelled addresses, in the order of their labelling. -/
  labels : List (String × UInt32)

namespace OpenFile

/-- A file that has just been opened. -/
def start (name path : String) (image : Image) (code : CodeMap) : OpenFile :=
  ⟨name, path, image, image.data, code, .empty, Bytes.sha1 image.data, []⟩

/-- The record of the file, filled in with its digests and its patches. -/
def fill (f : OpenFile) (record : TargetFile) : TargetFile :=
  { record with
    unpatchedHash := f.unpatchedHash
    patchedHash := Bytes.sha1 f.data
    patches := f.log.materialize }

/-- A version with the record of the file filled in. One that is missing is made. -/
def fileIn (f : OpenFile) (version : TargetVersion) : TargetVersion :=
  let version :=
    if (version.file? f.path).isSome then version else version.replaceFile (TargetFile.new f.path f.unpatchedHash)
  version.changeFile f.path f.fill

/-- Bytes written at a file offset. -/
def writeOffset (f : OpenFile) (offset : UInt32) (bytes : Bytes) : Progress OpenFile :=
  let (outcome, log, data) := f.log.write f.data offset bytes
  (outcome.mapError .patch, { f with log, data })

/-- Bytes written at an address. -/
def write (f : OpenFile) (place : UInt32) (bytes : Bytes) : Progress OpenFile :=
  match f.image.offsetOf place with
  | .error e => (.error (.image e), f)
  | .ok offset => f.writeOffset offset bytes

/-- **A write either goes into the log and into the working copy**, and leaves all else as it is, or it fails, and then
    the file is what it was. -/
theorem writeOffset_cases (f : OpenFile) (offset : UInt32) (bytes : Bytes) :
    (∃ replaced, Bytes.slice? f.data offset.toNat bytes.length = some replaced ∧
      f.writeOffset offset bytes = (.ok (), { f with
        log := ⟨f.log.writes ++ [⟨offset, replaced, bytes⟩]⟩
        data := Bytes.overwrite f.data offset.toNat bytes })) ∨
    Bytes.slice? f.data offset.toNat bytes.length = none ∧
      f.writeOffset offset bytes = (.error (.patch (.outOfBounds offset bytes.length)), f) := by
  unfold writeOffset
  rcases f.log.write_cases f.data offset bytes with ⟨replaced, hslice, hwrite⟩ | ⟨hslice, hwrite⟩
  · rw [hwrite]
    exact .inl ⟨replaced, hslice, rfl⟩
  · rw [hwrite]
    exact .inr ⟨hslice, rfl⟩

end OpenFile

/-! ## Sessions -/

/-- The state of a run. -/
structure Session where
  /-- The definitions. -/
  store : PatchStore
  /-- Where patches are filed. -/
  destination : Option Destination
  /-- The open file. -/
  file : Option OpenFile
  /-- The address that commands work on. -/
  cursor : UInt32
  /-- Whether the last search had a hit. -/
  found : Bool
  /-- Where the cursor was before each jump, the last jump first. -/
  history : List UInt32
  /-- The position of the command that comes next. -/
  position : Nat
  /-- The messages so far, the last one first. -/
  messages : List String

namespace Session

/-- The state at the start of a run. -/
def start (store : PatchStore) : Session := ⟨store, none, none, 0, false, [], 0, []⟩

/-- The messages so far, in order. -/
def log (s : Session) : List String := s.messages.reverse

/-- The state with one more message. -/
def say (s : Session) (message : String) : Session := { s with messages := message :: s.messages }

/-- What a command does that needs an open file. -/
def withFile (s : Session) (act : OpenFile → Progress Session) : Progress Session :=
  match s.file with
  | none => (.error .noOpenFile, s)
  | some f => act f

/-- The state with another open file. -/
def putFile (s : Session) (f : OpenFile) : Session := { s with file := some f }

/-- The patches of the open file filed in the store: their number or an error, and the state afterwards in either
    case. -/
def fileRecord (s : Session) : Except ExecutionError Nat × Session :=
  match s.file with
  | none => (.ok 0, s)
  | some f =>
    match s.destination with
    | none => (.error .noDefinition, s)
    | some d =>
      (.ok f.log.materialize.length, { s with store := s.store.updateVersion d.name d.version f.fileIn })

/-- The state after a jump to an address. -/
def jump (s : Session) (place : UInt32) : Session :=
  { s with cursor := place, history := s.cursor :: s.history }.say ("Jumped to 0x" ++ hex8 place)

/-- The state after a search, with the cursor at a hit. -/
def settle (s : Session) (hit : Option UInt32) (what : String) : Session :=
  match hit with
  | some place => { s with cursor := place, found := true }.say ("Found " ++ what ++ " at 0x" ++ hex8 place)
  | none => { s with found := false }.say ("Not found: " ++ what)

/-- The state after a jump to a symbol that may not be there. -/
def jumpToSymbol (s : Session) (symbol : Option Symbol) (what : String) : Session :=
  match symbol with
  | some symbol => { s.jump symbol.address with found := true }
  | none => { s with found := false }.say ("Not found: " ++ what)

/-- The script sent to a label. -/
def goTo (s : Session) (script : Script) (label : String) : Progress Session :=
  match script.labelPosition? label with
  | some position => (.ok (), { s with position })
  | none => (.error (.labelNotFound label), s)

/-- Filing leaves the open file as it is. -/
theorem file_fileRecord (s : Session) : s.fileRecord.2.file = s.file := by
  unfold fileRecord
  split
  · rfl
  · split <;> rfl

end Session

end BinaryPatching
