import BinaryPatching.Code.Flow
import BinaryPatching.Config
import BinaryPatching.Image.PortableExecutable
import BinaryPatching.Patch.Store
import BinaryPatching.Script.Patching
import BinaryPatching.Script.Search

/-!
# `BinaryPatching.Script.Execution` — what commands do

A run consists of the session, the file tree and the assembler. Most commands change the session alone. Those that
open, close and file work in several steps, of which the earlier ones stay done when a later one fails.

## Contents
- `ScriptRun`: the state of a run.
- `ScriptRun.closeFile`, `ScriptRun.openImage`, `ScriptRun.openFile`, `ScriptRun.fileUnder`,
  `ScriptRun.writeDefinitions`, `ScriptRun.assemble`: the commands that reach beyond the session.
- `Session.perform`, `ScriptRun.perform`: one command.
- `ScriptRun.execute`: a script, up to a number of steps.
-/

namespace BinaryPatching

open Text Thumb

/-- The state of a run. -/
structure ScriptRun where
  /-- The session. -/
  session : Session
  /-- The file tree. -/
  files : FileTree
  /-- The assembler. -/
  assembler : Assembler

/-! ## Opening and closing -/

/-- The session with a file opened whose record, without patches yet, takes the place of an older one. -/
def Session.begin (s : Session) (d : Destination) (f : OpenFile) : Session :=
  let s := s.say ("Opened " ++ f.path ++ " (" ++ decimal f.code.size ++ " instructions, sha1 "
    ++ Bytes.hex f.unpatchedHash ++ ")")
  { s with
    store := s.store.updateVersion d.name d.version (·.replaceFile (TargetFile.new f.path f.unpatchedHash))
    file := some f
    cursor := f.image.base
    found := false
    history := [] }

/-- The name of the listing of a file. -/
def listingName (path : String) : String :=
  onChars (fun cs => cs.map fun c => if Path.isSeparator c then '_' else c) path ++ ".asm"

/-- The code of an image, from its listing or, if there is none, from the image. A listing is made for the next time
    where the settings have a place for it. -/
def loadCode (config : Config) (image : Image) (path digest : String) (files : FileTree) :
    Except ListingError (CodeMap × FileTree) :=
  match config.listingDir with
  | none => .ok (image.code, files)
  | some directory =>
    let listing := Path.join directory (listingName path)
    match Listing.load files listing digest with
    | .error e => .error e
    | .ok (some code) => .ok (code, files)
    | .ok none =>
      let code := image.code
      (Listing.save files code digest listing).map fun files => (code, files)

/-- The path of the patched copy of a file, if one is to be written. -/
def outputPath? (config : Config) (destination : Option Destination) (f : OpenFile) : Option String :=
  match destination, config.outputRoot with
  | some d, some root =>
    if d.relativeOutputPath.isEmpty then none else some (Path.resolve (Path.resolve root d.outputPath) f.name)
  | _, _ => none

namespace ScriptRun

/-- The run with one more message. -/
def say (r : ScriptRun) (message : String) : ScriptRun := { r with session := r.session.say message }

/-- What an action on the session makes of the run. -/
def update (r : ScriptRun) (p : Progress Session) : Progress ScriptRun :=
  p.within fun session => { r with session }

/-- The patched copy of a closed file written, if one is to be written. -/
def writeOutput (config : Config) (r : ScriptRun) (f : OpenFile) : Progress ScriptRun :=
  match outputPath? config r.session.destination f with
  | none => (.ok (), r)
  | some path =>
    match r.files.writeWithParents path f.data with
    | .error e => (.error (.io e), r)
    | .ok files => (.ok (), { r with files }.say ("Wrote patched file to " ++ path))

/-- The open file closed: its patches are filed, and the patched copy is written. -/
def closeFile (config : Config) (r : ScriptRun) : Progress ScriptRun :=
  match r.session.fileRecord with
  | (.error e, session) => (.error e, { r with session })
  | (.ok count, session) =>
    match session.file with
    | none => (.ok (), { r with session })
    | some f =>
      let session := { session with file := none }
      (writeOutput config { r with session } f).andThen fun r =>
        (.ok (), r.say ("Closed " ++ f.path ++ " with " ++ decimal count ++ " patches"))

/-- An image made the file under patch; the one before is closed. -/
def openImage (config : Config) (r : ScriptRun) (name : String) (image : Image) : Progress ScriptRun :=
  (r.closeFile config).andThen fun r =>
    match r.session.destination with
    | none => (.error .noDefinition, r)
    | some d =>
      let path := d.recordPath name
      match loadCode config image path (Bytes.hex (Bytes.sha1 image.data)) r.files with
      | .error e => (.error (.listing e), r)
      | .ok (code, files) =>
        (.ok (), { r with files, session := r.session.begin d (OpenFile.start name path image code) })

/-- The image of a file below the input root. -/
def readImage (config : Config) (r : ScriptRun) (d : Destination) (path : String) : Except ImageError Image :=
  match r.files.read (Path.resolve config.inputRoot (d.recordPath path)) with
  | .error e => .error (.io e)
  | .ok data => Image.parse data

/-- A file below the input root made the file under patch. -/
def openFile (config : Config) (r : ScriptRun) (path : String) : Progress ScriptRun :=
  (r.closeFile config).andThen fun r =>
    match r.session.destination with
    | none => (.error .noDefinition, r)
    | some d =>
      match readImage config r d path with
      | .error e => (.error (.image e), r)
      | .ok image => r.openImage config path image

/-! ## Filing -/

/-- A destination taken for the patches from here on; its definition and version are made if they are missing. -/
def fileUnder (config : Config) (r : ScriptRun) (d : Destination) : Progress ScriptRun :=
  (r.closeFile config).andThen fun r =>
    let session :=
      { r.session with store := r.session.store.updateVersion d.name d.version id, destination := some d }
    (.ok (), { r with session }.say ("Patch definition " ++ d.name ++ " for version " ++ d.version))

/-- The definitions, with the patches of the open file so far, written to their file. -/
def writeDefinitions (config : Config) (r : ScriptRun) : Progress ScriptRun :=
  match r.session.fileRecord with
  | (.error e, session) => (.error e, { r with session })
  | (.ok _, session) =>
    let r := { r with session }
    match config.definitionsPath with
    | none => (.error .noDefinitionsPath, r)
    | some path =>
      match session.store.save r.files path with
      | .error e => (.error (.patch e), r)
      | .ok files => (.ok (), { r with files }.say ("Definitions written to " ++ path))

/-- Code assembled and written at the cursor of the open file. -/
def assemble (r : ScriptRun) (codeType : CodeType) (body : String) : Progress ScriptRun :=
  match r.session.file with
  | none => (.error .noOpenFile, r)
  | some f =>
    let (reply, assembler) := r.assembler.ask ⟨r.session.cursor, codeType, f.labelLines ++ body⟩
    let r := { r with assembler }
    match reply with
    | .error e => (.error (.assembler e), r)
    | .ok bytes => r.update (r.session.patchCode f codeType bytes)

end ScriptRun

/-! ## Single commands -/

/-- What a command does that changes the session alone; nothing for the others. -/
def Session.perform (script : Script) (s : Session) : Command → Progress Session
  | .findBytes scope pattern what => s.withFile fun f => (.ok (), s.findBytes f scope pattern what)
  | .findInstructions scope pattern distance => s.withFile fun f => s.findInstructions f scope pattern distance
  | .findValue scope value => s.withFile fun f =>
    (.ok (), s.findInstruction f scope ("value 0x" ++ upperHex value.toNat) fun p =>
      f.code.anyAt p fun i => i.literalValue == some value)
  | .findConditionalJump scope => s.withFile fun f =>
    (.ok (), s.findInstruction f scope "conditional jump" fun p =>
      f.code.anyAt p fun i => isConditionalJump i.mnemonic)
  | .findCall scope target constraints => s.withFile fun f => (.ok (), s.findCall f scope target constraints)
  | .jumpToReference target constraints => s.withFile fun f => (.ok (), s.jumpToReference f target constraints)
  | .jumpToImport name => s.withFile fun f => (.ok (), s.jumpToSymbol (f.image.importNamed? name) ("import " ++ name))
  | .jumpToExport name => s.withFile fun f => (.ok (), s.jumpToSymbol (f.image.exportNamed? name) ("export " ++ name))
  | .jumpToTarget => s.withFile fun f =>
    match f.code.get? s.cursor with
    | none => (.error (.noInstruction s.cursor), s)
    | some i =>
      match i.literalValue with
      | none => (.error (.noTarget s.cursor), s)
      | some place => (.ok (), s.jump place)
  | .jumpToAddress place => s.withFile fun f =>
    if (f.image.sectionAt? place).isSome then (.ok (), s.jump place) else (.error (.badAddress place), s)
  | .jumpToLabel name => s.withFile fun f =>
    match f.labels.lookup name with
    | some place => (.ok (), s.jump place)
    | none => (.error (.labelNotFound name), s)
  | .jumpBack =>
    match s.history with
    | [] => (.error .emptyHistory, s)
    | place :: rest => (.ok (), { s with cursor := place, history := rest }.say ("Back to 0x" ++ hex8 place))
  | .createLabel name => s.withFile fun f =>
    if (f.labels.lookup name).isSome then (.error (.duplicateLabel name), s)
    else
      (.ok (), { s with file := some { f with labels := f.labels ++ [(name, s.cursor)] } }.say
        ("Label " ++ name ++ " = 0x" ++ hex8 s.cursor))
  | .goTo label => s.goTo script label
  | .goToIfFound label => if s.found then s.goTo script label else (.ok (), s)
  | .goToIfNotFound label => if s.found then (.ok (), s) else s.goTo script label
  | .failIfFound message => if s.found then (.error (.raised message), s) else (.ok (), s)
  | .failIfNotFound message => if s.found then (.ok (), s) else (.error (.raised message), s)
  | .makeUnconditional mnemonic => s.withFile fun f => s.makeUnconditional f mnemonic
  | .patchBytes bytes => s.withFile fun f => s.patchData f bytes "bytes"
  | .patchText text => s.withFile fun f => s.patchData f (Bytes.ofText text ++ [0]) "ASCII string"
  | .patchTextWide text => s.withFile fun f => s.patchData f (Bytes.ofTextWide text ++ [0, 0]) "Unicode string"
  | .patchChecksum => s.withFile fun f => s.patchChecksum f
  | .report message => (.ok (), s.say message)
  | _ => (.ok (), s)

namespace ScriptRun

/-- What a command makes of a run. -/
def perform (config : Config) (script : Script) (r : ScriptRun) (command : Command) : Progress ScriptRun :=
  match command with
  | .fileUnder d => r.fileUnder config d
  | .openFile path => r.openFile config path
  | .closeFile => r.closeFile config
  | .writeDefinitions => r.writeDefinitions config
  | .patchCode codeType body => r.assemble codeType body
  | other => r.update (r.session.perform script other)

/-! ## Whole scripts -/

/-- The number of commands after which a script is stopped. -/
def defaultStepLimit : Nat := 1000000

/-- What the commands of a script from the current position on make of a run, when `remaining` of `limit` steps are
    left. The first failure ends the script. -/
def executeFrom (config : Config) (script : Script) (limit : Nat) (remaining : Nat) (r : ScriptRun) :
    Except ScriptError Unit × ScriptRun :=
  match script.lines[r.session.position]? with
  | none => (.ok (), r)
  | some line =>
    let r := { r with session := { r.session with position := r.session.position + 1 } }
    match remaining with
    | 0 => (.error (.execution line.number line.text (.stepLimit limit)), r)
    | remaining + 1 =>
      match r.perform config script line.command with
      | (.error e, r) => (.error (.execution line.number line.text e), r)
      | (.ok _, r) => executeFrom config script limit remaining r

/-- What a script makes of a run from its first command on, within a number of steps. -/
def execute (config : Config) (script : Script) (limit : Nat) (r : ScriptRun) : Except ScriptError Unit × ScriptRun :=
  executeFrom config script limit limit { r with session := { r.session with position := 0 } }

end ScriptRun

end BinaryPatching
