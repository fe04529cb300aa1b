import BinaryPatching.Script.Execution
import BinaryPatching.Text.Duration

/-!
# `BinaryPatching.Script.Report` — scripts from beginning to end

A script starts with the definitions of their file, if the settings name one, and no open file. When it has come to
its end, the open file is closed and the definitions are written back. When it fails, they are not.

## Contents
- `ScriptRun.finish`: the end of a script.
- `ScriptRun.runText`: a script from its text.
- `ScriptReport`: what a run came to.
- `runSource`, `runFile`: a run of a script given by its text or by its file.
-/

namespace BinaryPatching

open Text

namespace ScriptRun

/-- How messages call the command that closes the open file at the end of a script. -/
def endMark : String := "<end of script>"

/-- The number of the last line with a command. -/
def lastLine (script : Script) : Nat := ((script.lines.getLast?).map (·.number)).getD 0

/-- The definitions written to their file, if the settings name one. -/
def saveStore (config : Config) (r : ScriptRun) : Except ScriptError Unit × ScriptRun :=
  match config.definitionsPath with
  | none => (.ok (), r)
  | some path =>
    match r.session.store.save r.files path with
    | .error e => (.error (.patch e), r)
    | .ok files => (.ok (), { r with files })

/-- The end of a script: the open file is closed, and the definitions are written. -/
def finish (config : Config) (script : Script) (r : ScriptRun) : Except ScriptError Unit × ScriptRun :=
  match r.closeFile config with
  | (.error e, r) => (.error (.execution (lastLine script) endMark e), r)
  | (.ok _, r) => saveStore config r

/-- A script from its text to its end. -/
def runText (config : Config) (source : String) (r : ScriptRun) : Except ScriptError Unit × ScriptRun :=
  match Script.parse source with
  | .error e => (.error (.parse e), r)
  | .ok script =>
    match r.execute config script defaultStepLimit with
    | (.error e, r) => (.error e, r)
    | (.ok _, r) => finish config script r

end ScriptRun

/-! ## Reports -/

/-- What a run of a script came to. -/
structure ScriptReport where
  /-- Success, or why it failed. -/
  outcome : Except ScriptError Unit
  /-- The messages. -/
  messages : List String
  /-- The definitions. -/
  store : PatchStore
  /-- The file tree afterwards. -/
  files : FileTree
  /-- The assembler afterwards. -/
  assembler : Assembler

namespace ScriptReport

/-- Whether the script came to its end. -/
def isSuccess (report : ScriptReport) : Bool :=
  match report.outcome with
  | .ok _ => true
  | .error _ => false

/-- The report of a script that was never begun. -/
def failed (e : ScriptError) (files : FileTree) (assembler : Assembler) : ScriptReport :=
  ⟨.error e, [], .empty, files, assembler⟩

/-- The messages, and at the end of a successful run of some milliseconds how long it took. -/
def log (report : ScriptReport) (elapsed : Nat) : List String :=
  report.messages ++ if report.isSuccess then ["Script completed in " ++ duration elapsed] else []

end ScriptReport

/-- The definitions with which a script starts. -/
def loadStore (config : Config) (files : FileTree) : Except PatchError PatchStore :=
  match config.definitionsPath with
  | none => .ok .empty
  | some path => PatchStore.load files path

/-- A run of the script of a text. -/
def runSource (config : Config) (files : FileTree) (assembler : Assembler) (source : String) : ScriptReport :=
  match loadStore config files with
  | .error e => .failed (.patch e) files assembler
  | .ok store =>
    let (outcome, r) := ScriptRun.runText config source ⟨.start store, files, assembler⟩
    ⟨outcome, r.session.log, r.session.store, r.files, r.assembler⟩

/-- A run of the script in a file. -/
def runFile (config : Config) (files : FileTree) (assembler : Assembler) (path : String) : ScriptReport :=
  match files.readText path with
  | .error e => .failed (.io e) files assembler
  | .ok source => runSource config files assembler source

end BinaryPatching
