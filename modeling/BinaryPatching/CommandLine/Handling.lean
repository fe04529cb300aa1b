import BinaryPatching.CommandLine.Arguments
import BinaryPatching.Patch.Apply
import BinaryPatching.Script.Report
import BinaryPatching.Text.Quoted

/-!
# `BinaryPatching.CommandLine.Handling` — what a command line does

Tasks work on the file tree and report line by line. Whatever fails ends the task; what was done and reported before
stays.

## Contents
- `CommandError`: why a task fails, with a wording that names the cause behind an error too.
- `CommandReport`: the lines that are shown, the outcome, and the file tree afterwards.
- `runScript`, `applyDefinition`, `analyzeImage`: the tasks.
- `CommandLine.handle`: a whole command line.
-/

namespace BinaryPatching

open Text Thumb

/-- Why a task fails. -/
inductive CommandError where
  /-- The settings do not serve. -/
  | config (cause : ConfigError)
  /-- There is no such script. -/
  | noScript (path : String)
  /-- There is no such root. -/
  | noRoot (path : String)
  /-- Nothing says where the definitions are. -/
  | noDefinitions
  /-- No version of a definition is found. -/
  | noVersion (name : String)
  /-- The script fails. -/
  | script (cause : ScriptError)
  /-- The definitions cannot be read or applied. -/
  | patch (cause : PatchError)
  /-- The image cannot be read. -/
  | image (cause : ImageError)
  /-- The listing cannot be written. -/
  | listing (cause : ListingError)
deriving Repr, DecidableEq

/-- A message, followed by that of what lies behind it. -/
def withCause (message : String) : Option String → String
  | some cause => message ++ ": " ++ cause
  | none => message

/-- The wording of an error. -/
def CommandError.message : CommandError → String
  | .config cause => cause.message
  | .noScript path => "Script file does not exist: " ++ quoted path
  | .noRoot path => "Root directory does not exist: " ++ quoted path
  | .noDefinitions => "No definitions file given"
  | .noVersion name => "No version of " ++ name ++ " matches these files"
  | .script cause => "Script failed: " ++ cause.message
  | .patch cause => withCause cause.message cause.cause?
  | .image cause => withCause cause.message cause.cause?
  | .listing cause => withCause cause.message cause.cause?

/-- What a task comes to. -/
structure CommandReport where
  /-- The lines that are shown. -/
  shown : List String
  /-- A last line, without the time that the task took. -/
  timed : Option String
  /-- Success, or why it failed. -/
  outcome : Except CommandError Unit
  /-- The messages of a script. -/
  messages : List String
  /-- The file tree afterwards. -/
  files : FileTree

namespace CommandReport

/-- The report of a task that fails after some lines. -/
def failed (e : CommandError) (shown : List String) (files : FileTree) : CommandReport :=
  ⟨shown, none, .error e, [], files⟩

/-- All lines that are shown, when the task took some milliseconds. -/
def lines (report : CommandReport) (elapsed : Nat) : List String :=
  report.shown ++ (report.timed.map fun line => line ++ " in " ++ duration elapsed).toList

end CommandReport

/-! ## Scripts -/

/-- The settings as the options of a task for a script change them. -/
def Config.override (c : Config) (inputRoot outputRoot definitionsPath listingDir assemblerPath : Option String)
    (assemblerTimeout : Option Nat) : Config where
  inputRoot := inputRoot.getD c.inputRoot
  outputRoot := outputRoot.or c.outputRoot
  definitionsPath := definitionsPath.or c.definitionsPath
  listingDir := listingDir.or c.listingDir
  assemblerPath := assemblerPath.or c.assemblerPath
  assemblerTimeout := assemblerTimeout.getD c.assemblerTimeout

/-- A script run with some settings, for which the assembler is given. -/
def runScript (config : Config) (files : FileTree) (assembler : Assembler) (script : String) : CommandReport :=
  match config.validate files with
  | .error e => .failed (.config e) [] files
  | .ok _ =>
    let report := runFile config files assembler script
    let running := "[*] Running " ++ script
    match report.outcome with
    | .error e => ⟨[running], none, .error (.script e), report.messages, report.files⟩
    | .ok _ => ⟨[running, "[+] Script completed"], none, .ok (), report.messages, report.files⟩

/-! ## Definitions -/

/-- The mark of an outcome. -/
def Outcome.mark : Outcome → String
  | .patched => "[+]"
  | .alreadyPatched => "[=]"
  | .unsupportedVersion => "[!]"

/-- The lines about the files of a definition. -/
def ApplyReport.lines (report : ApplyReport) : List String :=
  (report.files.map fun (path, outcome) => outcome.mark ++ " " ++ path ++ ": " ++ outcome.text)
    ++ report.removed.map fun path => "[-] removed " ++ path

/-- A definition applied to the files below a root. -/
def applyDefinition (files : FileTree) (definitionsPath : Option String) (name root : String) : CommandReport :=
  match definitionsPath with
  | none => .failed .noDefinitions [] files
  | some path =>
    match PatchStore.load files path with
    | .error e => .failed (.patch e) [] files
    | .ok store =>
      match store.apply name files root with
      | (.error e, files) => .failed (.patch e) [] files
      | (.ok report, files) =>
        match report.version with
        | none => .failed (.noVersion report.definition) report.lines files
        | some version =>
          ⟨report.lines ++ ["[+] " ++ report.definition ++ " applied for version " ++ version], none, .ok (), [],
            files⟩

/-! ## Images -/

/-- The listing of an image written to a file, and shown if asked for. -/
def analyzeImage (files : FileTree) (binary : String) (output : Option String) (shown : Bool) : CommandReport :=
  match files.read binary with
  | .error e => .failed (.image (.io e)) [] files
  | .ok data =>
    match Image.parse data with
    | .error e => .failed (.image e) [] files
    | .ok image =>
      let code := image.code
      let loaded := "[*] Loaded " ++ binary ++ " (" ++ decimal image.sections.length ++ " sections, entry 0x"
        ++ hex8 image.entry ++ ")"
      let lines := loaded :: if shown then code.instructions.map Instruction.line else []
      let path := output.getD (binary ++ ".asm")
      match Listing.save files code (Bytes.hex (Bytes.sha1 image.data)) path with
      | .error e => .failed (.listing e) lines files
      | .ok files =>
        ⟨lines, some ("[+] " ++ decimal code.size ++ " instructions written to " ++ path), .ok (), [], files⟩

/-! ## Command lines -/

/-- The assembler of some settings. Programs are not started from here, so one that is set cannot be run. -/
def Config.assembler (c : Config) : Assembler :=
  .failing (if c.assemblerPath.isSome then .io .notExecutable else .notConfigured)

/-- What a task does with some settings. -/
def Task.handle (config : Config) (files : FileTree) : Task → CommandReport
  | .run script inputRoot outputRoot definitionsPath listingDir assemblerPath assemblerTimeout =>
    if files.isFile script then
      let config := config.override inputRoot outputRoot definitionsPath listingDir assemblerPath assemblerTimeout
      runScript config files config.assembler script
    else .failed (.noScript script) [] files
  | .apply name definitionsPath root =>
    if files.isDirectory root then applyDefinition files (definitionsPath.or config.definitionsPath) name root
    else .failed (.noRoot root) [] files
  | .analyze binary output shown => analyzeImage files binary output shown

/-- What a command line does. Its settings are read before anything else. -/
def CommandLine.handle (c : CommandLine) (files : FileTree) : CommandReport :=
  match c.config with
  | none => c.task.handle .standard files
  | some path =>
    match Config.load files path with
    | .error e => .failed (.config e) [] files
    | .ok config => c.task.handle config files

end BinaryPatching
