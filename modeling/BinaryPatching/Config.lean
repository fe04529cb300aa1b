import BinaryPatching.FileTree.Basic
import BinaryPatching.Json.Decoding
import BinaryPatching.Json.Printer
import BinaryPatching.Text.Numeral

/-!
# `BinaryPatching.Config` — settings

Where files are looked for and written, and how code is assembled. Settings are kept as a JSON record, in which
any of them may be missing.

## Contents
- `Config`, `Config.standard`: the settings.
- `Config.write`, `Config.parse`: their text.
- `Config.load`, `Config.save`: settings in files.
- `Config.validate`: whether the settings fit the file tree.
-/

namespace BinaryPatching

open Text

/-- The settings of a run. -/
structure Config where
  /-- The directory in which files to be patched are looked for. -/
  inputRoot : String
  /-- The directory in which patched files are written. -/
  outputRoot : Option String
  /-- The file of the patch definitions. -/
  definitionsPath : Option String
  /-- The directory of the listings. -/
  listingDir : Option String
  /-- The assembler. -/
  assemblerPath : Option String
  /-- How long the assembler may take. -/
  assemblerTimeout : Nat
deriving Repr, DecidableEq

/-- Why there are no settings. -/
inductive ConfigError where
  /-- The file cannot be read. -/
  | unreadable (path : String) (cause : IoError)
  /-- The text is not that of settings. -/
  | invalid (path : String) (cause : JsonFault)
  /-- The input root is not a directory. -/
  | noInputRoot (path : String)
  /-- The assembler is not there. -/
  | noAssembler (path : String)
  /-- The assembler is given no time. -/
  | noTimeout
deriving Repr, DecidableEq

/-- The wording of an error. -/
def ConfigError.message : ConfigError → String
  | .unreadable path cause => "Cannot read config " ++ path ++ ": " ++ cause.message
  | .invalid path cause => "Invalid config " ++ path ++ ": " ++ cause.message
  | .noInputRoot path => "input_root " ++ path ++ " is not a directory"
  | .noAssembler path => "assembler " ++ path ++ " does not exist"
  | .noTimeout => "assembler_timeout_seconds must be greater than 0"

namespace Config

/-- The settings where nothing is set. -/
def standard : Config := ⟨".", none, none, none, none, 30⟩

/-! ## Text -/

/-- A path that may be missing. -/
def pathToJson (path : Option String) : Json :=
  match path with
  | some p => .text p
  | none => .null

/-- The settings as a record. -/
def toJson (c : Config) : Json :=
  .record [("input_root", .text c.inputRoot), ("output_root", pathToJson c.outputRoot),
    ("definitions_path", pathToJson c.definitionsPath), ("listing_dir", pathToJson c.listingDir),
    ("assembler_path", pathToJson c.assemblerPath),
    ("assembler_timeout_seconds", .number (decimal c.assemblerTimeout))]

/-- The path of a string, or of `null` for none. -/
def pathOfJson (v : Json) : Except JsonError (Option String) :=
  match v with
  | .null => .ok none
  | _ => (Json.textOf v).map some

/-- The number of a literal without sign, point or exponent that fits 64 bits. -/
def numberOfJson (v : Json) : Except JsonError Nat :=
  match v with
  | .number literal =>
    match (readNumeral 10 literal.toList).filter (· < 0x10000000000000000) with
    | some n => .ok n
    | none => .error ⟨.mismatch, []⟩
  | .broken => .error ⟨.malformed, []⟩
  | _ => .error ⟨.mismatch, []⟩

/-- Settings that are being read. -/
structure Draft where
  /-- See `Config.inputRoot`. -/
  inputRoot : Option String
  /-- See `Config.outputRoot`. -/
  outputRoot : Option (Option String)
  /-- See `Config.definitionsPath`. -/
  definitionsPath : Option (Option String)
  /-- See `Config.listingDir`. -/
  listingDir : Option (Option String)
  /-- See `Config.assemblerPath`. -/
  assemblerPath : Option (Option String)
  /-- See `Config.assemblerTimeout`. -/
  assemblerTimeout : Option Nat

/-- The fields of settings. -/
def fields : List (Json.Field Draft) :=
  [Json.field "input_root" (·.inputRoot) (fun d v => { d with inputRoot := some v }) Json.textOf,
    Json.field "output_root" (·.outputRoot) (fun d v => { d with outputRoot := some v }) pathOfJson,
    Json.field "definitions_path" (·.definitionsPath) (fun d v => { d with definitionsPath := some v }) pathOfJson,
    Json.field "listing_dir" (·.listingDir) (fun d v => { d with listingDir := some v }) pathOfJson,
    Json.field "assembler_path" (·.assemblerPath) (fun d v => { d with assemblerPath := some v }) pathOfJson,
    Json.field "assembler_timeout_seconds" (·.assemblerTimeout) (fun d v => { d with assemblerTimeout := some v })
      numberOfJson]

/-- The settings of a record. What is missing stays as in the standard settings. -/
def ofJson (v : Json) : Except JsonError Config :=
  match Json.readRecord fields ⟨none, none, none, none, none, none⟩ v with
  | .error e => .error e
  | .ok d =>
    .ok ⟨d.inputRoot.getD standard.inputRoot, d.outputRoot.getD standard.outputRoot,
      d.definitionsPath.getD standard.definitionsPath, d.listingDir.getD standard.listingDir,
      d.assemblerPath.getD standard.assemblerPath, d.assemblerTimeout.getD standard.assemblerTimeout⟩

/-- The text of settings. -/
def write (c : Config) : String := c.toJson.pretty

/-- The settings that a text denotes. -/
def parse (text : String) : Except JsonError Config := Json.decode ofJson text

/-! ## Files -/

/-- The settings in a file. -/
def load (tree : FileTree) (path : String) : Except ConfigError Config :=
  match tree.readText path with
  | .error e => .error (.unreadable path e)
  | .ok text =>
    match parse text with
    | .error e => .error (.invalid path e.fault)
    | .ok c => .ok c

/-- The tree after settings were written to a file. -/
def save (c : Config) (tree : FileTree) (path : String) : Except IoError FileTree :=
  tree.write path (Bytes.ofText c.write)

/-- Whether the settings fit the file tree. -/
def validate (c : Config) (tree : FileTree) : Except ConfigError Unit :=
  if !tree.isDirectory c.inputRoot then .error (.noInputRoot c.inputRoot)
  else
    match c.assemblerPath.filter fun path => !tree.isFile path with
    | some path => .error (.noAssembler path)
    | none => if c.assemblerTimeout = 0 then .error .noTimeout else .ok ()

end Config

end BinaryPatching
