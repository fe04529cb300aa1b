import BinaryPatching.Bytes.Sha1
import BinaryPatching.Patch.Validity

/-!
# `BinaryPatching.Patch.Apply` — patches applied to files

A file is patched only if its content has the digest that the patches were made for. A definition is applied to the
files below a root: the first of its versions whose files are all known, patched or not, is chosen; all its files
are patched in memory before the first is written, and the obsolete files are removed at the end.

## Contents
- `Outcome`, `TargetFile.outcome`: what a digest means for a file.
- `TargetFile.apply`: the patches of one file.
- `PatchDefinition.select?`: the version that is found below a root.
- `PatchStore.apply`: a definition applied below a root, with `ApplyReport`.
-/

namespace BinaryPatching

open Text

/-- What becomes of a file. -/
inductive Outcome where
  /-- It is patched now. -/
  | patched
  /-- It was patched before. -/
  | alreadyPatched
  /-- Its content is not one that the patches are for. -/
  | unsupportedVersion
deriving Repr, DecidableEq

/-- The wording of an outcome. -/
def Outcome.text : Outcome → String
  | .patched => "patched"
  | .alreadyPatched => "already patched"
  | .unsupportedVersion => "unsupported version"

/-! ## One file -/

namespace TargetFile

/-- What some content means for a file, by its digest. -/
def outcome (file : TargetFile) (data : Bytes) : Outcome :=
  let hash := Bytes.sha1 data
  if hash = file.unpatchedHash then .patched
  else if hash = file.patchedHash then .alreadyPatched
  else .unsupportedVersion

/-- The data after some patches, one after the other. A patch that does not lie inside the data ends it there; what
    was patched before stays patched. -/
def applyPatches (data : Bytes) : List Patch → Except PatchError Unit × Bytes
  | [] => (.ok (), data)
  | patch :: rest =>
    if data.length < patch.stop then (.error (.outOfBounds patch.address patch.size), data)
    else applyPatches (Bytes.overwrite data patch.address.toNat patch.patched) rest

/-- What becomes of some content, and the content afterwards. -/
def apply (file : TargetFile) (data : Bytes) : Except PatchError Outcome × Bytes :=
  match file.outcome data with
  | .patched =>
    match applyPatches data file.patches with
    | (.error e, data) => (.error e, data)
    | (.ok _, data) => (.ok .patched, data)
  | other => (.ok other, data)

/-- What becomes of the file at a path. One that cannot be read is not supported. -/
def outcomeAt (file : TargetFile) (tree : FileTree) (path : String) : Outcome :=
  match tree.read path with
  | .ok data => file.outcome data
  | .error _ => .unsupportedVersion

/-- Patches leave the data as long as it was. -/
theorem length_applyPatches (data : Bytes) (patches : List Patch) :
    (applyPatches data patches).2.length = data.length := by
  induction patches generalizing data with
  | nil => rfl
  | cons patch rest ih =>
    unfold applyPatches
    split
    · rfl
    · rename_i h
      rw [ih, Bytes.length_overwrite]
      simp only [Patch.stop, Patch.size] at h
      omega

end TargetFile

/-! ## Definitions -/

/-- Whether a version is found below a root: it has files, and all of them are known. -/
def TargetVersion.isFound (version : TargetVersion) (tree : FileTree) (root : String) : Bool :=
  !version.files.isEmpty &&
    version.files.all fun f => f.outcomeAt tree (Path.resolve root f.path) != .unsupportedVersion

/-- The first version that is found below a root. -/
def PatchDefinition.select? (definition : PatchDefinition) (tree : FileTree) (root : String) :
    Option TargetVersion :=
  definition.versions.find? (·.isFound tree root)

/-- What the application of a definition did. -/
structure ApplyReport where
  /-- The name of the definition. -/
  definition : String
  /-- The version that was chosen. -/
  version : Option String
  /-- The files, by path, and what became of them. -/
  files : List (String × Outcome)
  /-- The files removed. -/
  removed : List String
deriving Repr, DecidableEq

/-- Whether a version was chosen. -/
def ApplyReport.isSupported (report : ApplyReport) : Bool := report.version.isSome

/-- A file patched in memory: its path in the store, its path in the tree, its content and its outcome. -/
structure StagedFile where
  /-- The path in the store. -/
  name : String
  /-- The path in the tree. -/
  path : String
  /-- The content to be written. -/
  data : Bytes
  /-- The outcome. -/
  outcome : Outcome
deriving Repr, DecidableEq

/-- The files of a version patched in memory. -/
def stage (tree : FileTree) (root : String) : List TargetFile → Except PatchError (List StagedFile)
  | [] => .ok []
  | file :: rest =>
    let path := Path.resolve root file.path
    match tree.read path with
    | .error e => .error (.io e)
    | .ok data =>
      match file.apply data with
      | (.error e, _) => .error e
      | (.ok outcome, data) =>
        match stage tree root rest with
        | .error e => .error e
        | .ok staged => .ok (⟨file.path, path, data, outcome⟩ :: staged)

/-- The tree after the files that were patched in memory have been written. -/
def commit (tree : FileTree) : List StagedFile → Except PatchError Unit × FileTree
  | [] => (.ok (), tree)
  | file :: rest =>
    if file.outcome = .patched then
      match tree.write file.path file.data with
      | .error e => (.error (.io e), tree)
      | .ok tree => commit tree rest
    else commit tree rest

/-- The tree after those obsolete files that are there have been removed, and their paths. -/
def removeObsolete (tree : FileTree) (root : String) :
    List ObsoleteFile → Except PatchError (List String) × FileTree
  | [] => (.ok [], tree)
  | file :: rest =>
    let path := Path.resolve root file.path
    if tree.exists? path then
      match tree.remove path with
      | .error e => (.error (.io e), tree)
      | .ok tree =>
        let (removed, tree) := removeObsolete tree root rest
        (removed.map (file.path :: ·), tree)
    else removeObsolete tree root rest

/-- The files of all versions that are not known, each path once. -/
def PatchDefinition.unsupported (definition : PatchDefinition) (tree : FileTree) (root : String) :
    List (String × Outcome) :=
  (definition.versions.flatMap (·.files)).foldl (fun found f =>
    if f.outcomeAt tree (Path.resolve root f.path) = .unsupportedVersion
        ∧ !(found.any fun (path, _) => equalIgnoringCase path f.path) then
      found ++ [(f.path, .unsupportedVersion)]
    else found) []

/-- A version applied below a root. -/
def TargetVersion.apply (version : TargetVersion) (definition : String) (tree : FileTree) (root : String) :
    Except PatchError ApplyReport × FileTree :=
  match stage tree root version.files with
  | .error e => (.error e, tree)
  | .ok staged =>
    match commit tree staged with
    | (.error e, tree) => (.error e, tree)
    | (.ok _, tree) =>
      match removeObsolete tree root (version.files.flatMap (·.obsolete)) with
      | (.error e, tree) => (.error e, tree)
      | (.ok removed, tree) =>
        (.ok ⟨definition, some version.description, staged.map fun f => (f.name, f.outcome), removed⟩, tree)

/-- The definition of a name applied below a root. When no version is found there, the report names the files that
    are not known, and nothing is written. -/
def PatchStore.apply (store : PatchStore) (name : String) (tree : FileTree) (root : String) :
    Except PatchError ApplyReport × FileTree :=
  match store.definition? name with
  | none => (.error (.definitionNotFound name), tree)
  | some definition =>
    match definition.select? tree root with
    | none => (.ok ⟨definition.name, none, definition.unsupported tree root, []⟩, tree)
    | some version => version.apply definition.name tree root

end BinaryPatching
