import BinaryPatching.Patch.Error
import BinaryPatching.Text.Lowercase

/-!
# `BinaryPatching.Patch.Basic` — patches and where they belong

A patch replaces bytes at a file offset by as many others. Patches belong to a target file, target files to a
version, versions to a named definition. All of them are found by their names; what is not there is made on
demand.

## Contents
- `updateOrAdd`: the change of one member of a list that is made if it is missing.
- `Patch`, `TargetFile`, `TargetVersion`, `PatchDefinition`, `PatchStore`: the five levels.
- `TargetFile.setPatch`, `TargetVersion.replaceFile`, `PatchDefinition.updateVersion`,
  `PatchStore.updateDefinition`: changes.
-/

namespace BinaryPatching

open Text

/-- The list with its first member of a kind changed, or, if there is none, with a fresh one that is changed
    added at its end. -/
def updateOrAdd {α : Type} (isWanted : α → Bool) (fresh : α) (change : α → α) : List α → List α
  | [] => [change fresh]
  | x :: rest => if isWanted x then change x :: rest else x :: updateOrAdd isWanted fresh change rest

/-- Afterwards the member is found in its changed form, provided it is still of its kind. -/
theorem find?_updateOrAdd {α : Type} {isWanted : α → Bool} {fresh : α} {change : α → α} (xs : List α)
    (hf : isWanted (change fresh) = true) (hc : ∀ x, isWanted x = true → isWanted (change x) = true) :
    (updateOrAdd isWanted fresh change xs).find? isWanted = some (change ((xs.find? isWanted).getD fresh)) := by
  induction xs with
  | nil => simp [updateOrAdd, hf]
  | cons x rest ih =>
    by_cases hx : isWanted x = true
    · simp [updateOrAdd, hx, hc x hx]
    · simp only [Bool.not_eq_true] at hx
      simp [updateOrAdd, hx, ih]

/-- Who looks for another kind, of which the changed member is as little as it was before, finds what was there. -/
theorem find?_updateOrAdd_of_ne {α : Type} {isWanted isOther : α → Bool} {fresh : α} {change : α → α} (xs : List α)
    (hfresh : isOther (change fresh) = false)
    (hchange : ∀ x, isWanted x = true → isOther x = false ∧ isOther (change x) = false) :
    (updateOrAdd isWanted fresh change xs).find? isOther = xs.find? isOther := by
  induction xs with
  | nil => simp [updateOrAdd, hfresh]
  | cons x rest ih =>
    unfold updateOrAdd
    split
    · rename_i hx
      obtain ⟨hbefore, hafter⟩ := hchange x hx
      rw [List.find?_cons_of_neg (by simp [hafter]), List.find?_cons_of_neg (by simp [hbefore])]
    · rw [List.find?_cons, List.find?_cons, ih]

/-! ## Patches -/

/-- The bytes at a file offset before and after patching. -/
structure Patch where
  /-- The file offset. -/
  address : UInt32
  /-- The bytes before. -/
  unpatched : Bytes
  /-- The bytes after. -/
  patched : Bytes
deriving Repr, DecidableEq

namespace Patch

/-- The patch of some bytes by as many others. -/
def make (address : UInt32) (unpatched patched : Bytes) : Except PatchError Patch :=
  if unpatched.length = patched.length then .ok ⟨address, unpatched, patched⟩
  else .error (.lengthMismatch address unpatched.length patched.length)

/-- The number of bytes. -/
def size (p : Patch) : Nat := p.patched.length

/-- The file offset behind the patch. -/
def stop (p : Patch) : Nat := p.address.toNat + p.size

/-- Both sides of a patch that was made have the same size. -/
theorem length_eq_of_make {address : UInt32} {unpatched patched : Bytes} {p : Patch}
    (h : make address unpatched patched = .ok p) : p.unpatched.length = p.patched.length := by
  unfold make at h
  split at h
  · cases h; assumption
  · simp at h

end Patch

/-! ## Target files -/

/-- A file that is no longer needed once the target is patched. -/
structure ObsoleteFile where
  /-- Its path. -/
  path : String
deriving Repr, DecidableEq

/-- The obsolete file of a path in any notation. -/
def ObsoleteFile.ofPath (path : String) : ObsoleteFile := ⟨Path.normalize path⟩

/-- A file to be patched, known by the digests of its contents before and after. -/
structure TargetFile where
  /-- The path. -/
  path : String
  /-- The digest before. -/
  unpatchedHash : Bytes
  /-- The digest after. -/
  patchedHash : Bytes
  /-- The patches. -/
  patches : List Patch
  /-- The files that are no longer needed. -/
  obsolete : List ObsoleteFile
deriving Repr, DecidableEq

namespace TargetFile

/-- A file without patches. -/
def new (path : String) (hash : Bytes) : TargetFile := ⟨Path.normalize path, hash, hash, [], []⟩

/-- Whether the file is the one at a path in any notation, in either case. -/
def isAt (file : TargetFile) (path : String) : Bool := equalIgnoringCase file.path (Path.normalize path)

/-- The last position of `size` ones from `base` on, found by halving, up to which the patches do not lie behind
    an address. -/
def lastNotBehind (patches : List Patch) (address : UInt32) (base size : Nat) : Nat :=
  if _h : size ≤ 1 then base
  else
    let middle := base + size / 2
    let isBehind := ((patches[middle]?).map fun p => decide (address < p.address)).getD false
    lastNotBehind patches address (if isBehind then base else middle) (size - size / 2)
termination_by size
decreasing_by omega

/-- The patches with one more in its place; it takes the place of one at the same address. The place is found by
    halving, for patches are kept in ascending order. -/
def insertPatch (patch : Patch) (patches : List Patch) : List Patch :=
  let place := lastNotBehind patches patch.address 0 patches.length
  match patches[place]? with
  | none => [patch]
  | some p =>
    if p.address = patch.address then patches.set place patch
    else if p.address < patch.address then patches.insertIdx (place + 1) patch
    else patches.insertIdx place patch

/-- The file with a patch, in place of one at the same address. -/
def setPatch (file : TargetFile) (patch : Patch) : TargetFile :=
  { file with patches := insertPatch patch file.patches }

/-- The patch at an address. -/
def patchAt? (file : TargetFile) (address : UInt32) : Option Patch :=
  file.patches.find? fun p => p.address == address

end TargetFile

/-! ## Versions, definitions and the store -/

/-- A version of the files to be patched. -/
structure TargetVersion where
  /-- The description, which is its name. -/
  description : String
  /-- The files. -/
  files : List TargetFile
deriving Repr, DecidableEq

namespace TargetVersion

/-- The file at a path. -/
def file? (version : TargetVersion) (path : String) : Option TargetFile :=
  version.files.find? (·.isAt path)

/-- The version with the first file at a path changed. -/
def changeFile (version : TargetVersion) (path : String) (change : TargetFile → TargetFile) : TargetVersion :=
  let rec go : List TargetFile → List TargetFile
    | [] => []
    | f :: rest => if f.isAt path then change f :: rest else f :: go rest
  { version with files := go version.files }

/-- The version with a file in place of all at the same path. -/
def replaceFile (version : TargetVersion) (file : TargetFile) : TargetVersion :=
  { version with files := version.files.filter (fun f => !f.isAt file.path) ++ [file] }

end TargetVersion

/-- A named set of patches for one or more versions. -/
structure PatchDefinition where
  /-- The name. -/
  name : String
  /-- The versions. -/
  versions : List TargetVersion
deriving Repr, DecidableEq

namespace PatchDefinition

/-- Whether a version has a description, in either case. -/
def isVersion (description : String) (version : TargetVersion) : Bool :=
  equalIgnoringCase version.description description

/-- The version of a description. -/
def version? (definition : PatchDefinition) (description : String) : Option TargetVersion :=
  definition.versions.find? (isVersion description)

/-- The definition with the version of a description changed; it is made if it is missing. -/
def updateVersion (definition : PatchDefinition) (description : String)
    (change : TargetVersion → TargetVersion) : PatchDefinition :=
  { definition with
    versions := updateOrAdd (isVersion description) ⟨description, []⟩ change definition.versions }

end PatchDefinition

/-- All definitions. -/
structure PatchStore where
  /-- The definitions. -/
  definitions : List PatchDefinition
deriving Repr, DecidableEq

namespace PatchStore

/-- The store without definitions. -/
def empty : PatchStore := ⟨[]⟩

/-- The definition of a name. -/
def definition? (store : PatchStore) (name : String) : Option PatchDefinition :=
  store.definitions.find? fun d => d.name == name

/-- The store with the definition of a name changed; it is made if it is missing. -/
def updateDefinition (store : PatchStore) (name : String) (change : PatchDefinition → PatchDefinition) :
    PatchStore :=
  { store with definitions := updateOrAdd (fun d => d.name == name) ⟨name, []⟩ change store.definitions }

/-- The version of a description in the definition of a name. -/
def version? (store : PatchStore) (name description : String) : Option TargetVersion :=
  (store.definition? name).bind (·.version? description)

/-- The store with a version changed; it and its definition are made if they are missing. -/
def updateVersion (store : PatchStore) (name description : String) (change : TargetVersion → TargetVersion) :
    PatchStore :=
  store.updateDefinition name fun d => d.updateVersion description change

end PatchStore

end BinaryPatching
