import BinaryPatching.Bytes.Hex
import BinaryPatching.Json.Decoding
import BinaryPatching.Json.Part
import BinaryPatching.Json.Printer
import BinaryPatching.Patch.Validity

/-!
# `BinaryPatching.Patch.Format` — the text of a store

A store is written as JSON: every level is a record, bytes are hexadecimal pairs, and addresses are hexadecimal
numbers of eight digits after `0x`. Lists that are missing in a text are empty. A text is accepted only if the
store it denotes is valid.

## Contents
- `Patch.toJson` and the like: encoding.
- `Patch.ofJson` and the like: decoding.
- `PatchStore.write`, `PatchStore.parse`: whole texts.
-/

namespace BinaryPatching

open Text

/-! ## Bytes and addresses -/

/-- Bytes as a string. -/
def bytesToJson (bytes : Bytes) : Json := .text (Bytes.hex bytes)

/-- The bytes of a string. -/
def bytesOfJson (v : Json) : Except JsonError Bytes :=
  match Json.textOf v with
  | .error e => .error e
  | .ok text =>
    match Bytes.ofHex? text with
    | some bytes => .ok bytes
    | none => .error ⟨.invalidBytes text, []⟩

/-- An address as text. -/
def addressText (address : UInt32) : String := "0x" ++ hex8 address

/-- The address that a text denotes. -/
def readAddress (text : String) : Option UInt32 :=
  (afterHexMark text.toList).bind fun digits => (readUnsigned 16 0x100000000 digits).map UInt32.ofNat

/-- The address of a string. -/
def addressOfJson (v : Json) : Except JsonError UInt32 :=
  match Json.textOf v with
  | .error e => .error e
  | .ok text =>
    match readAddress text with
    | some address => .ok address
    | none => .error ⟨.invalidAddress text, []⟩

/-! ## Patches -/

/-- A patch as a record. -/
def Patch.toJson (p : Patch) : Json :=
  .record [("address", .text (addressText p.address)), ("original_bytes", bytesToJson p.unpatched),
    ("patched_bytes", bytesToJson p.patched)]

/-- A patch that is being read. -/
structure PatchDraft where
  /-- The file offset. -/
  address : Option UInt32
  /-- The bytes before. -/
  unpatched : Option Bytes
  /-- The bytes after. -/
  patched : Option Bytes

/-- The fields of a patch. -/
def patchFields : List (Json.Field PatchDraft) :=
  [Json.field "address" (·.address) (fun d v => { d with address := some v }) addressOfJson,
    Json.field "original_bytes" (·.unpatched) (fun d v => { d with unpatched := some v }) bytesOfJson,
    Json.field "patched_bytes" (·.patched) (fun d v => { d with patched := some v }) bytesOfJson]

/-- The patch of a record. -/
def Patch.ofJson (v : Json) : Except JsonError Patch := do
  let draft ← Json.readRecord patchFields ⟨none, none, none⟩ v
  let address ← Json.required "address" draft.address
  let unpatched ← Json.required "original_bytes" draft.unpatched
  let patched ← Json.required "patched_bytes" draft.patched
  return ⟨address, unpatched, patched⟩

/-! ## Files -/

/-- An obsolete file as a record. -/
def ObsoleteFile.toJson (file : ObsoleteFile) : Json := .record [("path", .text file.path)]

/-- The obsolete file of a record. -/
def ObsoleteFile.ofJson (v : Json) : Except JsonError ObsoleteFile := do
  let draft ← Json.readRecord [Json.field "path" id (fun _ v => some v) Json.textOf] (none : Option String) v
  let path ← Json.required "path" draft
  return ⟨path⟩

/-- A target file as a record. -/
def TargetFile.toJson (file : TargetFile) : Json :=
  .record [("path", .text file.path), ("hash_original", bytesToJson file.unpatchedHash),
    ("hash_patched", bytesToJson file.patchedHash), ("patches", .array (file.patches.map Patch.toJson)),
    ("obsolete", .array (file.obsolete.map ObsoleteFile.toJson))]

/-- A target file that is being read. -/
structure TargetFileDraft where
  /-- The path. -/
  path : Option String
  /-- The digest before. -/
  unpatchedHash : Option Bytes
  /-- The digest after. -/
  patchedHash : Option Bytes
  /-- The patches. -/
  patches : Option (List Patch)
  /-- The files that are no longer needed. -/
  obsolete : Option (List ObsoleteFile)

/-- The fields of a target file. -/
def targetFileFields : List (Json.Field TargetFileDraft) :=
  [Json.field "path" (·.path) (fun d v => { d with path := some v }) Json.textOf,
    Json.field "hash_original" (·.unpatchedHash) (fun d v => { d with unpatchedHash := some v }) bytesOfJson,
    Json.field "hash_patched" (·.patchedHash) (fun d v => { d with patchedHash := some v }) bytesOfJson,
    Json.field "patches" (·.patches) (fun d v => { d with patches := some v }) (Json.itemsOf Patch.ofJson),
    Json.field "obsolete" (·.obsolete) (fun d v => { d with obsolete := some v })
      (Json.itemsOf ObsoleteFile.ofJson)]

/-- The target file of a record. -/
def TargetFile.ofJson (v : Json) : Except JsonError TargetFile := do
  let draft ← Json.readRecord targetFileFields ⟨none, none, none, none, none⟩ v
  let path ← Json.required "path" draft.path
  let unpatchedHash ← Json.required "hash_original" draft.unpatchedHash
  let patchedHash ← Json.required "hash_patched" draft.patchedHash
  return ⟨path, unpatchedHash, patchedHash, draft.patches.getD [], draft.obsolete.getD []⟩

/-! ## Versions, definitions and the store -/

/-- A name with a list of members, as the upper levels are read. -/
structure NamedListDraft (α : Type) where
  /-- The name. -/
  name : Option String
  /-- The members. -/
  members : Option (List α)

/-- The name and the members of a record. -/
def namedListOfJson {α : Type} (nameField listField : String) (decode : Json → Except JsonError α) (v : Json) :
    Except JsonError (String × List α) := do
  let fields : List (Json.Field (NamedListDraft α)) :=
    [Json.field nameField (·.name) (fun d v => { d with name := some v }) Json.textOf,
      Json.field listField (·.members) (fun d v => { d with members := some v }) (Json.itemsOf decode)]
  let draft ← Json.readRecord fields ⟨none, none⟩ v
  let name ← Json.required nameField draft.name
  return (name, draft.members.getD [])

/-- A version as a record. -/
def TargetVersion.toJson (version : TargetVersion) : Json :=
  .record [("description", .text version.description), ("files", .array (version.files.map TargetFile.toJson))]

/-- The version of a record. -/
def TargetVersion.ofJson (v : Json) : Except JsonError TargetVersion :=
  (namedListOfJson "description" "files" TargetFile.ofJson v).map fun (description, files) => ⟨description, files⟩

/-- A definition as a record. -/
def PatchDefinition.toJson (definition : PatchDefinition) : Json :=
  .record [("name", .text definition.name), ("versions", .array (definition.versions.map TargetVersion.toJson))]

/-- The definition of a record. -/
def PatchDefinition.ofJson (v : Json) : Except JsonError PatchDefinition :=
  (namedListOfJson "name" "versions" TargetVersion.ofJson v).map fun (name, versions) => ⟨name, versions⟩

namespace PatchStore

/-- A store as a record. -/
def toJson (store : PatchStore) : Json :=
  .record [("definitions", .array (store.definitions.map PatchDefinition.toJson))]

/-- The store of a record, not yet validated. -/
def ofJson (v : Json) : Except JsonError PatchStore := do
  let draft ← Json.readRecord
    [Json.field "definitions" id (fun _ v => some v) (Json.itemsOf PatchDefinition.ofJson)]
    (none : Option (List PatchDefinition)) v
  return ⟨draft.getD []⟩

/-- The text of a store. -/
def write (store : PatchStore) : String := store.toJson.pretty

/-- The valid store that a text denotes. -/
def parse (text : String) : Except PatchError PatchStore :=
  match Json.decode ofJson text with
  | .error e => .error (.json e.fault (Json.positionOf text e.path))
  | .ok store =>
    match store.validate with
    | .error e => .error e
    | .ok _ => .ok store

/-- What a text denotes is valid. -/
theorem validate_of_parse {text : String} {store : PatchStore} (h : parse text = .ok store) :
    store.validate = .ok () := by
  unfold parse at h
  split at h
  · simp at h
  · split at h
    · simp at h
    · cases h; assumption

end PatchStore

end BinaryPatching
