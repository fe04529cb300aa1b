import BinaryPatching.Patch.Format
import BinaryPatching.Proofs.Json.RoundTrip
import BinaryPatching.Proofs.Text.Hexadecimal

/-!
# `BinaryPatching.Proofs.Patch.Format` — stores read back from their text

Every level of a store is read back from its record, and the record from its text. So the text of a store is refused
only for what `PatchStore.validate` finds in the store itself.

## Contents
- `readAddress_addressText`, `Patch.ofJson_toJson` and the like: one lemma for every level.
- `PatchStore.plain_toJson`: the record of a store is one that the reader gives back.
- `PatchStore.parse_write`, `PatchStore.parse_write_eq_ok_iff`: the text of a store.
-/

namespace BinaryPatching

open Text

/-! ## Bytes and addresses -/

theorem bytesOfJson_bytesToJson (bytes : Bytes) : bytesOfJson (bytesToJson bytes) = .ok bytes := by
  unfold bytesOfJson bytesToJson
  simp only [Json.textOf, Json.text, Bytes.ofHex?_hex]

/-- An address is read back from its text. -/
theorem readAddress_addressText (address : UInt32) : readAddress (addressText address) = some address := by
  unfold readAddress addressText
  rw [String.toList_append]
  show (some (hex8 address).toList).bind _ = _
  rw [Option.bind_some, readUnsigned_hex8, Option.map_some, UInt32.ofNat_toNat]

theorem addressOfJson_text (address : UInt32) : addressOfJson (.text (addressText address)) = .ok address := by
  unfold addressOfJson
  simp only [Json.textOf, Json.text, readAddress_addressText]

/-! ## The levels of a store -/

namespace Json

variable {σ α : Type}

/-- A list is read back from the array of its members when every member is. -/
theorem itemsOf_map {encode : α → Json} {decode : Json → Except JsonError α} {xs : List α}
    (h : ∀ x ∈ xs, decode (encode x) = .ok x) : itemsOf decode (.array (xs.map encode)) = .ok xs :=
  decodeAll_map h 0

end Json

open Json

/-- A patch is read back from its record. -/
theorem Patch.ofJson_toJson (p : Patch) : Patch.ofJson p.toJson = .ok p := by
  have hread : readRecord patchFields ⟨none, none, none⟩ p.toJson
      = .ok ⟨some p.address, some p.unpatched, some p.patched⟩ := by
    simp [Patch.toJson, Json.record, readRecord, patchFields, readFields, field, addressOfJson_text,
      bytesOfJson_bytesToJson, Except.map]
  unfold Patch.ofJson
  rw [hread]
  rfl

theorem ObsoleteFile.ofJson_toJson (file : ObsoleteFile) : ObsoleteFile.ofJson file.toJson = .ok file := by
  simp [ObsoleteFile.toJson, ObsoleteFile.ofJson, Json.record, readRecord, readFields, field, textOf, Json.text,
    Except.map, required, bind, Except.bind, pure, Except.pure]

/-- A target file is read back from its record. -/
theorem TargetFile.ofJson_toJson (file : TargetFile) : TargetFile.ofJson file.toJson = .ok file := by
  have hpatches : itemsOf Patch.ofJson (.array (file.patches.map Patch.toJson)) = .ok file.patches :=
    itemsOf_map fun p _ => Patch.ofJson_toJson p
  have hobsolete : itemsOf ObsoleteFile.ofJson (.array (file.obsolete.map ObsoleteFile.toJson)) = .ok file.obsolete :=
    itemsOf_map fun f _ => ObsoleteFile.ofJson_toJson f
  have hread : readRecord targetFileFields ⟨none, none, none, none, none⟩ file.toJson
      = .ok ⟨some file.path, some file.unpatchedHash, some file.patchedHash, some file.patches,
        some file.obsolete⟩ := by
    simp [TargetFile.toJson, Json.record, readRecord, targetFileFields, readFields, field, textOf, Json.text,
      bytesOfJson_bytesToJson, hpatches, hobsolete, Except.map]
  unfold TargetFile.ofJson
  rw [hread]
  rfl

/-- A name with a list of members is read back from its record. -/
theorem namedListOfJson_record {α : Type} {nameField listField : String} {encode : α → Json}
    {decode : Json → Except JsonError α} {name : String} {members : List α} (hne : nameField ≠ listField)
    (h : ∀ x ∈ members, decode (encode x) = .ok x) :
    namedListOfJson nameField listField decode
      (.record [(nameField, .text name), (listField, .array (members.map encode))]) = .ok (name, members) := by
  simp [namedListOfJson, Json.record, readRecord, readFields, field, textOf, Json.text, itemsOf_map h, Except.map,
    required, bind, Except.bind, pure, Except.pure, hne]

theorem TargetVersion.ofJson_toJson (version : TargetVersion) : TargetVersion.ofJson version.toJson = .ok version := by
  unfold TargetVersion.ofJson TargetVersion.toJson
  rw [namedListOfJson_record (by decide) fun f _ => TargetFile.ofJson_toJson f]
  rfl

theorem PatchDefinition.ofJson_toJson (definition : PatchDefinition) :
    PatchDefinition.ofJson definition.toJson = .ok definition := by
  unfold PatchDefinition.ofJson PatchDefinition.toJson
  rw [namedListOfJson_record (by decide) fun v _ => TargetVersion.ofJson_toJson v]
  rfl

namespace PatchStore

/-- A store is read back from its record. -/
theorem ofJson_toJson (store : PatchStore) : ofJson store.toJson = .ok store := by
  have hitems : itemsOf PatchDefinition.ofJson (.array (store.definitions.map PatchDefinition.toJson))
      = .ok store.definitions := itemsOf_map fun d _ => PatchDefinition.ofJson_toJson d
  simp [ofJson, toJson, Json.record, readRecord, readFields, field, hitems, Except.map, bind, Except.bind, pure,
    Except.pure]

end PatchStore

/-! ## Whole texts -/

namespace Json

theorem plainItems_eq_true {items : List Json} (h : ∀ v ∈ items, plain v = true) : plainItems items = true := by
  induction items with
  | nil => rfl
  | cons v rest ih =>
    rw [plainItems, h v List.mem_cons_self, ih fun w hw => h w (List.mem_cons_of_mem _ hw)]
    rfl

theorem plain_array_map {α : Type} {encode : α → Json} {xs : List α} (h : ∀ x ∈ xs, plain (encode x) = true) :
    plain (.array (xs.map encode)) = true := by
  rw [plain]
  refine plainItems_eq_true fun v hv => ?_
  obtain ⟨x, hx, rfl⟩ := List.mem_map.1 hv
  exact h x hx

theorem plain_record {members : List (String × Json)} (h : ∀ m ∈ members, plain m.2 = true) :
    plain (record members) = true := by
  unfold record
  rw [plain]
  induction members with
  | nil => rfl
  | cons m rest ih =>
    rw [List.map_cons, plainMembers, h m List.mem_cons_self, ih fun w hw => h w (List.mem_cons_of_mem _ hw)]
    rfl

end Json

/-- The record of a target file is plain. -/
theorem TargetFile.plain_toJson (file : TargetFile) : plain file.toJson = true := by
  have hpatch : ∀ p ∈ file.patches, plain p.toJson = true := by
    intro p _
    rfl
  have hobsolete : ∀ f ∈ file.obsolete, plain f.toJson = true := by
    intro f _
    rfl
  refine plain_record ?_
  simp only [List.mem_cons, List.not_mem_nil, or_false, forall_eq_or_imp, forall_eq]
  exact ⟨rfl, rfl, rfl, plain_array_map hpatch, plain_array_map hobsolete⟩

namespace PatchStore

/-- The record of a store is one that the reader gives back. -/
theorem plain_toJson (store : PatchStore) : plain store.toJson = true := by
  have hversion : ∀ v : TargetVersion, plain v.toJson = true := by
    intro v
    refine plain_record ?_
    simp only [List.mem_cons, List.not_mem_nil, or_false, forall_eq_or_imp, forall_eq]
    exact ⟨rfl, plain_array_map fun f _ => f.plain_toJson⟩
  have hdefinition : ∀ d : PatchDefinition, plain d.toJson = true := by
    intro d
    refine plain_record ?_
    simp only [List.mem_cons, List.not_mem_nil, or_false, forall_eq_or_imp, forall_eq]
    exact ⟨rfl, plain_array_map fun v _ => hversion v⟩
  refine plain_record ?_
  simp only [List.mem_cons, List.not_mem_nil, or_false, forall_eq]
  exact plain_array_map fun d _ => hdefinition d

/-- **The text of a store denotes the store**: reading it finds nothing but what is wrong with the store itself. -/
theorem parse_write (store : PatchStore) : parse store.write = store.validate.map fun _ => store := by
  have hdecode : Json.decode ofJson store.write = .ok store := by
    unfold Json.decode write
    simp only [read_pretty store.plain_toJson, ofJson_toJson, if_true]
  unfold parse
  rw [hdecode]
  dsimp only
  cases store.validate <;> rfl

/-- A valid store is read back from its text. -/
theorem parse_write_of_valid {store : PatchStore} (h : store.validate = .ok ()) : parse store.write = .ok store := by
  rw [parse_write, h]
  rfl

/-- **Saving and reading back.** The text of a valid store denotes that store, with all its names, bytes, addresses and
    lists, and no other; that of any other store denotes none. -/
theorem parse_write_eq_ok_iff {store other : PatchStore} :
    parse store.write = .ok other ↔ store.validate = .ok () ∧ other = store := by
  constructor
  · intro h
    rw [parse_write] at h
    cases hvalid : store.validate with
    | error e =>
      rw [hvalid] at h
      cases h
    | ok u =>
      rw [hvalid] at h
      cases h
      exact ⟨rfl, rfl⟩
  · rintro ⟨hvalid, rfl⟩
    exact parse_write_of_valid hvalid

end PatchStore

end BinaryPatching
