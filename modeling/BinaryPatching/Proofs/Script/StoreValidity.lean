import BinaryPatching.Proofs.Patch.Format
import BinaryPatching.Proofs.Patch.Uniqueness
import BinaryPatching.Proofs.Script.OpenFiles

/-!
# `BinaryPatching.Proofs.Script.StoreValidity` — stores that scripts leave behind

A script that starts from a valid store makes definitions, versions and files on demand, and puts the patches of its
working copies into them. Whatever it does, the store stays tidy: it can be read back unless two of its names clash.

## Contents
- `OpenFile.Recorded.validate_fill`, `TargetVersion.Tidy.fileIn`: the record of a working copy.
- `Session.Sound`, `Session.Sound.move`: the invariant, and that every move keeps it.
- `PatchStore.Loads`: a store that can be saved and read back.
- `ScriptRun.loads_execute_iff`: when the store is one, after any number of commands and at the end of the script.
- `ScriptRun.twoVersions`, `ScriptRun.exists_execute_not_valid`: a script whose store is not.
-/

namespace BinaryPatching

open Text

/-! ## The record of a working copy -/

namespace OpenFile

/-- **The record of an open file has no faults**: its patches ascend, and none changes the size of the file. -/
theorem Recorded.validate_fill {f : OpenFile} (hf : f.Recorded) (record : TargetFile) :
    (f.fill record).validate = .ok () := by
  refine TargetFile.validate_eq_ok.2 ⟨?_, PatchLog.length_unpatched_materialize hf.length_replaced⟩
  rw [List.nodup_iff_pairwise_ne, List.pairwise_map]
  exact (PatchLog.ascending_materialize f.log).imp fun h => UInt32.ne_of_lt h

end OpenFile

/-- A fresh record in the place of an older one leaves the version tidy. -/
theorem TargetVersion.Tidy.replaceNew {version : TargetVersion} (h : version.Tidy) (path : String) (hash : Bytes) :
    (version.replaceFile (TargetFile.new path hash)).Tidy :=
  h.replaceFile (TargetFile.validate_new path hash) (Path.normalize_normalize path)

/-- The patches of an open file put into a version leave it tidy. -/
theorem TargetVersion.Tidy.fileIn {version : TargetVersion} (h : version.Tidy) {f : OpenFile} (hf : f.Recorded) :
    (f.fileIn version).Tidy := by
  unfold OpenFile.fileIn
  simp only
  split
  · exact h.changeFile (fun _ => rfl) hf.validate_fill
  · exact (h.replaceNew f.path f.unpatchedHash).changeFile (fun _ => rfl) hf.validate_fill

/-! ## The invariant -/

/-- **What holds of a session throughout a script**: its store is tidy, and the log of its open file is true. -/
structure Session.Sound (s : Session) : Prop where
  /-- The store is tidy. -/
  store : s.store.Tidy
  /-- The log of the open file is true. -/
  file : ∀ f, s.file = some f → f.Recorded

/-- Every move keeps the invariant. -/
theorem Session.Sound.move {s t : Session} (hmove : s.Move t) (hs : s.Sound) : t.Sound := by
  cases hmove with
  | quiet hstore _ hfile =>
    refine ⟨hstore ▸ hs.store, fun f hf => ?_⟩
    rw [hfile] at hf
    exact hs.file f hf
  | change hf step hstore _ hfile =>
    refine ⟨hstore ▸ hs.store, fun g hg => ?_⟩
    rw [hfile] at hg
    cases hg
    exact (hs.file _ hf).step step
  | record hf _ =>
    refine ⟨?_, hs.file⟩
    exact hs.store.updateVersion (OpenFile.description_fileIn _) fun v hv => hv.fileIn (hs.file _ hf)
  | close => exact ⟨hs.store, fun f hf => by cases hf⟩
  | choose d _ => exact ⟨hs.store.updateVersion (fun _ => rfl) fun _ hv => hv, hs.file⟩
  | start _ _ name image code =>
    refine ⟨?_, fun f hf => ?_⟩
    · exact hs.store.updateVersion (fun _ => rfl) fun v hv => hv.replaceNew _ _
    · cases hf
      exact OpenFile.recorded_start _ _ _ _

theorem Session.sound_start {store : PatchStore} (h : store.validate = .ok ()) : (Session.start store).Sound :=
  ⟨PatchStore.tidy_of_validate h, fun _ hf => by cases hf⟩

/-! ## Scripts -/

/-- A store that is valid, and whose text is read back as the store. -/
def PatchStore.Loads (store : PatchStore) : Prop :=
  store.validate = .ok () ∧ PatchStore.parse store.write = .ok store

/-- A tidy store can be saved and read back exactly if it has no clash. -/
theorem PatchStore.loads_iff_of_tidy {store : PatchStore} (h : store.Tidy) : store.Loads ↔ ¬store.HasClash := by
  rw [← PatchStore.validate_iff_of_tidy h]
  unfold PatchStore.Loads
  rw [PatchStore.parse_write]
  constructor
  · exact And.left
  · intro hv
    rw [hv]
    exact ⟨rfl, rfl⟩

namespace ScriptRun

theorem sound_execute (config : Config) (script : Script) (limit : Nat) (files : FileTree) (assembler : Assembler)
    {store : PatchStore} (h : store.validate = .ok ()) :
    (execute config script limit ⟨.start store, files, assembler⟩).2.session.Sound :=
  (moves_execute config script limit ⟨.start store, files, assembler⟩).keeps (fun _ _ => Session.Sound.move)
    (Session.sound_start h)

theorem sound_finish (config : Config) (script : Script) {r : ScriptRun} (h : r.session.Sound) :
    (r.finish config script).2.session.Sound :=
  (moves_finish config script r).keeps (fun _ _ => Session.Sound.move) h

/-- **The store of a script** that started from a valid one can be saved and read back exactly if it has no clash:
    after any number of commands, for the limit stops a script wherever one likes, and at the end of the script. -/
theorem loads_execute_iff (config : Config) (script : Script) (limit : Nat) (files : FileTree) (assembler : Assembler)
    (store : PatchStore) (h : store.validate = .ok ()) :
    let r := (execute config script limit ⟨.start store, files, assembler⟩).2
    let last := (r.finish config script).2
    (r.session.store.Loads ↔ ¬r.session.store.HasClash) ∧ (last.session.store.Loads ↔ ¬last.session.store.HasClash) := by
  intro r last
  have hr : r.session.Sound := sound_execute config script limit files assembler h
  have hlast : last.session.Sound := sound_finish config script hr
  exact ⟨PatchStore.loads_iff_of_tidy hr.store, PatchStore.loads_iff_of_tidy hlast.store⟩

/-- The text of a script that files under two versions, whose names differ in the case of a letter beyond ASCII. -/
def twoVersionsText : String := "PatchDefinition \"D\", \"É\"\nPatchDefinition \"D\", \"é\"\n"

/-- The script of that text. -/
def twoVersions : Script :=
  ⟨[⟨1, none, "PatchDefinition \"D\", \"É\"", .fileUnder ⟨"D", "É", "", ""⟩⟩,
    ⟨2, none, "PatchDefinition \"D\", \"é\"", .fileUnder ⟨"D", "é", "", ""⟩⟩], []⟩

theorem parse_twoVersionsText : Script.parse twoVersionsText = .ok twoVersions := by
  have hsome : (Script.parse twoVersionsText).toOption = some twoVersions := by decide +kernel
  cases hp : Script.parse twoVersionsText with
  | error e =>
    rw [hp] at hsome
    cases hsome
  | ok script =>
    rw [hp] at hsome
    cases hsome
    rfl

/-- The store that it leaves has a clash, and so cannot be read back. -/
theorem not_loads_twoVersions :
    PatchStore.empty.validate = .ok () ∧
      let r := (execute .standard twoVersions 2 ⟨.start .empty, .empty [], .failing .notConfigured⟩).2
      r.session.store.HasClash ∧ ¬r.session.store.Loads := by
  refine ⟨rfl, ?_⟩
  intro r
  have hstore : r.session.store = ⟨[⟨"D", [⟨"É", []⟩, ⟨"é", []⟩]⟩]⟩ := rfl
  have hclash : r.session.store.HasClash := by
    rw [hstore]
    refine ⟨_, List.mem_singleton_self _, .inl ⟨"É", by simp, "é", by simp, ?_⟩⟩
    decide +kernel
  refine ⟨hclash, fun hloads => ?_⟩
  exact (loads_execute_iff .standard twoVersions 2 (.empty []) (.failing .notConfigured) .empty rfl).1.1 hloads hclash

/-- **Not every script leaves a valid store.** The second version is not found under the name of the first, and is
    made; but both have the same name in small letters. -/
theorem exists_execute_not_valid :
    ¬∀ (config : Config) (source : String) (script : Script) (limit : Nat) (files : FileTree) (assembler : Assembler)
      (store : PatchStore), store.validate = .ok () → Script.parse source = .ok script →
      (execute config script limit ⟨.start store, files, assembler⟩).2.session.store.validate = .ok () := by
  intro h
  have hvalid := h .standard _ _ 2 (.empty []) (.failing .notConfigured) .empty rfl parse_twoVersionsText
  have hnone : (execute .standard twoVersions 2
      ⟨.start .empty, .empty [], .failing .notConfigured⟩).2.session.store.validate.toOption = none := by
    decide +kernel
  rw [hvalid] at hnone
  cases hnone

end ScriptRun

end BinaryPatching
