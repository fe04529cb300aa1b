import BinaryPatching.Proofs.Script.Moves
import BinaryPatching.Proofs.Script.WorkingCopy

/-!
# `BinaryPatching.Proofs.Script.OpenFiles` — what holds while a file is open

While a script has a file open, its session keeps several things in step: the working copy with the log of the writes
that led to it, the digest with the file as it was, and the store with the destination at which the patches will be
filed. Every command keeps all of them together, also when it fails.

## Contents
- `PatchStore.HasRecord`: the record of a file at a destination, and the changes of a store that make sure of it.
- `OpenFile.Traced`: the log of an open file knows what every write replaced.
- `Session.InStep`, `Session.inStep_of_move`: the invariant, and that every move keeps it.
- `ScriptRun.inStep_execute`: scripts, after any number of commands, with a script that writes twice.
-/

namespace BinaryPatching

open Text

/-! ## Records at a destination -/

/-- **The version at a name and a description** is found as it was changed, and a fresh one if it was missing. -/
theorem PatchStore.version?_updateVersion {name description : String} {change : TargetVersion → TargetVersion}
    (hname : ∀ v, (change v).description = v.description) (store : PatchStore) :
    (store.updateVersion name description change).version? name description
      = some (change ((store.version? name description).getD ⟨description, []⟩)) := by
  have hversion (definition : PatchDefinition) : (definition.updateVersion description change).version? description
      = some (change ((definition.version? description).getD ⟨description, []⟩)) := by
    refine find?_updateOrAdd definition.versions ?_ fun v hv => ?_
    · rw [PatchDefinition.isVersion, hname, equalIgnoringCase_refl]
    · rw [PatchDefinition.isVersion, hname]
      exact hv
  have hdefinition : (store.updateVersion name description change).definition? name
      = some (((store.definition? name).getD ⟨name, []⟩).updateVersion description change) :=
    find?_updateOrAdd store.definitions (beq_self_eq_true name) fun _ hd => hd
  rw [version?, hdefinition, Option.bind_some, hversion, version?]
  cases store.definition? name <;> rfl

/-- The patches of an open file leave the description of a version as it is. -/
theorem OpenFile.description_fileIn (f : OpenFile) (version : TargetVersion) :
    (f.fileIn version).description = version.description := by
  unfold fileIn TargetVersion.changeFile
  dsimp only
  split <;> rfl

namespace TargetVersion

theorem isSome_file?_replaceNew (version : TargetVersion) (path : String) (hash : Bytes) :
    ((version.replaceFile (TargetFile.new path hash)).file? path).isSome = true := by
  have hat : (TargetFile.new path hash).isAt path = true := equalIgnoringCase_refl _
  exact List.find?_isSome.2 ⟨_, List.mem_append_right _ (List.mem_singleton_self _), hat⟩

theorem isSome_file?_changeFile {version : TargetVersion} {path : String} {change : TargetFile → TargetFile}
    (hpath : ∀ f, (change f).path = f.path) (h : (version.file? path).isSome = true) :
    ((version.changeFile path change).file? path).isSome = true := by
  have hat (f : TargetFile) : (change f).isAt path = f.isAt path := by rw [TargetFile.isAt, hpath, TargetFile.isAt]
  have hgo (files : List TargetFile) :
      (changeFile.go path change files).any (·.isAt path) = files.any (·.isAt path) := by
    induction files with
    | nil => rfl
    | cons f rest ih =>
      unfold changeFile.go
      split
      · rw [List.any_cons, List.any_cons, hat]
      · rw [List.any_cons, List.any_cons, ih]
  rw [file?, List.find?_isSome] at h ⊢
  have hany : version.files.any (·.isAt path) = true := List.any_eq_true.2 h
  rw [← hgo] at hany
  exact List.any_eq_true.1 hany

/-- A version has a record of every file whose patches were put into it. -/
theorem isSome_file?_fileIn (version : TargetVersion) (f : OpenFile) :
    ((f.fileIn version).file? f.path).isSome = true := by
  unfold OpenFile.fileIn
  dsimp only
  split
  · rename_i hsome
    exact isSome_file?_changeFile (fun _ => rfl) hsome
  · exact isSome_file?_changeFile (fun _ => rfl) (version.isSome_file?_replaceNew f.path f.unpatchedHash)

end TargetVersion

/-- **A record of a file at a destination**: it is found by its path in the version found there. -/
def PatchStore.HasRecord (store : PatchStore) (d : Destination) (path : String) : Prop :=
  ∃ version record, store.version? d.name d.version = some version ∧ version.file? path = some record

/-- A change that leaves a record in every version leaves one in the version at the destination. -/
theorem PatchStore.hasRecord_updateVersion {store : PatchStore} {d : Destination} {path : String}
    {change : TargetVersion → TargetVersion} (hname : ∀ v, (change v).description = v.description)
    (hrecord : ∀ v, ((change v).file? path).isSome = true) :
    (store.updateVersion d.name d.version change).HasRecord d path := by
  obtain ⟨record, hfound⟩ := Option.isSome_iff_exists.1
    (hrecord ((store.version? d.name d.version).getD ⟨d.version, []⟩))
  exact ⟨_, record, store.version?_updateVersion hname, hfound⟩

/-! ## Logs that know what was replaced -/

namespace OpenFile

/-- What happens to an open file keeps its log true. -/
theorem Recorded.step {f g : OpenFile} (hf : f.Recorded) (h : f.Step g) : g.Recorded := by
  cases h with
  | write offset bytes => exact hf.writeOffset offset bytes
  | label labels => exact ⟨hf.data_eq, hf.inside, hf.length_replaced, hf.unpatchedHash_eq⟩

/-- **The log of an open file** knows of every write what the working copy held just before it. -/
structure Traced (f : OpenFile) : Prop extends f.Recorded where
  /-- What a write replaced stood in the copy that the writes before it had led to. -/
  replaced : ∀ before w after, f.log.writes = before ++ w :: after →
    Bytes.slice? (replay f.image.data before) w.offset.toNat w.written.length = some w.replaced

theorem traced_start (name path : String) (image : Image) (code : CodeMap) : (start name path image code).Traced where
  toRecorded := recorded_start name path image code
  replaced := fun before _ _ h => by cases before <;> cases h

/-- What happens to an open file leaves its path as it is. -/
theorem Step.path_eq {f g : OpenFile} (h : f.Step g) : g.path = f.path := by
  cases h with
  | label labels => rfl
  | write offset bytes => rfl

/-- What happens to an open file keeps its log true. -/
theorem Traced.step {f g : OpenFile} (hf : f.Traced) (h : f.Step g) : g.Traced := by
  cases h with
  | label labels => exact ⟨hf.toRecorded.step (.label labels), hf.replaced⟩
  | write offset bytes =>
    refine ⟨hf.toRecorded.writeOffset offset bytes, ?_⟩
    rcases f.writeOffset_cases offset bytes with ⟨replaced, hslice, hwrite⟩ | ⟨-, hwrite⟩ <;> rw [hwrite]
    case inr => exact hf.replaced
    intro before w after hwrites
    -- The write is either the new one, behind all others, or one of those.
    rcases List.eq_nil_or_concat after with rfl | ⟨rest, last, rfl⟩
    · obtain ⟨rfl, hw⟩ := List.append_inj' hwrites rfl
      cases hw
      rw [← hf.data_eq]
      exact hslice
    · have hsplit : f.log.writes = before ++ w :: rest := by
        rw [List.concat_eq_append, ← List.cons_append, ← List.append_assoc] at hwrites
        exact (List.append_inj' hwrites rfl).1
      exact hf.replaced before w rest hsplit

end OpenFile

/-! ## The invariant -/

/-- **A session in step with its open file.** -/
structure Session.InStep (s : Session) (f : OpenFile) : Prop where
  /-- A destination is chosen, and the store has a record of the file there. -/
  recorded : ∃ d, s.destination = some d ∧ s.store.HasRecord d f.path
  /-- The log leads from the file as it was to the working copy, and knows what it replaced. -/
  traced : f.Traced
  /-- The working copy is as long as the file. -/
  length_data : f.data.length = f.image.data.length

/-- **Every move keeps a session in step** with its open file. -/
theorem Session.inStep_of_move {s t : Session} (hmove : s.Move t) (hs : ∀ f, s.file = some f → s.InStep f) :
    ∀ f, t.file = some f → t.InStep f := by
  intro g hg
  cases hmove with
  | quiet hstore hdestination hfile =>
    rw [hfile] at hg
    obtain ⟨hrecorded, htraced, hlength⟩ := hs g hg
    refine ⟨?_, htraced, hlength⟩
    rw [hstore, hdestination]
    exact hrecorded
  | change hf step hstore hdestination hfile =>
    rw [hfile] at hg
    cases hg
    obtain ⟨hrecorded, htraced, _⟩ := hs _ hf
    have hpath := step.path_eq
    refine ⟨?_, htraced.step step, (htraced.step step).length_data⟩
    rw [hstore, hdestination, hpath]
    exact hrecorded
  | record hf hd =>
    rw [hf] at hg
    cases hg
    obtain ⟨_, htraced, hlength⟩ := hs _ hf
    refine ⟨⟨_, hd, ?_⟩, htraced, hlength⟩
    exact PatchStore.hasRecord_updateVersion (OpenFile.description_fileIn _) fun v => v.isSome_file?_fileIn _
  | close => cases hg
  | choose d hf =>
    rw [hf] at hg
    cases hg
  | start hd _ name image code =>
    cases hg
    refine ⟨⟨_, hd, ?_⟩, OpenFile.traced_start _ _ _ _, rfl⟩
    exact PatchStore.hasRecord_updateVersion (fun _ => rfl) fun v => v.isSome_file?_replaceNew _ _

/-! ## Scripts -/

namespace ScriptRun

/-- **While a script has a file open**, its session is in step with the file: after any number of commands, for the
    limit stops a script wherever one likes, and also after one that failed. -/
theorem inStep_execute (config : Config) (script : Script) (limit : Nat) (r : ScriptRun) (hnone : r.session.file = none)
    (f : OpenFile) (hopen : (execute config script limit r).2.session.file = some f) :
    (execute config script limit r).2.session.InStep f := by
  have hstart : ∀ f, r.session.file = some f → r.session.InStep f := by
    intro f hf
    rw [hnone] at hf
    cases hf
  exact (moves_execute config script limit r).keeps (fun _ _ => Session.inStep_of_move) hstart f hopen

/-- A small executable file: its marks, a file header without an optional one, and a section that is the whole file. -/
def tinyExecutable : Bytes :=
  [0x4D, 0x5A] ++ List.replicate 58 0 ++ [0x40, 0, 0, 0]
    ++ [0x50, 0x45, 0, 0, 0xC0, 0x01, 1, 0] ++ List.replicate 16 0
    ++ [0x2E, 0x61, 0, 0, 0, 0, 0, 0, 0x80, 0, 0, 0, 0, 0, 0, 0, 0x80, 0, 0, 0] ++ List.replicate 20 0

/-- A script that writes to a file twice, the second time over the end of what it wrote first. -/
def overlappingWrites : Script :=
  ⟨[⟨1, none, "PatchDefinition \"D\", \"1\"", .fileUnder ⟨"D", "1", "", ""⟩⟩,
    ⟨2, none, "PatchFile \"a\"", .openFile "a"⟩,
    ⟨3, none, "PatchBytes \"ABCD\"", .patchBytes [0xAB, 0xCD]⟩,
    ⟨4, none, "JumpToAddress 1", .jumpToAddress 1⟩,
    ⟨5, none, "PatchBytes \"EF01\"", .patchBytes [0xEF, 0x01]⟩], []⟩

/-- A run with that file in its tree. -/
def tinyRun : ScriptRun := ⟨.start .empty, ⟨[], [(["a"], .file tinyExecutable)]⟩, .failing .notConfigured⟩

/-- The second write replaced a byte of the first one. -/
theorem inStep_overlappingWrites :
    tinyRun.session.file = none ∧
      ∃ f, (tinyRun.execute .standard overlappingWrites 5).2.session.file = some f ∧
        f.log.writes = [⟨0, [0x4D, 0x5A], [0xAB, 0xCD]⟩, ⟨1, [0xCD, 0x00], [0xEF, 0x01]⟩] ∧
        (tinyRun.execute .standard overlappingWrites 5).2.session.InStep f := by
  have hwrites : (tinyRun.execute .standard overlappingWrites 5).2.session.file.map (·.log.writes)
      = some [⟨0, [0x4D, 0x5A], [0xAB, 0xCD]⟩, ⟨1, [0xCD, 0x00], [0xEF, 0x01]⟩] := by decide +kernel
  obtain ⟨f, hopen, hlog⟩ := Option.map_eq_some_iff.1 hwrites
  exact ⟨rfl, f, hopen, hlog, inStep_execute .standard overlappingWrites 5 tinyRun rfl f hopen⟩

end ScriptRun

end BinaryPatching
