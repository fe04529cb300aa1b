import BinaryPatching.Proofs.Script.StepLimits

/-!
# `BinaryPatching.Proofs.Script.Failures` — what a command that fails leaves behind

Most commands change nothing if they fail. Four work in several steps, of which the earlier ones stay done. The one
among them that opens a file closes the file before it first, and when that has been filed, the record of the file to
be opened is touched only once nothing can fail any more.

## Contents
- `PatchStore.record?`, `PatchStore.record?_file`: one record filed, and all others.
- `Session.filedStore`, `Session.record?_filedStore`, `ScriptRun.store_closeFile`, `ScriptRun.eq_of_openFile`: the
  command that opens a file.
- `ScriptRun.perform_failed`: single commands, with one that cannot open a file while another one is open.
- `ScriptRun.execute_failed`: scripts.
-/

namespace BinaryPatching

open Text

/-! ## Records -/

/-- Two paths of one record. -/
def Path.SameRecord (path other : String) : Bool := equalIgnoringCase (normalize path) (normalize other)

theorem TargetFile.isAt_congr {path other : String} (h : Path.SameRecord path other = true) (record : TargetFile) :
    record.isAt path = record.isAt other :=
  equalIgnoringCase_congr h record.path

theorem TargetFile.isAt_normalize (record : TargetFile) (path : String) :
    record.isAt (Path.normalize path) = record.isAt path := by
  rw [isAt, Path.normalize_normalize, isAt]

namespace TargetVersion

variable {version : TargetVersion} {path : String}

/-- **A record changed** in its place, with all others as they were. -/
theorem file?_changeFile {change : TargetFile → TargetFile} (hpath : ∀ f, (change f).path = f.path)
    (version : TargetVersion) (path other : String) :
    (version.changeFile path change).file? other
      = if Path.SameRecord path other then (version.file? path).map change else version.file? other := by
  have hat (f : TargetFile) (place : String) : (change f).isAt place = f.isAt place := by
    rw [TargetFile.isAt, hpath, TargetFile.isAt]
  show (changeFile.go path change version.files).find? (·.isAt other)
    = if Path.SameRecord path other then (version.files.find? (·.isAt path)).map change
      else version.files.find? (·.isAt other)
  induction version.files with
  | nil => simp [changeFile.go]
  | cons f rest ih =>
    unfold changeFile.go
    by_cases hf : f.isAt path = true
    · rw [if_pos hf, List.find?_cons, List.find?_cons, List.find?_cons, hat, hf]
      cases hsame : Path.SameRecord path other with
      | true => rw [← TargetFile.isAt_congr hsame, hf, if_pos rfl, Option.map_some]
      | false =>
        have hother : f.isAt other = false := equalIgnoringCase_eq_false hsame hf
        rw [hother, if_neg Bool.false_ne_true]
    · rw [Bool.not_eq_true] at hf
      rw [if_neg (by rw [hf]; exact Bool.false_ne_true), List.find?_cons, List.find?_cons, List.find?_cons, ih, hf]
      cases hsame : Path.SameRecord path other with
      | true => rw [← TargetFile.isAt_congr hsame, hf, if_pos rfl]
      | false => rfl

/-- **A fresh record added** where there was none, with all others as they were. -/
theorem file?_replaceNew (h : version.file? path = none) (hash : Bytes) (other : String) :
    (version.replaceFile (TargetFile.new path hash)).file? other
      = if Path.SameRecord path other then some (TargetFile.new path hash) else version.file? other := by
  have hfiles : (version.replaceFile (TargetFile.new path hash)).files
      = version.files ++ [TargetFile.new path hash] := by
    refine congrArg (· ++ [TargetFile.new path hash]) (List.filter_eq_self.2 fun g hg => ?_)
    have hnot := List.find?_eq_none.1 h g hg
    rw [TargetFile.new, TargetFile.isAt_normalize, Bool.not_eq_true', ← Bool.not_eq_true]
    exact hnot
  have hnew : (TargetFile.new path hash).isAt other = Path.SameRecord path other := rfl
  rw [file?, hfiles, List.find?_append, List.find?_singleton, hnew]
  cases hsame : Path.SameRecord path other with
  | true =>
    have hnone : version.files.find? (·.isAt other) = none := by
      rw [← h, file?]
      exact congrArg (List.find? · version.files) (funext fun g => (TargetFile.isAt_congr hsame g).symm)
    rw [hnone]
    rfl
  | false => exact Option.or_none

/-- **The patches of an open file filed**: its record is filled in, and all others are as they were. -/
theorem file?_fileIn (version : TargetVersion) (f : OpenFile) (other : String) :
    (f.fileIn version).file? other
      = if Path.SameRecord f.path other then
          some (f.fill ((version.file? f.path).getD (TargetFile.new f.path f.unpatchedHash)))
        else version.file? other := by
  have hself : Path.SameRecord f.path f.path = true := equalIgnoringCase_refl _
  have hpath : ∀ record, (f.fill record).path = record.path := fun _ => rfl
  unfold OpenFile.fileIn
  dsimp only
  rw [file?_changeFile hpath]
  cases hfile : version.file? f.path with
  | some record =>
    rw [Option.isSome_some, if_pos rfl, hfile, Option.map_some, Option.getD_some]
  | none =>
    rw [Option.isSome_none, if_neg Bool.false_ne_true, file?_replaceNew hfile, file?_replaceNew hfile, if_pos hself,
      Option.map_some, Option.getD_none]
    split <;> rfl

end TargetVersion

namespace PatchStore

/-- The record of a file at a destination. -/
def record? (store : PatchStore) (d : Destination) (path : String) : Option TargetFile :=
  (store.version? d.name d.version).bind (·.file? path)

/-- Two destinations of one version. -/
def SameVersion (d c : Destination) : Bool := d.name == c.name && equalIgnoringCase d.version c.version

theorem definition?_updateDefinition_of_ne {name other : String} (h : name ≠ other)
    {change : PatchDefinition → PatchDefinition} (hname : ∀ p, (change p).name = p.name) (store : PatchStore) :
    (store.updateDefinition name change).definition? other = store.definition? other := by
  refine find?_updateOrAdd_of_ne store.definitions ?_ fun p hp => ?_
  · rw [hname]
    exact beq_eq_false_iff_ne.2 h
  · rw [hname, eq_of_beq hp]
    exact ⟨beq_eq_false_iff_ne.2 h, beq_eq_false_iff_ne.2 h⟩

theorem version?_congr {d c : Destination} (h : SameVersion d c = true) (store : PatchStore) :
    store.version? d.name d.version = store.version? c.name c.version := by
  obtain ⟨hname, hversion⟩ := Bool.and_eq_true_iff.1 h
  rw [version?, version?, eq_of_beq hname]
  refine congrArg _ (funext fun p => congrArg (List.find? · p.versions) (funext fun v => ?_))
  exact equalIgnoringCase_congr hversion v.description

/-- A definition with a version changed is the same for who looks for another version. -/
theorem version?_updateVersion_of_ne {change : TargetVersion → TargetVersion}
    (hname : ∀ v, (change v).description = v.description) {description other : String}
    (h : equalIgnoringCase description other = false) (p : PatchDefinition) :
    (p.updateVersion description change).version? other = p.version? other := by
  refine find?_updateOrAdd_of_ne p.versions ?_ fun v hv => ?_
  · rw [PatchDefinition.isVersion, hname]
    exact h
  · have hother : PatchDefinition.isVersion other v = false := equalIgnoringCase_eq_false h hv
    refine ⟨hother, ?_⟩
    rw [PatchDefinition.isVersion, hname]
    exact hother

/-- **A version changed** in its place, and made before if it was missing. All others are as they were. -/
theorem version?_updateVersion_eq {change : TargetVersion → TargetVersion}
    (hname : ∀ v, (change v).description = v.description) (store : PatchStore) (d c : Destination) :
    (store.updateVersion d.name d.version change).version? c.name c.version
      = if SameVersion d c then some (change ((store.version? d.name d.version).getD ⟨d.version, []⟩))
        else store.version? c.name c.version := by
  cases hsame : SameVersion d c with
  | true => rw [if_pos rfl, ← version?_congr hsame, store.version?_updateVersion hname]
  | false =>
    rw [if_neg Bool.false_ne_true]
    by_cases hdefinition : d.name = c.name
    · have hversion : equalIgnoringCase d.version c.version = false := by
        rw [SameVersion, hdefinition, beq_self_eq_true, Bool.true_and] at hsame
        exact hsame
      have hchanged : (store.updateVersion d.name d.version change).definition? d.name
          = some (((store.definition? d.name).getD ⟨d.name, []⟩).updateVersion d.version change) :=
        find?_updateOrAdd store.definitions (beq_self_eq_true d.name) fun _ hp => hp
      rw [← hdefinition, version?, hchanged, Option.bind_some, version?_updateVersion_of_ne hname hversion, version?]
      cases store.definition? d.name <;> rfl
    · have hkeeps : ∀ p : PatchDefinition, (p.updateVersion d.version change).name = p.name := fun _ => rfl
      rw [version?, updateVersion, definition?_updateDefinition_of_ne hdefinition hkeeps, version?]

/-- **The patches of an open file filed** in a store: its record is filled in, and all others are as they were. -/
theorem record?_file (store : PatchStore) (f : OpenFile) (d c : Destination) (path : String) :
    (store.updateVersion d.name d.version f.fileIn).record? c path
      = if SameVersion d c && Path.SameRecord f.path path then
          some (f.fill ((store.record? d f.path).getD (TargetFile.new f.path f.unpatchedHash)))
        else store.record? c path := by
  rw [record?, version?_updateVersion_eq (OpenFile.description_fileIn f)]
  cases hversion : SameVersion d c with
  | false => rfl
  | true =>
    rw [if_pos rfl, Option.bind_some, TargetVersion.file?_fileIn, Bool.true_and, record?, record?,
      ← version?_congr hversion]
    cases store.version? d.name d.version <;> rfl

end PatchStore

/-! ## The command that opens a file -/

/-- **The store with the patches of the open file filed** at the destination, as far as there are both. -/
def Session.filedStore (s : Session) : PatchStore :=
  match s.file, s.destination with
  | some f, some d => s.store.updateVersion d.name d.version f.fileIn
  | _, _ => s.store

/-- Whether the open file is recorded at a destination and a path. -/
def Session.Records (s : Session) (c : Destination) (path : String) (f : OpenFile) : Prop :=
  ∃ d, s.file = some f ∧ s.destination = some d ∧ PatchStore.SameVersion d c = true ∧
    Path.SameRecord f.path path = true

/-- **Of all records** none but that of the open file is another one then. -/
theorem Session.record?_filedStore (s : Session) (c : Destination) (path : String) :
    s.filedStore.record? c path = s.store.record? c path ∨
      ∃ f record, s.Records c path f ∧ s.filedStore.record? c path = some (f.fill record) := by
  unfold filedStore
  split
  · rename_i f d hf hd
    rw [PatchStore.record?_file]
    cases hsame : PatchStore.SameVersion d c && Path.SameRecord f.path path with
    | true =>
      obtain ⟨hversion, hpath⟩ := Bool.and_eq_true_iff.1 hsame
      exact .inr ⟨f, _, ⟨d, hf, hd, hversion, hpath⟩, rfl⟩
    | false => exact .inl rfl
  · exact .inl rfl

namespace ScriptRun

variable {config : Config} {script : Script} {r t : ScriptRun} {e : ExecutionError}

theorem store_fileRecord (s : Session) : s.fileRecord.2.store = s.filedStore := by
  unfold Session.fileRecord Session.filedStore
  cases s.file with
  | none => rfl
  | some f => cases s.destination <;> rfl

/-- **Closing the open file** files its patches, whether the patched copy can be written or not. -/
theorem store_closeFile (config : Config) (r : ScriptRun) :
    (r.closeFile config).2.session.store = r.session.filedStore := by
  have hfiled := store_fileRecord r.session
  unfold closeFile
  split
  · rename_i hrecord
    rw [hrecord] at hfiled
    exact hfiled
  · rename_i count u hrecord
    rw [hrecord] at hfiled
    split
    · exact hfiled
    · rename_i f hfile
      rw [← hfiled]
      -- What is left to do writes the patched copy and says so.
      have hquiet := (writeOutput_quiet config { r with session := { u with file := none } } f).1
      dsimp only
      unfold Progress.andThen
      split
      · rename_i hwrite
        rw [hwrite] at hquiet
        exact hquiet
      · rename_i hwrite
        rw [hwrite] at hquiet
        exact hquiet

/-- Opening an image while no file is open changes nothing if it fails. -/
theorem eq_of_openImage {name : String} {image : Image} (hnone : r.session.file = none)
    (h : r.openImage config name image = (.error e, t)) : t = r := by
  unfold openImage at h
  rw [closeFile_of_none config hnone] at h
  unfold Progress.andThen at h
  dsimp only at h
  split at h
  · cases h
    rfl
  · split at h
    · cases h
      rfl
    · cases h

/-- **A file that cannot be opened** leaves the run as it is once the file before is closed. -/
theorem eq_of_openFile {path : String} (h : r.openFile config path = (.error e, t)) : t = (r.closeFile config).2 := by
  unfold openFile Progress.andThen at h
  split at h
  · rename_i hclose
    cases h
    rw [hclose]
  · rename_i q hclose
    rw [hclose]
    dsimp only at h
    split at h
    · cases h
      rfl
    · split at h
      · cases h
        rfl
      · exact eq_of_openImage (closeFile_frame hclose).2 h

/-- **A command that fails** has changed nothing of the session and of the file tree, unless it is one of the four that
work in several steps. The one of these that opens a file has filed the patches of the file that was open before at
most: all other records are as they were, also that of the file that could not be opened. -/
theorem perform_failed {command : Command} (h : r.perform config script command = (.error e, t)) :
    (command.worksInSteps = false → t.session = r.session ∧ t.files = r.files) ∧
      ∀ path, command = .openFile path → t.session.store = r.session.filedStore ∧
        ∀ c name, t.session.store.record? c name = r.session.store.record? c name ∨
          ∃ f record, r.session.Records c name f ∧ t.session.store.record? c name = some (f.fill record) := by
  have hsingle : command.worksInSteps = false → t.session = r.session ∧ t.files = r.files := by
    intro hsteps
    exact frame_of_perform hsteps h
  refine ⟨hsingle, ?_⟩
  rintro path rfl
  -- Once the file before is closed, nothing is changed before all that can fail is done.
  have hopen : r.openFile config path = (.error e, t) := by
    unfold perform at h
    exact h
  have hstore : t.session.store = r.session.filedStore := by
    rw [eq_of_openFile hopen, store_closeFile]
  refine ⟨hstore, fun c name => ?_⟩
  rw [hstore]
  exact r.session.record?_filedStore c name

/-- The run with a record of another file in its store. -/
def recordedRun : ScriptRun :=
  { tinyRun with session := .start ⟨[⟨"D", [⟨"1", [⟨"b", [1], [2], [⟨7, [3], [4]⟩], []⟩]⟩]⟩]⟩ }

/-- That run with its file open and written to. -/
def writtenRun : ScriptRun := (recordedRun.execute .standard overlappingWrites 5).2

/-- Where its patches go. -/
def writtenRecord? (s : Session) (path : String) : Option TargetFile := s.store.record? ⟨"D", "1", "", ""⟩ path

/-- A jump to a label that is not there changes nothing. The other file, which is not there either, keeps its record
when it should be opened, and the patches of the open one are filed. -/
theorem perform_failed_writtenRun :
    (writtenRun.perform .standard overlappingWrites (.jumpToLabel "b")).1 = .error (.labelNotFound "b") ∧
      (writtenRun.perform .standard overlappingWrites (.jumpToLabel "b")).2.session = writtenRun.session ∧
      (writtenRun.perform .standard overlappingWrites (.openFile "b")).1 = .error (.image (.io .notFound)) ∧
      (writtenRecord? (writtenRun.perform .standard overlappingWrites (.openFile "b")).2.session "a").map (·.patches)
        = some [⟨0, [0x4D, 0x5A], [0xAB, 0xCD]⟩, ⟨1, [0xCD, 0x00], [0xEF, 0x01]⟩] ∧
      writtenRecord? (writtenRun.perform .standard overlappingWrites (.openFile "b")).2.session "b"
        = some ⟨"b", [1], [2], [⟨7, [3], [4]⟩], []⟩ := by
  have hjump : (writtenRun.perform .standard overlappingWrites (.jumpToLabel "b")).1
      = .error (.labelNotFound "b") := by decide +kernel
  have hopen : (writtenRun.perform .standard overlappingWrites (.openFile "b")).1
      = .error (.image (.io .notFound)) := by decide +kernel
  have hwritten : writtenRun.session.file.map (·.path) = some "a" := by decide +kernel
  have hrecord : writtenRecord? writtenRun.session "b" = some ⟨"b", [1], [2], [⟨7, [3], [4]⟩], []⟩ := by
    decide +kernel
  have hpair {command : Command} {e : ExecutionError}
      (h : (writtenRun.perform .standard overlappingWrites command).1 = .error e) :
      writtenRun.perform .standard overlappingWrites command
        = (.error e, (writtenRun.perform .standard overlappingWrites command).2) := by
    rw [← h]
  have hframe := (perform_failed (hpair hjump)).1 (by decide)
  refine ⟨hjump, hframe.1, hopen, by decide +kernel, ?_⟩
  obtain ⟨-, hothers⟩ := (perform_failed (hpair hopen)).2 "b" rfl
  rcases hothers ⟨"D", "1", "", ""⟩ "b" with hsame | ⟨f, _, ⟨_, hf, _, _, hpath⟩, _⟩
  · rw [writtenRecord?, hsame]
    exact hrecord
  · rw [hf, Option.map_some, Option.some_inj] at hwritten
    rw [hwritten] at hpath
    exact absurd hpath (by decide +kernel)

/-! ## Scripts -/

/-- The last command of a run that fails of itself. -/
theorem Ends.exists_last {count : Nat} {out : Except ScriptError Unit × ScriptRun} (h : Ends config script count r out)
    {error : ScriptError} (hout : out.1 = .error error) :
    ∃ before s line e, count = before + 1 ∧ after? config script before r = some s ∧
      script.lines[s.session.position]? = some line ∧ error = .execution line.number line.text e ∧
      s.advance.perform config script line.command = (.error e, out.2) := by
  induction h with
  | finished _ => cases hout
  | failed hline hfails =>
    cases hout
    exact ⟨0, _, _, _, rfl, rfl, hline, rfl, hfails⟩
  | next hline hsucceeds _ ih =>
    obtain ⟨before, s, line, e, rfl, hafter, hdue, herror, hfails⟩ := ih hout
    refine ⟨before + 1, s, line, e, rfl, ?_, hdue, herror, hfails⟩
    rw [after?_next hline hsucceeds]
    exact hafter

/-- **A script that fails**, but not for its limit, does so at a command that was due after others had succeeded. What
they did is there, and if the failed command is none of those that work in several steps, nothing else is. -/
theorem execute_failed {limit : Nat} {error : ScriptError} (h : r.execute config script limit = (.error error, t))
    (hlimit : ¬StoppedByLimit (.error error)) :
    ∃ count < limit, ∃ s line e, after? config script count r.restart = some s ∧
      script.lines[s.session.position]? = some line ∧ error = .execution line.number line.text e ∧
      s.advance.perform config script line.command = (.error e, t) ∧
      (line.command.worksInSteps = false → t.session = s.advance.session ∧ t.files = s.files) := by
  rw [execute_eq] at h
  rcases executeFrom_cases config script limit limit r.restart with ⟨count, hcount, hends⟩ | ⟨s, line, _, _, hstopped⟩
  · rw [h] at hends
    obtain ⟨before, s, line, e, rfl, hafter, hline, herror, hfails⟩ := hends.exists_last rfl
    refine ⟨before, hcount, s, line, e, hafter, hline, herror, hfails, fun hsteps => ?_⟩
    exact frame_of_perform hsteps hfails
  · rw [h] at hstopped
    cases hstopped
    exact absurd ⟨_, _, _, rfl⟩ hlimit

end ScriptRun

end BinaryPatching
