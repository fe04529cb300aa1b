import BinaryPatching.Proofs.FileTree.Writing
import BinaryPatching.Proofs.Script.OpenFiles

/-!
# `BinaryPatching.Proofs.Script.Persistence` — what a run does to the file of the definitions

A script writes listings and patched copies while it runs, and the definitions when it has come to its end. As long as
none of those files is the one of the definitions, that one stays as it was through every command, also one that fails
half way; and after a run that succeeded it holds the definitions that the run ended with.

## Contents
- `ScriptRun.outputs`, `ScriptRun.listings`: the files that a run may write next.
- `ScriptRun.next?`, `ScriptRun.after?`: the states of a run between its commands.
- `ScriptRun.KeepsClear`, `ScriptRun.clearsWithin`: a run that writes to other places.
- `ScriptRun.keeps_closeFile`, `ScriptRun.keeps_perform`: a command leaves the definitions alone.
- `ScriptRun.keeps_executeFrom`, `ScriptRun.keeps_runText`: so does a script that fails.
- `runSource_definitions`: what the file holds after a run.
-/

namespace BinaryPatching

open FileTree Text

namespace ScriptRun

/-! ## The files that a run may write -/

/-- The path of the patched copy of the open file. -/
def outputs (config : Config) (r : ScriptRun) : List String :=
  match r.session.file with
  | none => []
  | some f => (outputPath? config r.session.destination f).toList

/-- The path of the listing of the file that the next command opens. -/
def listings (config : Config) (script : Script) (r : ScriptRun) : List String :=
  match script.lines[r.session.position]? with
  | none => []
  | some line =>
    match line.command, r.session.destination, config.listingDir with
    | .openFile name, some d, some directory => [Path.join directory (listingName (d.recordPath name))]
    | _, _, _ => []

/-- The run with the next command taken up. -/
def advance (r : ScriptRun) : ScriptRun :=
  { r with session := { r.session with position := r.session.position + 1 } }

/-- The state after the next command, if there is one and it succeeds. -/
def next? (config : Config) (script : Script) (r : ScriptRun) : Option ScriptRun :=
  match script.lines[r.session.position]? with
  | none => none
  | some line =>
    match r.advance.perform config script line.command with
    | (.error _, _) => none
    | (.ok _, r) => some r

/-- **The states of a run**: the one after a number of commands, all of which succeeded. -/
def after? (config : Config) (script : Script) : Nat → ScriptRun → Option ScriptRun
  | 0, r => some r
  | n + 1, r => (next? config script r).bind (after? config script n)

/-- **A run keeps clear of a place** when no path of a listing or of a patched copy names it, in whichever state. -/
def KeepsClear (config : Config) (script : Script) (place : Place) (r : ScriptRun) : Prop :=
  ∀ n s, after? config script n r = some s →
    ∀ path ∈ s.outputs config ++ s.listings config script, s.files.placeOf path ≠ place

/-- Whether a run comes to its end within a number of commands and keeps clear of a place until then. -/
def clearsWithin (config : Config) (script : Script) (place : Place) : Nat → ScriptRun → Bool
  | 0, _ => false
  | count + 1, r =>
    ((r.outputs config ++ r.listings config script).all fun path => r.files.placeOf path ≠ place) &&
      match next? config script r with
      | none => true
      | some s => clearsWithin config script place count s

theorem keepsClear_of_clearsWithin {config : Config} {script : Script} {place : Place} {count : Nat} {r : ScriptRun}
    (h : clearsWithin config script place count r = true) : KeepsClear config script place r := by
  induction count generalizing r with
  | zero => cases h
  | succ count ih =>
    unfold clearsWithin at h
    obtain ⟨hall, hrest⟩ := Bool.and_eq_true_iff.1 h
    intro n s hs
    cases n with
    | zero =>
      cases hs
      exact fun path hpath => of_decide_eq_true (List.all_eq_true.1 hall path hpath)
    | succ n =>
      unfold after? at hs
      cases hnext : next? config script r with
      | none =>
        rw [hnext] at hs
        cases hs
      | some t =>
        rw [hnext] at hs hrest
        exact ih hrest n s hs

/-! ## Single commands -/

section

variable {config : Config} {place : Place} {r : ScriptRun}

/-- The next step of a command starts where the ones before ended. -/
theorem keeps_andThen {tree : FileTree} {p : Progress ScriptRun} {next : ScriptRun → Progress ScriptRun}
    (h : Keeps place tree p.2.files) (hnext : ∀ r, p = (.ok (), r) → Keeps place r.files (next r).2.files) :
    Keeps place tree (p.andThen next).2.files := by
  unfold Progress.andThen
  split
  · exact h
  · rename_i r
    exact h.trans (hnext r rfl)

theorem keeps_writeOutput {f : OpenFile}
    (houtput : ∀ path ∈ (outputPath? config r.session.destination f).toList, r.files.placeOf path ≠ place) :
    Keeps place r.files (r.writeOutput config f).2.files := by
  unfold writeOutput
  split
  · exact .refl place r.files
  · rename_i path hpath
    split
    · exact .refl place r.files
    · rename_i files hfiles
      rw [hpath] at houtput
      exact keeps_writeWithParents hfiles (houtput path (List.mem_singleton_self path))

/-- **Closing the open file** writes its patched copy and nothing else. -/
theorem keeps_closeFile (houtput : ∀ path ∈ r.outputs config, r.files.placeOf path ≠ place) :
    Keeps place r.files (r.closeFile config).2.files := by
  unfold closeFile
  split
  · exact .refl place r.files
  · rename_i count session hrecord
    obtain ⟨hdestination, hfile⟩ := fileRecord_frame hrecord
    split
    · exact .refl place r.files
    · rename_i f hf
      unfold outputs at houtput
      rw [hfile.symm.trans hf, ← hdestination] at houtput
      have hwrite : Keeps place r.files (writeOutput config { r with session := { session with file := none } } f).2.files :=
        keeps_writeOutput (r := { r with session := { session with file := none } }) houtput
      exact keeps_andThen hwrite fun s _ => .refl place s.files

/-- **Loading the code of an image** writes its listing at most. -/
theorem keeps_loadCode {image : Image} {path digest : String} {files after : FileTree} {code : CodeMap}
    (h : loadCode config image path digest files = .ok (code, after))
    (hlisting : ∀ directory, config.listingDir = some directory →
      files.placeOf (Path.join directory (listingName path)) ≠ place) : Keeps place files after := by
  unfold loadCode at h
  split at h
  · cases h
    exact .refl place files
  · rename_i directory hdirectory
    dsimp only at h
    split at h
    · cases h
    · cases h
      exact .refl place files
    · cases hsave : Listing.save files image.code digest (Path.join directory (listingName path)) with
      | error e =>
        rw [hsave] at h
        cases h
      | ok saved =>
        rw [hsave] at h
        cases h
        unfold Listing.save at hsave
        split at hsave
        · rename_i written hwritten
          cases hsave
          exact keeps_writeWithParents hwritten (hlisting directory hdirectory)
        · cases hsave

/-- **Opening an image** while no file is open writes the listing of its code at most. -/
theorem keeps_openImage {name : String} {image : Image} (hnone : r.session.file = none)
    (hlisting : ∀ d directory, r.session.destination = some d → config.listingDir = some directory →
      r.files.placeOf (Path.join directory (listingName (d.recordPath name))) ≠ place) :
    Keeps place r.files (r.openImage config name image).2.files := by
  unfold openImage
  rw [closeFile_of_none config hnone]
  dsimp only [Progress.andThen]
  split
  · exact .refl place r.files
  · rename_i d hd
    split
    · exact .refl place r.files
    · rename_i code files hload
      exact keeps_loadCode hload fun directory hdirectory => hlisting d directory hd hdirectory

/-- **Opening a file** closes the one before, and writes the listing of its code at most. -/
theorem keeps_openFile {name : String} (houtput : ∀ path ∈ r.outputs config, r.files.placeOf path ≠ place)
    (hlisting : ∀ d directory, r.session.destination = some d → config.listingDir = some directory →
      r.files.placeOf (Path.join directory (listingName (d.recordPath name))) ≠ place) :
    Keeps place r.files (r.openFile config name).2.files := by
  unfold openFile
  have hclose := keeps_closeFile houtput
  refine keeps_andThen hclose fun s hs => ?_
  rw [hs] at hclose
  obtain ⟨hdestination, hnone⟩ := closeFile_frame hs
  split
  · exact .refl place s.files
  · split
    · exact .refl place s.files
    · refine keeps_openImage hnone fun e directory he hdirectory => ?_
      rw [hclose.placeOf_eq]
      exact hlisting e directory (hdestination.symm.trans he) hdirectory

theorem files_assemble (r : ScriptRun) (codeType : CodeType) (body : String) :
    (r.assemble codeType body).2.files = r.files := by
  unfold assemble
  split
  · rfl
  · dsimp only
    split <;> rfl

/-- **A command leaves the definitions alone**, whether it succeeds or not: it writes the patched copy of the open file
and the listing of the next one at most, unless it is the one that writes the definitions. -/
theorem keeps_perform {script : Script} {line : ScriptLine} (hline : script.lines[r.session.position]? = some line)
    (hnot : line.command ≠ .writeDefinitions)
    (hclear : ∀ path ∈ r.outputs config ++ r.listings config script, r.files.placeOf path ≠ place) :
    Keeps place r.files (r.advance.perform config script line.command).2.files := by
  have houtput : ∀ path ∈ r.advance.outputs config, r.files.placeOf path ≠ place :=
    fun path hpath => hclear path (List.mem_append_left _ hpath)
  unfold perform
  split
  · exact keeps_andThen (keeps_closeFile houtput) fun s _ => .refl place s.files
  · rename_i name hname
    refine keeps_openFile houtput fun d directory hd hdirectory => ?_
    refine hclear _ (List.mem_append_right _ ?_)
    have hd : r.session.destination = some d := hd
    unfold listings
    rw [hline]
    dsimp only
    rw [hname, hd, hdirectory]
    exact List.mem_singleton_self _
  · exact keeps_closeFile houtput
  · rename_i hwrite
    exact absurd hwrite hnot
  · rw [files_assemble]
    exact .refl place r.files
  · exact .refl place r.files

end

/-! ## Whole scripts -/

section

variable {config : Config} {script : Script} {place : Place}

/-- What a run keeps clear of, it keeps clear of after the next command. -/
theorem KeepsClear.next {r s : ScriptRun} (h : KeepsClear config script place r) (hnext : next? config script r = some s) :
    KeepsClear config script place s := by
  intro n t ht
  refine h (n + 1) t ?_
  unfold after?
  rw [hnext]
  exact ht

/-- **The commands of a script** leave the definitions alone, up to the end of the script or to the command that fails.
At the end, the patched copy of the file that is still open is not the file of the definitions either. -/
theorem keeps_executeFrom (hnot : ∀ line ∈ script.lines, line.command ≠ .writeDefinitions) (limit remaining : Nat)
    {r : ScriptRun} (hclear : KeepsClear config script place r) :
    Keeps place r.files (executeFrom config script limit remaining r).2.files ∧
      ((executeFrom config script limit remaining r).1 = .ok () →
        KeepsClear config script place (executeFrom config script limit remaining r).2) := by
  induction remaining generalizing r with
  | zero =>
    unfold executeFrom
    split
    · exact ⟨.refl place r.files, fun _ => hclear⟩
    · exact ⟨.refl place r.files, fun h => by cases h⟩
  | succ remaining ih =>
    unfold executeFrom
    split
    · exact ⟨.refl place r.files, fun _ => hclear⟩
    · rename_i line hline
      have hstep := keeps_perform hline (hnot line (List.mem_of_getElem? hline)) (hclear 0 r rfl)
      dsimp only
      split
      · rename_i e s hs
        change r.advance.perform config script line.command = _ at hs
        rw [hs] at hstep
        exact ⟨hstep, fun h => by cases h⟩
      · rename_i s hs
        change r.advance.perform config script line.command = _ at hs
        have hnext : next? config script r = some s := by
          unfold next?
          rw [hline]
          dsimp only
          rw [hs]
        rw [hs] at hstep
        obtain ⟨hrest, hend⟩ := ih (hclear.next hnext)
        exact ⟨hstep.trans hrest, hend⟩

end

/-- **The end of a script** leaves the definitions alone if it fails, and leaves in their file what the script ended
with if it succeeds. -/
theorem finish_definitions {config : Config} {script : Script} {place : Place} {path : String} {r : ScriptRun}
    (hpath : config.definitionsPath = some path) (hclear : KeepsClear config script place r) :
    (∀ e, (finish config script r).1 = .error e → Keeps place r.files (finish config script r).2.files) ∧
      ((finish config script r).1 = .ok () → (finish config script r).2.files.read path
        = .ok (Bytes.ofText (finish config script r).2.session.store.write)) := by
  have hclose : Keeps place r.files (r.closeFile config).2.files :=
    keeps_closeFile fun output houtput => hclear 0 r rfl output (List.mem_append_left _ houtput)
  unfold finish
  split
  · rename_i e s hs
    rw [hs] at hclose
    exact ⟨fun _ _ => hclose, fun h => by cases h⟩
  · rename_i s hs
    rw [hs] at hclose
    unfold saveStore
    rw [hpath]
    dsimp only
    split
    · exact ⟨fun _ _ => hclose, fun h => by cases h⟩
    · rename_i files hsave
      refine ⟨fun e he => (by cases he), fun _ => ?_⟩
      unfold PatchStore.save at hsave
      split at hsave
      · cases hsave
      · rename_i written hwritten
        cases hsave
        exact read_writeWithParents hwritten

/-- **A script from its text**: one that fails leaves the definitions alone, and one that succeeds leaves in their file
what it ended with. -/
theorem runText_definitions {config : Config} {source path : String} {place : Place} {r : ScriptRun}
    (hpath : config.definitionsPath = some path)
    (hnot : ∀ script, Script.parse source = .ok script → ∀ line ∈ script.lines, line.command ≠ .writeDefinitions)
    (hclear : ∀ script, Script.parse source = .ok script →
      KeepsClear config script place { r with session := { r.session with position := 0 } }) :
    (∀ e, (runText config source r).1 = .error e → Keeps place r.files (runText config source r).2.files) ∧
      ((runText config source r).1 = .ok () → (runText config source r).2.files.read path
        = .ok (Bytes.ofText (runText config source r).2.session.store.write)) := by
  unfold runText
  split
  · exact ⟨fun _ _ => .refl _ _, fun h => by cases h⟩
  · rename_i script hparse
    obtain ⟨hkeeps, hend⟩ :=
      keeps_executeFrom (hnot script hparse) defaultStepLimit defaultStepLimit (hclear script hparse)
    change Keeps place r.files (execute config script defaultStepLimit r).2.files at hkeeps
    change (execute config script defaultStepLimit r).1 = .ok () →
      KeepsClear config script place (execute config script defaultStepLimit r).2 at hend
    split
    · rename_i e s hs
      rw [hs] at hkeeps
      exact ⟨fun _ _ => hkeeps, fun h => by cases h⟩
    · rename_i s hs
      rw [hs] at hkeeps hend
      obtain ⟨hfailed, hsucceeded⟩ := finish_definitions hpath (hend rfl)
      exact ⟨fun e he => hkeeps.trans (hfailed e he), hsucceeded⟩

end ScriptRun

open ScriptRun

/-- **The definitions after a run.** If a run of a script fails, the file of the definitions is as it was before, or is
missing as before; if it succeeds, the file holds the definitions that the report gives. This holds for every script
that does not write the definitions on its own, as long as no listing and no patched copy of a file that it opens is
written in their place. A run that fails because the definitions cannot be written at its end is no exception. -/
theorem runSource_definitions {config : Config} {path : String} (hpath : config.definitionsPath = some path)
    (files : FileTree) (assembler : Assembler) (source : String)
    (hnot : ∀ script, Script.parse source = .ok script → ∀ line ∈ script.lines, line.command ≠ .writeDefinitions)
    (hclear : ∀ store script, loadStore config files = .ok store → Script.parse source = .ok script →
      KeepsClear config script (files.placeOf path) ⟨.start store, files, assembler⟩) :
    ((runSource config files assembler source).isSuccess = false →
      (runSource config files assembler source).files.content? (files.placeOf path)
        = files.content? (files.placeOf path)) ∧
    ((runSource config files assembler source).isSuccess = true →
      (runSource config files assembler source).files.read path
        = .ok (Bytes.ofText (runSource config files assembler source).store.write)) := by
  unfold runSource
  split
  · exact ⟨fun _ => rfl, fun h => by cases h⟩
  · rename_i store hstore
    obtain ⟨hfailed, hsucceeded⟩ := runText_definitions (r := ⟨.start store, files, assembler⟩) hpath hnot
      fun script hparse => hclear store script hstore hparse
    dsimp only
    unfold ScriptReport.isSuccess
    constructor
    · intro hfalse
      split at hfalse
      · cases hfalse
      · rename_i e he
        exact (hfailed e he).content_eq
    · intro htrue
      split at htrue
      · rename_i he
        exact hsucceeded he
      · cases htrue

/-- A tree with a file to be patched and with definitions. -/
def definedFiles : FileTree :=
  ⟨[], [(["a"], .file tinyExecutable), (["d"], .file (Bytes.ofText PatchStore.empty.write))]⟩

/-- Settings with a place for everything. -/
def wholeConfig : Config := { Config.standard with
  outputRoot := some "out"
  definitionsPath := some "d"
  listingDir := some "out/listings" }

/-- A script that writes a listing and a patched copy before it fails. -/
def stoppedSource : String :=
  "PatchDefinition \"D\", \"1\", \"\", \"new\"\nPatchFile \"a\"\nPatchBytes \"ABCD\"\nClosePatchFile\n"
    ++ "IfNotFoundThrowError \"stop\"\n"

/-- The definitions are still those from before the run, though another file has been written. -/
theorem runSource_definitions_stopped :
    ((runSource wholeConfig definedFiles (.failing .notConfigured) stoppedSource).isSuccess = false ∧
      (runSource wholeConfig definedFiles (.failing .notConfigured) stoppedSource).files.isFile "out/new/a" = true) ∧
      (runSource wholeConfig definedFiles (.failing .notConfigured) stoppedSource).files.content? ["d"]
        = some (Bytes.ofText PatchStore.empty.write) := by
  have hfails : (runSource wholeConfig definedFiles (.failing .notConfigured) stoppedSource).isSuccess = false ∧
      (runSource wholeConfig definedFiles (.failing .notConfigured) stoppedSource).files.isFile "out/new/a" = true := by
    decide +kernel
  have hscript : ((Script.parse stoppedSource).toOption.all fun script =>
      (script.lines.all fun line => line.command ≠ .writeDefinitions) &&
        (loadStore wholeConfig definedFiles).toOption.all fun store =>
          clearsWithin wholeConfig script ["d"] 5 ⟨.start store, definedFiles, .failing .notConfigured⟩) = true := by
    decide +kernel
  refine ⟨hfails, (?_ : _ = definedFiles.content? ["d"])⟩
  refine (runSource_definitions rfl definedFiles (.failing .notConfigured) stoppedSource ?_ ?_).1 hfails.1
  · intro script hparse line hline
    rw [hparse] at hscript
    exact of_decide_eq_true (List.all_eq_true.1 (Bool.and_eq_true_iff.1 hscript).1 line hline)
  · intro store script hload hparse
    rw [hload, hparse] at hscript
    exact keepsClear_of_clearsWithin (Bool.and_eq_true_iff.1 hscript).2

end BinaryPatching
