import BinaryPatching.Script.Execution

/-!
# `BinaryPatching.Proofs.Script.Atomicity` — commands that do all or nothing

What an action makes of a state has the state afterwards in it, also if the action fails. Most commands check all that
can go wrong before they change anything, and what they do behind their last check cannot fail. So such a command
either fails and has changed nothing, or it makes a single move. This is shown once for every command, and what is to be
known of failures, of moves and of limits follows from it.

## Contents
- `Progress.AllOrNothing`: an action that fails without a trace or makes one move.
- `OpenFile.Step`, `Session.Move`: what can happen to an open file, and to a session.
- `OpenFile.allOrNothing_write`, `Session.allOrNothing_andThen`: writes.
- `Session.allOrNothing_perform`: commands that change the session alone.
- `Command.worksInSteps`, `ScriptRun.frame_of_perform`: all commands.
-/

namespace BinaryPatching

open Text Thumb

/-! ## Actions -/

namespace Progress

variable {σ : Type} {move : σ → σ → Prop} {s : σ} {p q : Progress σ}

/-- **All or nothing**: an action fails and leaves the state as it was, or it succeeds and makes one move. It does not
fail as if a limit had stopped it. -/
inductive AllOrNothing (move : σ → σ → Prop) (s : σ) : Progress σ → Prop
  /-- Nothing is changed. -/
  | fails (e : ExecutionError) (hlimit : ∀ limit, e ≠ .stepLimit limit) : AllOrNothing move s (.error e, s)
  /-- One move is made. -/
  | succeeds {t : σ} (h : move s t) : AllOrNothing move s (.ok (), t)

theorem AllOrNothing.ne_stepLimit (h : p.AllOrNothing move s) (limit : Nat) : p.1 ≠ .error (.stepLimit limit) := by
  intro hp
  cases h with
  | fails e hlimit => exact hlimit limit (Except.error.inj hp)
  | succeeds _ => cases hp

/-- A choice between two actions. -/
theorem allOrNothing_ite {c : Prop} [Decidable c] (hp : p.AllOrNothing move s) (hq : q.AllOrNothing move s) :
    (if c then p else q).AllOrNothing move s := by
  split
  · exact hp
  · exact hq

end Progress

open Progress

/-! ## Moves -/

/-- What can happen to an open file. -/
inductive OpenFile.Step (f : OpenFile) : OpenFile → Prop
  /-- Bytes are written to it, or they do not fit. -/
  | write (offset : UInt32) (bytes : Bytes) : Step f (f.writeOffset offset bytes).2
  /-- An address gets a label. -/
  | label (labels : List (String × UInt32)) : Step f { f with labels }

/-- What can happen to a session, as far as the store, the destination and the open file go. -/
inductive Session.Move (s : Session) : Session → Prop
  /-- Nothing happens to these three. -/
  | quiet {t : Session} (store : t.store = s.store) (destination : t.destination = s.destination)
      (file : t.file = s.file) : Move s t
  /-- The open file changes. -/
  | change {t : Session} {f g : OpenFile} (hf : s.file = some f) (step : f.Step g) (store : t.store = s.store)
      (destination : t.destination = s.destination) (file : t.file = some g) : Move s t
  /-- The patches of the open file are filed. -/
  | record {f : OpenFile} {d : Destination} (hf : s.file = some f) (hd : s.destination = some d) :
      Move s { s with store := s.store.updateVersion d.name d.version f.fileIn }
  /-- The open file is closed. -/
  | close : Move s { s with file := none }
  /-- A destination is chosen while no file is open. -/
  | choose (d : Destination) (hf : s.file = none) :
      Move s { s with store := s.store.updateVersion d.name d.version id, destination := some d }
  /-- A file is opened while none is. -/
  | start {d : Destination} (hd : s.destination = some d) (hf : s.file = none) (name : String) (image : Image)
      (code : CodeMap) : Move s (s.begin d (OpenFile.start name (d.recordPath name) image code))

/-- Also a failed action on a session is one move. -/
theorem Progress.AllOrNothing.move {s : Session} {p : Progress Session} (h : p.AllOrNothing Session.Move s) :
    s.Move p.2 := by
  cases h with
  | fails _ _ => exact .quiet rfl rfl rfl
  | succeeds hmove => exact hmove

/-! ## Writes -/

namespace OpenFile

/-- **Bytes are written to an open file** all of them or not at all, and so they are logged. -/
theorem allOrNothing_writeOffset (f : OpenFile) (offset : UInt32) (bytes : Bytes) :
    (f.writeOffset offset bytes).AllOrNothing Step f := by
  have hstep : f.Step (f.writeOffset offset bytes).2 := .write offset bytes
  rcases f.writeOffset_cases offset bytes with ⟨_, _, hwrite⟩ | ⟨_, hwrite⟩
  · rw [hwrite] at hstep ⊢
    exact .succeeds hstep
  · rw [hwrite]
    exact .fails _ fun _ h => by cases h

theorem allOrNothing_write (f : OpenFile) (place : UInt32) (bytes : Bytes) :
    (f.write place bytes).AllOrNothing Step f := by
  unfold write
  split
  · exact .fails _ fun _ h => by cases h
  · exact f.allOrNothing_writeOffset _ bytes

end OpenFile

/-! ## Commands that change the session alone -/

namespace Session

section

variable {s : Session} {f : OpenFile}

/-- Without an open file nothing happens. -/
theorem allOrNothing_withFile {act : OpenFile → Progress Session}
    (h : ∀ f, s.file = some f → (act f).AllOrNothing Move s) : (s.withFile act).AllOrNothing Move s := by
  unfold withFile
  cases hf : s.file with
  | none => exact .fails _ fun _ h => by cases h
  | some f => exact h f hf

/-- **A change of the open file** is the last thing in its command that can fail. What is done behind it leaves the
store, the destination and the file alone. -/
theorem allOrNothing_andThen (hf : s.file = some f) {p : Progress OpenFile} (hp : p.AllOrNothing OpenFile.Step f)
    {next : Session → Session}
    (hnext : ∀ t, (next t).store = t.store ∧ (next t).destination = t.destination ∧ (next t).file = t.file) :
    ((p.within s.putFile).andThen fun t => (.ok (), next t)).AllOrNothing Move s := by
  cases hp with
  | fails e hlimit =>
    have hput : s.putFile f = s := by rw [putFile, ← hf]
    show Progress.AllOrNothing Move s (.error e, s.putFile f)
    rw [hput]
    exact .fails e hlimit
  | @succeeds g hstep =>
    obtain ⟨hstore, hdestination, hfile⟩ := hnext (s.putFile g)
    exact .succeeds (.change hf hstep hstore hdestination hfile)

theorem allOrNothing_patchData (hf : s.file = some f) (bytes : Bytes) (what : String) :
    (s.patchData f bytes what).AllOrNothing Move s :=
  allOrNothing_andThen hf (f.allOrNothing_write s.cursor bytes) fun _ => ⟨rfl, rfl, rfl⟩

theorem allOrNothing_patchCode (hf : s.file = some f) (codeType : CodeType) (bytes : Bytes) :
    (s.patchCode f codeType bytes).AllOrNothing Move s :=
  allOrNothing_andThen hf (f.allOrNothing_write s.cursor bytes) fun _ => ⟨rfl, rfl, rfl⟩

theorem replacement_ne_stepLimit {i : Instruction} {mnemonic : String} {e : ExecutionError}
    (h : replacement i mnemonic = .error e) (limit : Nat) : e ≠ .stepLimit limit := by
  rintro rfl
  unfold replacement at h
  split at h
  · split at h
    · cases h
    · split at h <;> cases h
  · split at h <;> cases h

/-- The replacement of a jump is known before anything is written. -/
theorem allOrNothing_makeUnconditional (hf : s.file = some f) (mnemonic : String) :
    (s.makeUnconditional f mnemonic).AllOrNothing Move s := by
  unfold makeUnconditional
  split
  · exact .fails _ fun _ h => by cases h
  · split
    · split
      · rename_i e hreplacement
        exact .fails e (replacement_ne_stepLimit hreplacement)
      · exact allOrNothing_andThen hf (f.allOrNothing_write s.cursor _) fun _ => ⟨rfl, rfl, rfl⟩
    · exact .fails _ fun _ h => by cases h

theorem allOrNothing_patchChecksum (hf : s.file = some f) : (s.patchChecksum f).AllOrNothing Move s := by
  unfold patchChecksum
  split
  · exact .fails _ fun _ h => by cases h
  · exact allOrNothing_andThen hf (f.allOrNothing_writeOffset _ _) fun _ => ⟨rfl, rfl, rfl⟩

end

/-! ### Searches and jumps -/

section

variable (script : Script) (s : Session)

theorem move_self : s.Move s := .quiet rfl rfl rfl

theorem move_settle (hit : Option UInt32) (what : String) : s.Move (s.settle hit what) := by
  cases hit <;> exact .quiet rfl rfl rfl

theorem move_jumpToSymbol (symbol : Option Symbol) (what : String) : s.Move (s.jumpToSymbol symbol what) := by
  cases symbol <;> exact .quiet rfl rfl rfl

theorem move_findCall (f : OpenFile) (scope : Scope) (target : Target) (constraints : Constraints) :
    s.Move (s.findCall f scope target constraints) := by
  unfold findCall
  split
  · exact s.move_settle _ _
  · exact s.move_settle _ _

theorem move_jumpToReference (f : OpenFile) (target : Target) (constraints : Constraints) :
    s.Move (s.jumpToReference f target constraints) := by
  unfold jumpToReference
  simp only
  split
  · exact s.move_settle _ _
  · exact .quiet rfl rfl rfl

theorem allOrNothing_findInstructions (f : OpenFile) (scope : Scope) (pattern : InstructionPattern) (distance : Int) :
    (s.findInstructions f scope pattern distance).AllOrNothing Move s := by
  unfold findInstructions
  simp only
  split
  · exact .succeeds (s.move_settle none _)
  · split
    · exact .fails _ fun _ h => by cases h
    · exact .succeeds (s.move_settle (some _) _)

theorem allOrNothing_goTo (label : String) : (s.goTo script label).AllOrNothing Move s := by
  unfold goTo
  split
  · exact .succeeds (.quiet rfl rfl rfl)
  · exact .fails _ fun _ h => by cases h

theorem allOrNothing_jumpToTarget : (s.perform script .jumpToTarget).AllOrNothing Move s := by
  refine allOrNothing_withFile fun f _ => ?_
  split
  · exact .fails _ fun _ h => by cases h
  · split
    · exact .fails _ fun _ h => by cases h
    · exact .succeeds (.quiet rfl rfl rfl)

theorem allOrNothing_jumpToAddress (place : UInt32) :
    (s.perform script (.jumpToAddress place)).AllOrNothing Move s := by
  refine allOrNothing_withFile fun f _ => ?_
  split
  · exact .succeeds (.quiet rfl rfl rfl)
  · exact .fails _ fun _ h => by cases h

theorem allOrNothing_jumpToLabel (name : String) : (s.perform script (.jumpToLabel name)).AllOrNothing Move s := by
  refine allOrNothing_withFile fun f _ => ?_
  split
  · exact .succeeds (.quiet rfl rfl rfl)
  · exact .fails _ fun _ h => by cases h

theorem allOrNothing_jumpBack : (s.perform script .jumpBack).AllOrNothing Move s := by
  unfold perform
  simp only
  split
  · exact .fails _ fun _ h => by cases h
  · exact .succeeds (.quiet rfl rfl rfl)

theorem allOrNothing_createLabel (name : String) : (s.perform script (.createLabel name)).AllOrNothing Move s := by
  refine allOrNothing_withFile fun f hf => ?_
  split
  · exact .fails _ fun _ h => by cases h
  · exact .succeeds (.change hf (.label _) rfl rfl rfl)

/-- **A command that changes the session alone** changes nothing if it fails, and is one move if it succeeds. -/
theorem allOrNothing_perform (command : Command) : (s.perform script command).AllOrNothing Move s := by
  have hself : Progress.AllOrNothing Move s (.ok (), s) := .succeeds s.move_self
  have hraised (message : String) : Progress.AllOrNothing Move s (.error (.raised message), s) :=
    .fails _ fun _ h => by cases h
  cases command with
  | fileUnder _ | openFile _ | closeFile | writeDefinitions | patchCode _ _ => exact hself
  | report _ => exact .succeeds (.quiet rfl rfl rfl)
  | findBytes _ _ _ | findValue _ _ | findConditionalJump _ =>
    exact allOrNothing_withFile fun f _ => .succeeds (s.move_settle _ _)
  | findInstructions _ _ _ => exact allOrNothing_withFile fun f _ => s.allOrNothing_findInstructions f _ _ _
  | findCall _ _ _ => exact allOrNothing_withFile fun f _ => .succeeds (s.move_findCall f _ _ _)
  | jumpToReference _ _ => exact allOrNothing_withFile fun f _ => .succeeds (s.move_jumpToReference f _ _)
  | jumpToImport _ | jumpToExport _ => exact allOrNothing_withFile fun f _ => .succeeds (s.move_jumpToSymbol _ _)
  | jumpToTarget => exact allOrNothing_jumpToTarget script s
  | jumpToAddress place => exact allOrNothing_jumpToAddress script s place
  | jumpToLabel name => exact allOrNothing_jumpToLabel script s name
  | jumpBack => exact allOrNothing_jumpBack script s
  | createLabel name => exact allOrNothing_createLabel script s name
  | goTo label => exact allOrNothing_goTo script s label
  | goToIfFound label => exact allOrNothing_ite (allOrNothing_goTo script s label) hself
  | goToIfNotFound label => exact allOrNothing_ite hself (allOrNothing_goTo script s label)
  | failIfFound message => exact allOrNothing_ite (hraised message) hself
  | failIfNotFound message => exact allOrNothing_ite hself (hraised message)
  | makeUnconditional mnemonic => exact allOrNothing_withFile fun f hf => allOrNothing_makeUnconditional hf mnemonic
  | patchBytes _ | patchText _ | patchTextWide _ =>
    exact allOrNothing_withFile fun f hf => allOrNothing_patchData hf _ _
  | patchChecksum => exact allOrNothing_withFile fun f hf => allOrNothing_patchChecksum hf

end

end Session

/-! ## All commands -/

/-- **The commands that work in several steps.** What the earlier ones have done stays done when a later one fails. -/
def Command.worksInSteps : Command → Bool
  | .fileUnder _ | .openFile _ | .closeFile | .writeDefinitions => true
  | _ => false

namespace ScriptRun

variable {config : Config} {script : Script} {r t : ScriptRun} {e : ExecutionError}

/-- An action on the session that changes nothing if it fails does not change the run either. -/
theorem eq_of_update {p : Progress Session} (h : r.update p = (.error e, t))
    (hp : p.AllOrNothing Session.Move r.session) : t = r := by
  cases hp with
  | fails _ _ =>
    cases h
    rfl
  | succeeds _ => cases h

/-- Code that is not written has changed nothing, but the assembler may have been asked for it. -/
theorem frame_of_assemble {codeType : CodeType} {body : String} (h : r.assemble codeType body = (.error e, t)) :
    t.session = r.session ∧ t.files = r.files := by
  unfold assemble at h
  split at h
  · cases h
    exact ⟨rfl, rfl⟩
  · rename_i f hf
    dsimp only at h
    split at h
    · cases h
      exact ⟨rfl, rfl⟩
    · rw [eq_of_update h (Session.allOrNothing_patchCode hf codeType _)]
      exact ⟨rfl, rfl⟩

/-- **All or nothing**: a failed command has changed neither the session nor the file tree, unless it is one of those
that work in several steps. -/
theorem frame_of_perform {command : Command} (hsteps : command.worksInSteps = false)
    (h : r.perform config script command = (.error e, t)) : t.session = r.session ∧ t.files = r.files := by
  unfold perform at h
  split at h
  case h_5 => exact frame_of_assemble h
  case h_6 =>
    rw [eq_of_update h (r.session.allOrNothing_perform script _)]
    exact ⟨rfl, rfl⟩
  all_goals cases hsteps

end ScriptRun

end BinaryPatching
