import BinaryPatching.Proofs.Script.Atomicity
import BinaryPatching.Script.Report
import Mathlib.Logic.Relation

/-!
# `BinaryPatching.Proofs.Script.Moves` — what commands can do to a session

A command does a few things at most to the store, the destination and the open file of a session. `Session.Move` has
one case for each of them, and every command, failed or not, is a sequence of moves. What every move keeps therefore
holds after any number of commands, and no proof about whole scripts has to look at single commands again.

## Contents
- `Session.Moves`, `Session.Moves.keeps`: sequences of moves, and what holds after them.
- `ScriptRun.moves_closeFile`, `ScriptRun.closeFile_frame`: the open file closed.
- `ScriptRun.moves_perform`: all commands.
- `ScriptRun.moves_execute`, `ScriptRun.moves_finish`: whole scripts, and their ends.
-/

namespace BinaryPatching

open Relation Text Thumb

/-! ## Sequences of moves -/

/-- A sequence of moves. -/
abbrev Session.Moves : Session → Session → Prop := ReflTransGen Session.Move

/-- **What every move keeps** holds after a sequence of them. -/
theorem Session.Moves.keeps {P : Session → Prop} (hP : ∀ s t : Session, s.Move t → P s → P t) {s t : Session}
    (h : s.Moves t) (hs : P s) : P t := by
  induction h with
  | refl => exact hs
  | tail _ hmove ih => exact hP _ _ hmove ih

namespace ScriptRun

/-! ## Pieces of commands -/

/-- A further step adds its moves. -/
theorem moves_andThen {s : Session} {p : Progress ScriptRun} {next : ScriptRun → Progress ScriptRun}
    (hp : s.Moves p.2.session) (hnext : ∀ q, p = (.ok (), q) → q.session.Moves (next q).2.session) :
    s.Moves (p.andThen next).2.session := by
  obtain ⟨outcome, q⟩ := p
  cases outcome with
  | error e => exact hp
  | ok u => exact hp.trans (hnext q rfl)

theorem moves_fileRecord (s : Session) : s.Moves s.fileRecord.2 := by
  unfold Session.fileRecord
  split
  · exact .refl
  · rename_i f hf
    split
    · exact .refl
    · rename_i d hd
      exact .single (.record hf hd)

/-- Writing the patched copy says something at most. -/
theorem writeOutput_quiet (config : Config) (r : ScriptRun) (f : OpenFile) :
    (writeOutput config r f).2.session.store = r.session.store
      ∧ (writeOutput config r f).2.session.destination = r.session.destination
      ∧ (writeOutput config r f).2.session.file = r.session.file := by
  unfold writeOutput
  split
  · exact ⟨rfl, rfl, rfl⟩
  · split <;> exact ⟨rfl, rfl, rfl⟩

/-- **Closing a file** files its patches and then closes it. -/
theorem moves_closeFile (config : Config) (r : ScriptRun) :
    r.session.Moves (r.closeFile config).2.session := by
  have hfiled := moves_fileRecord r.session
  unfold closeFile
  split
  · rename_i hrecord
    rw [hrecord] at hfiled
    exact hfiled
  · rename_i n t hrecord
    rw [hrecord] at hfiled
    split
    · exact hfiled
    · rename_i f hf
      have hclosed : r.session.Moves { t with file := none } := hfiled.tail .close
      obtain ⟨hs, hd, hn⟩ := writeOutput_quiet config { r with session := { t with file := none } } f
      refine moves_andThen (hclosed.tail (.quiet hs hd hn)) fun q _ => ?_
      exact .single (.quiet rfl rfl rfl)

/-- Filing the patches of the open file leaves the destination and the file as they are. -/
theorem fileRecord_frame {s t : Session} {outcome : Except ExecutionError Nat} (h : s.fileRecord = (outcome, t)) :
    t.destination = s.destination ∧ t.file = s.file := by
  have hfile := s.file_fileRecord
  have hdestination : s.fileRecord.2.destination = s.destination := by
    unfold Session.fileRecord
    split
    · rfl
    · split <;> rfl
  rw [h] at hfile hdestination
  exact ⟨hdestination, hfile⟩

/-- **After the open file was closed**, none is open, and the destination is the same. -/
theorem closeFile_frame {config : Config} {r q : ScriptRun} (h : r.closeFile config = (.ok (), q)) :
    q.session.destination = r.session.destination ∧ q.session.file = none := by
  unfold closeFile at h
  split at h
  · cases h
  · rename_i n t hrecord
    obtain ⟨hdestination, hfile⟩ := fileRecord_frame hrecord
    split at h
    · rename_i hnone
      cases h
      exact ⟨hdestination, hnone⟩
    · rename_i f hf
      have hframe := (writeOutput_quiet config { r with session := { t with file := none } } f).2
      dsimp only at h
      unfold Progress.andThen at h
      split at h
      · cases h
      · rename_i p hp
        rw [hp] at hframe
        cases h
        exact ⟨hframe.1.trans hdestination, hframe.2⟩

/-- Without an open file there is nothing to close. -/
theorem closeFile_of_none (config : Config) {r : ScriptRun} (h : r.session.file = none) :
    r.closeFile config = (.ok (), r) := by
  unfold closeFile Session.fileRecord
  rw [h]
  dsimp only
  rw [h]

/-- **Opening an image** closes the file before. -/
theorem moves_openImage (config : Config) (r : ScriptRun) (name : String) (image : Image) :
    r.session.Moves (r.openImage config name image).2.session := by
  unfold openImage
  refine moves_andThen (moves_closeFile config r) fun q hq => ?_
  have hfile := (closeFile_frame hq).2
  simp only
  split
  · exact .refl
  · rename_i d hd
    split
    · exact .refl
    · exact .single (.start hd hfile name image _)

theorem moves_openFile (config : Config) (r : ScriptRun) (path : String) :
    r.session.Moves (r.openFile config path).2.session := by
  unfold openFile
  refine moves_andThen (moves_closeFile config r) fun q _ => ?_
  split
  · exact .refl
  · split
    · exact .refl
    · exact moves_openImage config q path _

theorem moves_fileUnder (config : Config) (r : ScriptRun) (d : Destination) :
    r.session.Moves (r.fileUnder config d).2.session := by
  unfold fileUnder
  refine moves_andThen (moves_closeFile config r) fun q hq => ?_
  have hchoose : q.session.Moves _ := .single (.choose d (closeFile_frame hq).2)
  exact hchoose.tail (.quiet rfl rfl rfl)

theorem moves_writeDefinitions (config : Config) (r : ScriptRun) :
    r.session.Moves (r.writeDefinitions config).2.session := by
  have hfiled := moves_fileRecord r.session
  unfold writeDefinitions
  split
  · rename_i hrecord
    rw [hrecord] at hfiled
    exact hfiled
  · rename_i n t hrecord
    rw [hrecord] at hfiled
    simp only
    split
    · exact hfiled
    · split
      · exact hfiled
      · exact hfiled.tail (.quiet rfl rfl rfl)

theorem moves_assemble (r : ScriptRun) (codeType : CodeType) (body : String) :
    r.session.Moves (r.assemble codeType body).2.session := by
  unfold assemble
  split
  · exact .refl
  · rename_i f hf
    simp only
    split
    · exact .refl
    · exact .single (Session.allOrNothing_patchCode hf codeType _).move

/-! ## Commands and scripts -/

/-- **Every command**, failed or not, is a sequence of moves. -/
theorem moves_perform (config : Config) (script : Script) (r : ScriptRun) (command : Command) :
    r.session.Moves (r.perform config script command).2.session := by
  unfold perform
  split
  · exact moves_fileUnder config r _
  · exact moves_openFile config r _
  · exact moves_closeFile config r
  · exact moves_writeDefinitions config r
  · exact moves_assemble r _ _
  · exact .single (r.session.allOrNothing_perform script _).move

theorem moves_executeFrom (config : Config) (script : Script) (limit remaining : Nat) (r : ScriptRun) :
    r.session.Moves (executeFrom config script limit remaining r).2.session := by
  induction remaining generalizing r with
  | zero =>
    unfold executeFrom
    split
    · exact .refl
    · exact .single (.quiet rfl rfl rfl)
  | succ remaining ih =>
    unfold executeFrom
    split
    · exact .refl
    · rename_i line _
      have hnext : r.session.Moves { r.session with position := r.session.position + 1 } :=
        .single (.quiet rfl rfl rfl)
      have hcommand := hnext.trans (moves_perform config script
        { r with session := { r.session with position := r.session.position + 1 } } line.command)
      simp only
      split
      · rename_i hp
        rw [hp] at hcommand
        exact hcommand
      · rename_i hp
        rw [hp] at hcommand
        exact hcommand.trans (ih _)

/-- **A script**, up to any number of commands, is a sequence of moves. -/
theorem moves_execute (config : Config) (script : Script) (limit : Nat) (r : ScriptRun) :
    r.session.Moves (r.execute config script limit).2.session := by
  have hstart : r.session.Move { r.session with position := 0 } := .quiet rfl rfl rfl
  exact ReflTransGen.head hstart
    (moves_executeFrom config script limit limit { r with session := { r.session with position := 0 } })

/-- So is the end of a script. -/
theorem moves_finish (config : Config) (script : Script) (r : ScriptRun) :
    r.session.Moves (r.finish config script).2.session := by
  have hclose := moves_closeFile config r
  unfold finish
  split
  · rename_i hp
    rw [hp] at hclose
    exact hclose
  · rename_i hp
    rw [hp] at hclose
    unfold saveStore
    split
    · exact hclose
    · split <;> exact hclose

end ScriptRun

end BinaryPatching
