import BinaryPatching.Proofs.Script.Persistence

/-!
# `BinaryPatching.Proofs.Script.StepLimits` — how long a script runs

A script can send itself back to where it was, so that only its limit makes sure that it stops. The limit has no other
say in a run: it either comes to the end that it would come to without one, or it is stopped on its way there, with as
many commands behind it as the limit allows and a further one due. So a limit that was high enough might as well have
been higher.

## Contents
- `ScriptRun.Ends`: the end of a run that nothing limits, and the number of commands on the way there.
- `ScriptRun.Ends.executeFrom_eq`, `ScriptRun.executeFrom_cases`: limited runs against unlimited ones.
- `ScriptRun.perform_ne_stepLimit`: no command fails as if it were the limit.
- `ScriptRun.execute_bounded`: whole scripts, with a loop that ends just within its limit.
-/

namespace BinaryPatching

open Text Thumb

/-- The outcome of a run that was stopped by a limit. -/
def StoppedByLimit (outcome : Except ScriptError Unit) : Prop :=
  ∃ number text limit, outcome = .error (.execution number text (.stepLimit limit))

/-! ## The limit is reported by nothing else -/

/-- A further step that does not fail as if it were the limit. -/
theorem Progress.andThen_ne_stepLimit {σ : Type} {p : Progress σ} {next : σ → Progress σ} {limit : Nat}
    (hp : p.1 ≠ .error (.stepLimit limit)) (hnext : ∀ s, (next s).1 ≠ .error (.stepLimit limit)) :
    (p.andThen next).1 ≠ .error (.stepLimit limit) := by
  unfold andThen
  split
  · exact hp
  · exact hnext _

theorem Session.fileRecord_ne_stepLimit {s : Session} {limit : Nat} : s.fileRecord.1 ≠ .error (.stepLimit limit) := by
  unfold fileRecord
  split
  · exact fun h => by cases h
  · split <;> exact fun h => by cases h

namespace ScriptRun

variable {config : Config} {script : Script} {limit : Nat} {r s : ScriptRun}

theorem closeFile_ne_stepLimit : (r.closeFile config).1 ≠ .error (.stepLimit limit) := by
  unfold closeFile
  split
  · rename_i e session hrecord
    intro he
    cases he
    exact Session.fileRecord_ne_stepLimit (congrArg Prod.fst hrecord)
  · split
    · exact fun h => by cases h
    · refine Progress.andThen_ne_stepLimit ?_ fun _ h => by cases h
      unfold writeOutput
      split
      · exact fun h => by cases h
      · split <;> exact fun h => by cases h

theorem openImage_ne_stepLimit {name : String} {image : Image} :
    (r.openImage config name image).1 ≠ .error (.stepLimit limit) := by
  refine Progress.andThen_ne_stepLimit closeFile_ne_stepLimit fun q => ?_
  split
  · exact fun h => by cases h
  · dsimp only
    split <;> exact fun h => by cases h

theorem openFile_ne_stepLimit {path : String} : (r.openFile config path).1 ≠ .error (.stepLimit limit) := by
  refine Progress.andThen_ne_stepLimit closeFile_ne_stepLimit fun q => ?_
  split
  · exact fun h => by cases h
  · split
    · exact fun h => by cases h
    · exact openImage_ne_stepLimit

theorem writeDefinitions_ne_stepLimit : (r.writeDefinitions config).1 ≠ .error (.stepLimit limit) := by
  unfold writeDefinitions
  split
  · rename_i e session hrecord
    intro he
    cases he
    exact Session.fileRecord_ne_stepLimit (congrArg Prod.fst hrecord)
  · dsimp only
    split
    · exact fun h => by cases h
    · split <;> exact fun h => by cases h

theorem assemble_ne_stepLimit {codeType : CodeType} {body : String} :
    (r.assemble codeType body).1 ≠ .error (.stepLimit limit) := by
  unfold assemble
  split
  · exact fun h => by cases h
  · rename_i f hf
    dsimp only
    split
    · exact fun h => by cases h
    · exact (Session.allOrNothing_patchCode hf codeType _).ne_stepLimit limit

/-- **No command fails as if it were the limit.** -/
theorem perform_ne_stepLimit (config : Config) (script : Script) (r : ScriptRun) (command : Command) (limit : Nat) :
    (r.perform config script command).1 ≠ .error (.stepLimit limit) := by
  unfold perform
  split
  · exact Progress.andThen_ne_stepLimit closeFile_ne_stepLimit fun _ h => by cases h
  · exact openFile_ne_stepLimit
  · exact closeFile_ne_stepLimit
  · exact writeDefinitions_ne_stepLimit
  · exact assemble_ne_stepLimit
  · exact (r.session.allOrNothing_perform script _).ne_stepLimit limit

/-! ## Limited and unlimited runs -/

/-- The run sent to the first command. -/
def restart (r : ScriptRun) : ScriptRun := { r with session := { r.session with position := 0 } }

/-- **The end of a run that nothing limits**, and the number of commands on the way there. All of them succeed, but for
the last one if the run fails. -/
inductive Ends (config : Config) (script : Script) : Nat → ScriptRun → Except ScriptError Unit × ScriptRun → Prop
  /-- No further command is there. -/
  | finished {r : ScriptRun} (hline : script.lines[r.session.position]? = none) : Ends config script 0 r (.ok (), r)
  /-- A command fails. -/
  | failed {r s : ScriptRun} {line : ScriptLine} {e : ExecutionError}
      (hline : script.lines[r.session.position]? = some line)
      (hfails : r.advance.perform config script line.command = (.error e, s)) :
      Ends config script 1 r (.error (.execution line.number line.text e), s)
  /-- A command succeeds, and the run goes on. -/
  | next {count : Nat} {r s : ScriptRun} {line : ScriptLine} {out : Except ScriptError Unit × ScriptRun}
      (hline : script.lines[r.session.position]? = some line)
      (hsucceeds : r.advance.perform config script line.command = (.ok (), s))
      (hrest : Ends config script count s out) : Ends config script (count + 1) r out

/-- **A run that is stopped** after a number of commands, all of which succeeded: a further one is due. -/
def StopsAfter (config : Config) (script : Script) (count : Nat) (r : ScriptRun)
    (out : Except ScriptError Unit × ScriptRun) : Prop :=
  ∃ s line, after? config script count r = some s ∧ script.lines[s.session.position]? = some line ∧
    out = (.error (.execution line.number line.text (.stepLimit count)), s.advance)

variable {line : ScriptLine} {remaining : Nat} {out : Except ScriptError Unit × ScriptRun}

theorem executeFrom_finished (hline : script.lines[r.session.position]? = none) (limit remaining : Nat) :
    executeFrom config script limit remaining r = (.ok (), r) := by
  unfold executeFrom
  rw [hline]

theorem executeFrom_zero (hline : script.lines[r.session.position]? = some line) (limit : Nat) :
    executeFrom config script limit 0 r
      = (.error (.execution line.number line.text (.stepLimit limit)), r.advance) := by
  unfold executeFrom
  rw [hline]
  rfl

theorem executeFrom_failed {e : ExecutionError} (hline : script.lines[r.session.position]? = some line)
    (hfails : r.advance.perform config script line.command = (.error e, s)) (limit remaining : Nat) :
    executeFrom config script limit (remaining + 1) r = (.error (.execution line.number line.text e), s) := by
  unfold advance at hfails
  unfold executeFrom
  rw [hline]
  dsimp only
  rw [hfails]

theorem executeFrom_next (hline : script.lines[r.session.position]? = some line)
    (hsucceeds : r.advance.perform config script line.command = (.ok (), s)) (limit remaining : Nat) :
    executeFrom config script limit (remaining + 1) r = executeFrom config script limit remaining s := by
  unfold advance at hsucceeds
  rw [executeFrom]
  rw [hline]
  dsimp only
  rw [hsucceeds]

theorem after?_next (hline : script.lines[r.session.position]? = some line)
    (hsucceeds : r.advance.perform config script line.command = (.ok (), s)) (count : Nat) :
    after? config script (count + 1) r = after? config script count s := by
  have hnext : next? config script r = some s := by
    unfold next?
    rw [hline]
    dsimp only
    rw [hsucceeds]
  rw [after?, hnext, Option.bind_some]

/-- **A run that ends** does so within every limit that leaves enough commands. -/
theorem Ends.executeFrom_eq {count : Nat} (h : Ends config script count r out) (hcount : count ≤ remaining) :
    executeFrom config script limit remaining r = out := by
  induction h generalizing remaining with
  | finished hline => exact executeFrom_finished hline limit remaining
  | failed hline hfails =>
    obtain ⟨more, rfl⟩ := Nat.exists_eq_add_of_le' hcount
    exact executeFrom_failed hline hfails limit more
  | next hline hsucceeds _ ih =>
    obtain ⟨more, rfl⟩ : ∃ more, remaining = more + 1 := ⟨remaining - 1, by omega⟩
    rw [executeFrom_next hline hsucceeds]
    exact ih (by omega)

/-- **A run within a limit** goes on to its end or until no command is left. -/
theorem executeFrom_cases (config : Config) (script : Script) (limit remaining : Nat) (r : ScriptRun) :
    (∃ count ≤ remaining, Ends config script count r (executeFrom config script limit remaining r)) ∨
    ∃ s line, after? config script remaining r = some s ∧ script.lines[s.session.position]? = some line ∧
      executeFrom config script limit remaining r
        = (.error (.execution line.number line.text (.stepLimit limit)), s.advance) := by
  induction remaining generalizing r with
  | zero =>
    cases hline : script.lines[r.session.position]? with
    | none =>
      rw [executeFrom_finished hline]
      exact .inl ⟨0, Nat.le_refl 0, .finished hline⟩
    | some line => exact .inr ⟨r, line, rfl, hline, executeFrom_zero hline limit⟩
  | succ remaining ih =>
    cases hline : script.lines[r.session.position]? with
    | none =>
      rw [executeFrom_finished hline]
      exact .inl ⟨0, Nat.zero_le _, .finished hline⟩
    | some line =>
      rcases hperform : r.advance.perform config script line.command with ⟨_ | _, s⟩
      · rw [executeFrom_failed hline hperform]
        exact .inl ⟨1, Nat.le_add_left 1 remaining, .failed hline hperform⟩
      · rw [executeFrom_next hline hperform, after?_next hline hperform]
        exact (ih s).imp_left fun ⟨count, hcount, hends⟩ =>
          ⟨count + 1, Nat.add_le_add_right hcount 1, .next hline hperform hends⟩

/-- **A run that goes on** after as many commands as its limit allows is stopped. -/
theorem executeFrom_of_after? (hafter : after? config script remaining r = some s)
    (hline : script.lines[s.session.position]? = some line) :
    executeFrom config script limit remaining r
      = (.error (.execution line.number line.text (.stepLimit limit)), s.advance) := by
  induction remaining generalizing r with
  | zero =>
    cases hafter
    exact executeFrom_zero hline limit
  | succ remaining ih =>
    rw [after?] at hafter
    obtain ⟨q, hnext, hrest⟩ := Option.bind_eq_some_iff.1 hafter
    unfold next? at hnext
    split at hnext
    · cases hnext
    · rename_i first hfirst
      split at hnext
      · cases hnext
      · rename_i hperform
        cases hnext
        rw [executeFrom_next hfirst hperform]
        exact ih hrest

/-- The end of a run is none that a limit makes. -/
theorem Ends.not_stoppedByLimit {count : Nat} (h : Ends config script count r out) : ¬StoppedByLimit out.1 := by
  induction h with
  | finished hline =>
    rintro ⟨_, _, _, hok⟩
    cases hok
  | @failed r s line e hline hfails =>
    rintro ⟨_, _, limit, herror⟩
    cases herror
    exact perform_ne_stepLimit config script r.advance line.command limit (by rw [hfails])
  | next _ _ _ ih => exact ih

/-! ## Scripts -/

theorem execute_eq (config : Config) (script : Script) (limit : Nat) (r : ScriptRun) :
    r.execute config script limit = executeFrom config script limit limit r.restart := rfl

/-- **A script runs no longer than its limit**, whatever loops are in it. If it is not stopped by the limit, the run has
come to the end that it comes to without one, after as many commands at most, and a higher limit changes nothing: not
the outcome, and nothing of the session, of the file tree and of the assembler. Otherwise just as many commands as the
limit says have succeeded, and a further one was due. -/
theorem execute_bounded (config : Config) (script : Script) (limit : Nat) (r : ScriptRun) :
    (¬StoppedByLimit (r.execute config script limit).1 ∧
      ∃ count ≤ limit, Ends config script count r.restart (r.execute config script limit) ∧
        ∀ more, limit ≤ more → r.execute config script more = r.execute config script limit) ∨
    (StoppedByLimit (r.execute config script limit).1 ∧
      StopsAfter config script limit r.restart (r.execute config script limit)) := by
  rcases executeFrom_cases config script limit limit r.restart with ⟨count, hcount, hends⟩ | ⟨s, line, hafter, hline, hout⟩
  · refine .inl ⟨hends.not_stoppedByLimit, count, hcount, hends, fun more hmore => ?_⟩
    exact hends.executeFrom_eq (Nat.le_trans hcount hmore)
  · refine .inr ⟨?_, s, line, hafter, hline, hout⟩
    rw [execute_eq, hout]
    exact ⟨_, _, _, rfl⟩

/-- A script that searches a file from hit to hit. -/
def searchingLoop : Script :=
  ⟨[⟨1, none, "PatchDefinition \"D\", \"1\"", .fileUnder ⟨"D", "1", "", ""⟩⟩,
    ⟨2, none, "PatchFile \"a\"", .openFile "a"⟩,
    ⟨4, some "Again", "FindNextAscii \"PE\"", .findBytes .next (.ofText "PE") "\"PE\""⟩,
    ⟨5, none, "IfFoundGo Again", .goToIfFound "Again"⟩], [("Again", 2)]⟩

/-- With one hit there it takes six commands, and a limit of five stops it before the last. -/
theorem execute_bounded_searchingLoop :
    (tinyRun.execute .standard searchingLoop 5).1
        = .error (.execution 5 "IfFoundGo Again" (.stepLimit 5)) ∧
      (tinyRun.execute .standard searchingLoop 6).1 = .ok () ∧
      (∃ count ≤ 6, Ends .standard searchingLoop count tinyRun.restart (tinyRun.execute .standard searchingLoop 6)) ∧
      ∀ more, 6 ≤ more → tinyRun.execute .standard searchingLoop more = tinyRun.execute .standard searchingLoop 6 := by
  have hstopped : (tinyRun.execute .standard searchingLoop 5).1
      = .error (.execution 5 "IfFoundGo Again" (.stepLimit 5)) := by decide +kernel
  have hends : (tinyRun.execute .standard searchingLoop 6).1 = .ok () := by decide +kernel
  rcases execute_bounded .standard searchingLoop 6 tinyRun with ⟨_, count, hcount, hend, hmore⟩ | ⟨⟨_, _, _, herror⟩, _⟩
  · exact ⟨hstopped, hends, ⟨count, hcount, hend⟩, hmore⟩
  · rw [hends] at herror
    cases herror

end ScriptRun

end BinaryPatching
