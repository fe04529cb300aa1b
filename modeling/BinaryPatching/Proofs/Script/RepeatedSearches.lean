import BinaryPatching.Proofs.Script.CodeSearches
import BinaryPatching.Proofs.Script.StepLimits

/-!
# `BinaryPatching.Proofs.Script.RepeatedSearches` — searches for instructions that are repeated

A script goes from hit to hit by repeating a search until nothing is found any more. The search starts at the cursor,
but the cursor goes to an instruction of the hit that need not be its first one. Forwards it leaves the start of the hit
behind in any case. Backwards it can stay behind the start, and then the next search finds the same hit again.

## Contents
- `CodeMap.MatchedAt`, `CodeMap.nearestMatch?`, `CodeMap.landing?`: where a pattern matches and where a search for it
  lands.
- `CodeMap.lt_landing_iff`, `CodeMap.landing_lt_iff`: which searches come closer to the end of the code.
- `Script.SearchesAt`, `ScriptRun.Leaves`: loops that repeat a search, and the way out of them.
- `ScriptRun.repeated_searches`: which searches make progress, and which loops are left.
-/

namespace BinaryPatching

open Text Thumb

/-! ## Matches -/

theorem InstructionPattern.length_le_of_matchesParts {parts : List (List Token)} {run : List Instruction}
    (h : matchesParts parts run = true) : parts.length ≤ run.length := by
  induction parts generalizing run with
  | nil => exact Nat.zero_le _
  | cons part parts ih =>
    cases run with
    | nil => cases h
    | cons i rest =>
      obtain ⟨_, hrest⟩ := Bool.and_eq_true_iff.1 h
      exact Nat.succ_le_succ (ih hrest)

namespace CodeMap

variable {code : CodeMap} {cursor a : UInt32} {scope : Scope} {pattern : InstructionPattern} {distance p : Nat}

/-- **Where a pattern matches**: the address of the first of the instructions. -/
def MatchedAt (code : CodeMap) (pattern : InstructionPattern) (a : UInt32) : Prop :=
  code.ServesAt (fun p => pattern.matchesRun (code.instructions.drop p)) a

/-- The first position of a scope at which a pattern matches. -/
def nearestMatch? (code : CodeMap) (cursor : UInt32) (scope : Scope) (pattern : InstructionPattern) : Option Nat :=
  (positions code cursor scope).find? fun p => pattern.matchesRun (code.instructions.drop p)

/-- **Where a search lands**: the address of the instruction at a distance from the nearest match. -/
def landing? (code : CodeMap) (cursor : UInt32) (scope : Scope) (pattern : InstructionPattern) (distance : Nat) :
    Option UInt32 :=
  ((code.nearestMatch? cursor scope pattern).bind fun p => code.at? (p + distance)).map (·.address)

theorem matchesRun_of_nearestMatch? (h : code.nearestMatch? cursor scope pattern = some p) :
    p ∈ positions code cursor scope ∧ pattern.matchesRun (code.instructions.drop p) = true :=
  ⟨List.mem_of_find?_eq_some h, List.find?_some (p := fun p => pattern.matchesRun (code.instructions.drop p)) h⟩

/-- A match does not reach beyond the code. -/
theorem lt_size_of_matchesRun (hdistance : distance < pattern.size)
    (h : pattern.matchesRun (code.instructions.drop p) = true) : p + distance < code.size := by
  have hle := InstructionPattern.length_le_of_matchesParts h
  rw [List.length_drop] at hle
  unfold InstructionPattern.size at hdistance
  unfold size
  omega

/-- **What a search lands on**: an instruction of a match that starts at a position of the scope. -/
theorem exists_of_landing? (h : code.landing? cursor scope pattern distance = some a) :
    ∃ p i j, code.nearestMatch? cursor scope pattern = some p ∧ p ∈ positions code cursor scope ∧
      code.at? p = some i ∧ code.MatchedAt pattern i.address ∧ code.at? (p + distance) = some j ∧ j.address = a := by
  unfold landing? at h
  obtain ⟨j, hbind, ha⟩ := Option.map_eq_some_iff.1 h
  obtain ⟨p, hnearest, hj⟩ := Option.bind_eq_some_iff.1 hbind
  obtain ⟨hmem, hmatches⟩ := matchesRun_of_nearestMatch? hnearest
  obtain ⟨i, hi⟩ := exists_at? (lt_size_of_mem_positions hmem)
  exact ⟨p, i, j, hnearest, hmem, hi, ⟨p, i, hi, rfl, hmatches⟩, hj, ha⟩

/-- A search lands somewhere as soon as the pattern matches at a position of the scope. -/
theorem exists_landing? (hdistance : distance < pattern.size) (hmem : p ∈ positions code cursor scope)
    (hmatches : pattern.matchesRun (code.instructions.drop p) = true) :
    ∃ a, code.landing? cursor scope pattern distance = some a := by
  obtain ⟨q, hnearest⟩ : ∃ q, code.nearestMatch? cursor scope pattern = some q :=
    Option.isSome_iff_exists.1 (List.find?_isSome.2 ⟨p, hmem, hmatches⟩)
  obtain ⟨j, hj⟩ := exists_at? (lt_size_of_matchesRun hdistance (matchesRun_of_nearestMatch? hnearest).2)
  refine ⟨j.address, ?_⟩
  rw [landing?, hnearest, Option.bind_some, hj, Option.map_some]

/-- The instructions of a match are at addresses from its start on. -/
theorem address_le_of_le {i j : Instruction} {q : Nat} (hi : code.at? p = some i) (hj : code.at? q = some j)
    (h : p ≤ q) : i.address ≤ j.address := by
  rcases Nat.eq_or_lt_of_le h with rfl | hlt
  · obtain rfl : i = j := Option.some.inj (hi.symm.trans hj)
    exact UInt32.le_refl _
  · exact UInt32.le_of_lt (address_lt_of_lt hi hj hlt)

/-! ## Forwards -/

theorem le_lastAddress (a : UInt32) : a ≤ 0xFFFFFFFF := by
  have hlt := a.toNat_lt
  have hlast : (0xFFFFFFFF : UInt32).toNat = 0xFFFFFFFF := rfl
  rw [UInt32.le_iff_toNat_le, hlast]
  omega

/-- **A search forwards** goes behind the cursor, unless that is at the last address. -/
theorem lt_landing_iff (h : code.landing? cursor .next pattern distance = some a) :
    cursor < a ↔ cursor ≠ 0xFFFFFFFF := by
  obtain ⟨p, i, j, _, hmem, hi, _, hj, rfl⟩ := exists_of_landing? h
  have hle := address_le_of_le hi hj (Nat.le_add_right p distance)
  have hlast := le_lastAddress j.address
  constructor
  · rintro hlt rfl
    exact UInt32.not_lt.2 hlast hlt
  · intro hcursor
    rcases (mem_positions_next_iff hi).1 hmem with hlt | hlastAddress
    · exact UInt32.lt_of_lt_of_le hlt hle
    · rw [hlastAddress] at hle
      rw [UInt32.le_antisymm hlast hle]
      exact UInt32.lt_of_le_of_ne (le_lastAddress cursor) hcursor

/-- Where nothing matches at the last address, a search forwards always goes behind the cursor. -/
theorem lt_landing_of_not_matchedAt (hlast : ¬code.MatchedAt pattern 0xFFFFFFFF)
    (h : code.landing? cursor .next pattern distance = some a) : cursor < a := by
  rw [lt_landing_iff h]
  rintro rfl
  obtain ⟨p, i, _, _, hmem, hi, hmatched, _, _⟩ := exists_of_landing? h
  rcases (mem_positions_next_iff hi).1 hmem with hlt | hlastAddress
  · exact UInt32.not_lt.2 (le_lastAddress i.address) hlt
  · rw [hlastAddress] at hmatched
    exact hlast hmatched

/-- What matches at the last address is found from everywhere. -/
theorem exists_landing?_of_matchedAt_last (hdistance : distance < pattern.size)
    (h : code.MatchedAt pattern 0xFFFFFFFF) (cursor : UInt32) :
    ∃ a, code.landing? cursor .next pattern distance = some a := by
  obtain ⟨p, i, hi, hlast, hmatches⟩ := h
  exact exists_landing? hdistance ((mem_positions_next_iff hi).2 (.inr hlast)) hmatches

/-- At even addresses the last one is none that anything matches at. -/
theorem IsEven.not_matchedAt_last (heven : code.IsEven) (pattern : InstructionPattern) :
    ¬code.MatchedAt pattern 0xFFFFFFFF := by
  rintro ⟨p, i, hi, hlast, _⟩
  exact heven.address_ne_last hi hlast

/-! ## Backwards -/

/-- **A search backwards** goes before the cursor if the instruction that it lands on is one of those before it. -/
theorem landing_lt_iff (h : code.landing? cursor .previous pattern distance = some a) :
    ∃ p, code.nearestMatch? cursor .previous pattern = some p ∧
      (a < cursor ↔ p + distance < code.positionAtOrAfter cursor) := by
  obtain ⟨p, _, j, hnearest, _, _, _, hj, rfl⟩ := exists_of_landing? h
  refine ⟨p, hnearest, ?_⟩
  rw [← UInt32.not_le, ← positionAtOrAfter_le_iff hj, Nat.not_le]

/-- A search backwards for the first instruction of a match goes before the cursor. -/
theorem landing_lt (h : code.landing? cursor .previous pattern 0 = some a) : a < cursor := by
  obtain ⟨p, i, j, _, hmem, hi, _, hj, rfl⟩ := exists_of_landing? h
  obtain rfl : i = j := Option.some.inj (hi.symm.trans hj)
  exact (mem_positions_previous_iff hi).1 hmem

theorem exists_landing?_previous_iff (hdistance : distance < pattern.size) :
    (∃ a, code.landing? cursor .previous pattern distance = some a) ↔
      ∃ a, code.MatchedAt pattern a ∧ a < cursor := by
  constructor
  · rintro ⟨_, h⟩
    obtain ⟨p, i, _, _, hmem, hi, hmatched, _, _⟩ := exists_of_landing? h
    exact ⟨i.address, hmatched, (mem_positions_previous_iff hi).1 hmem⟩
  · rintro ⟨_, ⟨p, i, hi, rfl, hmatches⟩, hlt⟩
    exact exists_landing? hdistance ((mem_positions_previous_iff hi).2 hlt) hmatches

/-- **A search backwards for a later instruction of a match** leaves the start of the match before the cursor. -/
theorem exists_matchedAt_lt_landing (hdistance : distance < pattern.size) (hpositive : 0 < distance)
    (hbefore : ∃ b, code.MatchedAt pattern b ∧ b < cursor) :
    ∃ a, code.landing? cursor .previous pattern distance = some a ∧ ∃ b, code.MatchedAt pattern b ∧ b < a := by
  obtain ⟨_, hlands⟩ := (exists_landing?_previous_iff hdistance).2 hbefore
  obtain ⟨p, i, j, _, _, hi, hmatched, hj, rfl⟩ := exists_of_landing? hlands
  exact ⟨_, hlands, i.address, hmatched, address_lt_of_lt hi hj (Nat.lt_add_of_pos_right hpositive)⟩

end CodeMap

/-! ## Loops -/

/-- **A loop that repeats a search**: a command that searches, and behind it one that goes back to it if something was
found. -/
structure Script.SearchesAt (script : Script) (start : Nat) (label : String) (scope : Scope)
    (pattern : InstructionPattern) (distance : Nat) : Prop where
  /-- The command that searches. -/
  search : ∃ line, script.lines[start]? = some line ∧ line.command = .findInstructions scope pattern distance
  /-- The command that goes back. -/
  again : ∃ line, script.lines[start + 1]? = some line ∧ line.command = .goToIfFound label
  /-- Where it goes. -/
  target : script.labelPosition? label = some start

namespace Session

variable {scope : Scope} {pattern : InstructionPattern} {distance : Nat}

/-- The state after a search for instructions that reached the code where a match does. -/
def searched (s : Session) (f : OpenFile) (scope : Scope) (pattern : InstructionPattern) (distance : Nat) : Session :=
  s.settle (f.code.landing? s.cursor scope pattern distance) ("pattern \"" ++ pattern.source ++ "\"")

/-- **A search for an instruction of a match** succeeds, whether there is a match or not. -/
theorem findInstructions_of_lt (hdistance : distance < pattern.size) (s : Session) (f : OpenFile) (scope : Scope) :
    s.findInstructions f scope pattern distance = (.ok (), s.searched f scope pattern distance) := by
  have hnearest : (positions f.code s.cursor scope).find? (fun p => pattern.matchesRun (f.code.instructions.drop p))
      = f.code.nearestMatch? s.cursor scope pattern := rfl
  unfold findInstructions searched CodeMap.landing?
  dsimp only
  rw [hnearest]
  cases hhit : f.code.nearestMatch? s.cursor scope pattern with
  | none => rfl
  | some hit =>
    have hmatches := (CodeMap.matchesRun_of_nearestMatch? hhit).2
    obtain ⟨j, hj⟩ := CodeMap.exists_at? (CodeMap.lt_size_of_matchesRun hdistance hmatches)
    have hposition : ((hit : Int) + distance).toNat = hit + distance := by omega
    dsimp only
    rw [if_neg (by omega), hposition, hj, Option.bind_some, hj]
    rfl

section

variable (s : Session) (f : OpenFile) (scope : Scope) (pattern : InstructionPattern) (distance : Nat)

theorem found_searched :
    (s.searched f scope pattern distance).found = (f.code.landing? s.cursor scope pattern distance).isSome := by
  unfold searched settle
  split <;> rename_i h <;> rw [h] <;> rfl

theorem cursor_searched :
    (s.searched f scope pattern distance).cursor
      = (f.code.landing? s.cursor scope pattern distance).getD s.cursor := by
  unfold searched settle
  split <;> rename_i h <;> rw [h] <;> rfl

theorem file_searched : (s.searched f scope pattern distance).file = s.file := by
  unfold searched settle
  split <;> rfl

theorem position_searched : (s.searched f scope pattern distance).position = s.position := by
  unfold searched settle
  split <;> rfl

end

end Session

namespace ScriptRun

variable {config : Config} {script : Script} {r : ScriptRun} {f : OpenFile} {scope : Scope}
  {pattern : InstructionPattern} {distance start : Nat} {label : String}

/-- Whether a run gets to a position of the script. -/
def Leaves (config : Config) (script : Script) (position : Nat) (r : ScriptRun) : Prop :=
  ∃ count s, after? config script count r = some s ∧ s.session.position = position

/-- The run sent to a position of the script. -/
def sentTo (r : ScriptRun) (position : Nat) : ScriptRun := { r with session := { r.session with position } }

/-- A run at the start of a loop. -/
def IsAt (start : Nat) (f : OpenFile) (r : ScriptRun) : Prop := r.session.position = start ∧ r.session.file = some f

theorem perform_findInstructions (config : Config) (script : Script) (hfile : r.session.file = some f)
    (hdistance : distance < pattern.size) (scope : Scope) :
    r.perform config script (.findInstructions scope pattern distance)
      = (.ok (), { r with session := r.session.searched f scope pattern distance }) := by
  have hsession : r.session.withFile (fun f => r.session.findInstructions f scope pattern distance)
      = (.ok (), r.session.searched f scope pattern distance) := by
    rw [Session.withFile_of_file hfile, Session.findInstructions_of_lt hdistance]
  show r.update (r.session.withFile fun f => r.session.findInstructions f scope pattern distance) = _
  rw [hsession]
  rfl

section

variable (config : Config) (hloop : script.SearchesAt start label scope pattern distance)
  (hdistance : distance < pattern.size)
include hloop

include hdistance in
/-- The first command of a loop searches. -/
theorem exists_next?_search (hat : r.IsAt start f) :
    ∃ q, next? config script r = some q ∧ q.session.position = start + 1 ∧ q.session.file = some f ∧
      q.session.found = (f.code.landing? r.session.cursor scope pattern distance).isSome ∧
      q.session.cursor = (f.code.landing? r.session.cursor scope pattern distance).getD r.session.cursor := by
  obtain ⟨line, hline, hcommand⟩ := hloop.search
  have hperform := perform_findInstructions config script (r := r.advance) hat.2 hdistance scope
  have hposition : (r.advance.session.searched f scope pattern distance).position = start + 1 := by
    rw [Session.position_searched, ← hat.1]
    rfl
  have hfile := Session.file_searched r.advance.session f scope pattern distance
  refine ⟨{ r with session := r.advance.session.searched f scope pattern distance }, ?_, hposition,
    hfile.trans hat.2, Session.found_searched .., Session.cursor_searched ..⟩
  unfold next?
  rw [hat.1, hline]
  dsimp only
  rw [hcommand, hperform]
  rfl

/-- The second one goes back to it, or leaves the loop. -/
theorem next?_again (hposition : r.session.position = start + 1) :
    next? config script r = some (if r.session.found then r.sentTo start else r.advance) := by
  obtain ⟨line, hline, hcommand⟩ := hloop.again
  have hperform : r.advance.perform config script (.goToIfFound label)
      = r.advance.update
          (if r.session.found then r.advance.session.goTo script label else (.ok (), r.advance.session)) := rfl
  have hgoTo : r.advance.session.goTo script label = (.ok (), (r.sentTo start).session) := by
    rw [Session.goTo, hloop.target]
    rfl
  unfold next?
  rw [hposition, hline]
  dsimp only
  rw [hcommand, hperform, hgoTo]
  cases r.session.found <;> rfl

include hdistance

/-- **A round of a loop** that repeats a search: it is back at the start, with the cursor where the search landed, or
behind the loop. -/
theorem exists_round (hat : r.IsAt start f) :
    ∃ q s, after? config script 1 r = some q ∧ q.session.position = start + 1 ∧
      (∀ count, after? config script (count + 2) r = after? config script count s) ∧
      match f.code.landing? r.session.cursor scope pattern distance with
      | some a => s.IsAt start f ∧ s.session.cursor = a
      | none => s.session.position = start + 2 := by
  obtain ⟨q, hq, hposition, hfile, hfound, hcursor⟩ := exists_next?_search config hloop hdistance hat
  have hagain := next?_again config hloop hposition
  refine ⟨q, if q.session.found then q.sentTo start else q.advance, ?_, hposition, fun count => ?_, ?_⟩
  · rw [after?, hq, Option.bind_some, after?]
  · rw [after?, hq, Option.bind_some, after?, hagain, Option.bind_some]
  · rw [hfound]
    cases hlands : f.code.landing? r.session.cursor scope pattern distance with
    | some a =>
      rw [hlands] at hcursor
      exact ⟨⟨rfl, hfile⟩, hcursor⟩
    | none => exact congrArg (· + 1) hposition

/-- **A loop is left** if every hit is closer to the end of the code than the cursor was. -/
theorem leaves_of_decreasing (measure : UInt32 → Nat)
    (hmeasure : ∀ cursor a, f.code.landing? cursor scope pattern distance = some a → measure a < measure cursor)
    (hat : r.IsAt start f) : Leaves config script (start + 2) r := by
  -- The induction is on how much of the code is left; a round with a hit takes some of it away.
  induction hleft : measure r.session.cursor using Nat.strongRecOn generalizing r with
  | _ left ih =>
    obtain ⟨_, s, _, _, hafter, hround⟩ := exists_round config hloop hdistance hat
    cases hlands : f.code.landing? r.session.cursor scope pattern distance with
    | none =>
      rw [hlands] at hround
      exact ⟨2, s, hafter 0, hround⟩
    | some a =>
      rw [hlands] at hround
      obtain ⟨hagain, rfl⟩ := hround
      have hless := hmeasure _ _ hlands
      obtain ⟨count, t, ht, hposition⟩ := ih _ (hleft ▸ hless) hagain rfl
      exact ⟨count + 2, t, (hafter count).trans ht, hposition⟩

section

variable {holds : UInt32 → Prop}
  (hhits : ∀ cursor, holds cursor → ∃ a, f.code.landing? cursor scope pattern distance = some a ∧ holds a)
include hhits

/-- **A loop is never left** if there is a hit as long as something holds of the cursor, which holds of it again then.
After any number of commands the run is at one of the two commands of the loop. -/
theorem exists_after?_of_hits (hat : r.IsAt start f) (hholds : holds r.session.cursor) (count : Nat) :
    ∃ s, after? config script count r = some s ∧ (s.session.position = start ∨ s.session.position = start + 1) := by
  -- A round is two commands, so the induction goes back by two.
  induction count using Nat.strongRecOn generalizing r with
  | _ count ih =>
    obtain ⟨a, hlands, ha⟩ := hhits _ hholds
    obtain ⟨q, s, hq, hposition, hafter, hround⟩ := exists_round config hloop hdistance hat
    rw [hlands] at hround
    obtain ⟨hagain, rfl⟩ := hround
    match count with
    | 0 => exact ⟨r, rfl, .inl hat.1⟩
    | 1 => exact ⟨q, hq, .inr hposition⟩
    | count + 2 =>
      rw [hafter]
      exact ih count (by omega) hagain ha

theorem not_leaves_of_hits (hat : r.IsAt start f) (hholds : holds r.session.cursor) :
    ¬Leaves config script (start + 2) r := by
  rintro ⟨count, s, hs, hbehind⟩
  obtain ⟨t, ht, hposition⟩ := exists_after?_of_hits config hloop hdistance hhits hat hholds count
  rw [hs, Option.some_inj] at ht
  subst ht
  omega

end

end

/-- A script that is such a loop is stopped by its limit, whatever that is. -/
theorem stoppedByLimit_of_hits (config : Config) (hloop : script.SearchesAt 0 label scope pattern distance)
    (hdistance : distance < pattern.size) {holds : UInt32 → Prop}
    (hhits : ∀ cursor, holds cursor → ∃ a, f.code.landing? cursor scope pattern distance = some a ∧ holds a)
    (hfile : r.session.file = some f) (hholds : holds r.session.cursor) (limit : Nat) :
    StoppedByLimit (r.execute config script limit).1 := by
  have hat : r.restart.IsAt 0 f := ⟨rfl, hfile⟩
  obtain ⟨s, hs, hposition⟩ := exists_after?_of_hits config hloop hdistance hhits hat hholds limit
  obtain ⟨line, hline⟩ : ∃ line, script.lines[s.session.position]? = some line := by
    rcases hposition with hposition | hposition
    · obtain ⟨line, hline, _⟩ := hloop.search
      exact ⟨line, hposition ▸ hline⟩
    · obtain ⟨line, hline, _⟩ := hloop.again
      exact ⟨line, hposition ▸ hline⟩
  rw [execute_eq, executeFrom_of_after? hs hline]
  exact ⟨_, _, _, rfl⟩

/-- **A loop forwards** is left unless the pattern matches at the last address of all. -/
theorem leaves_next_iff (config : Config) (hloop : script.SearchesAt start label .next pattern distance)
    (hdistance : distance < pattern.size) (hat : r.IsAt start f) :
    Leaves config script (start + 2) r ↔ ¬f.code.MatchedAt pattern 0xFFFFFFFF := by
  constructor
  · intro hleaves hlast
    -- Wherever the cursor is, a search forwards comes to the last address in the end.
    have hhits (cursor : UInt32) (_ : True) :
        ∃ a, f.code.landing? cursor .next pattern distance = some a ∧ True := by
      obtain ⟨a, ha⟩ := CodeMap.exists_landing?_of_matchedAt_last hdistance hlast cursor
      exact ⟨a, ha, trivial⟩
    exact not_leaves_of_hits config hloop hdistance hhits hat trivial hleaves
  · intro hlast
    refine leaves_of_decreasing config hloop hdistance (fun a => UInt32.size - a.toNat) (fun cursor a ha => ?_) hat
    have hlt := UInt32.lt_iff_toNat_lt.1 (CodeMap.lt_landing_of_not_matchedAt hlast ha)
    have hsize := a.toNat_lt
    unfold UInt32.size
    omega

/-- **A loop backwards** is left if its searches go to the start of the match, or if there is no match. -/
theorem leaves_previous_iff (config : Config) (hloop : script.SearchesAt start label .previous pattern distance)
    (hdistance : distance < pattern.size) (hat : r.IsAt start f) :
    Leaves config script (start + 2) r ↔
      distance = 0 ∨ ∀ a, f.code.MatchedAt pattern a → ¬a < r.session.cursor := by
  constructor
  · intro hleaves
    by_contra hnot
    obtain ⟨hpositive, hmatch⟩ := not_or.1 hnot
    push Not at hmatch
    -- With a match before the cursor there is one before every place where the searches land.
    have hhits (cursor : UInt32) (hbefore : ∃ b, f.code.MatchedAt pattern b ∧ b < cursor) :=
      CodeMap.exists_matchedAt_lt_landing hdistance (Nat.pos_of_ne_zero hpositive) hbefore
    exact not_leaves_of_hits config hloop hdistance hhits hat hmatch hleaves
  · rintro (rfl | hnone)
    · refine leaves_of_decreasing config hloop hdistance UInt32.toNat (fun cursor a ha => ?_) hat
      exact UInt32.lt_iff_toNat_lt.1 (CodeMap.landing_lt ha)
    · obtain ⟨_, s, _, _, hafter, hround⟩ := exists_round config hloop hdistance hat
      have hlands : f.code.landing? r.session.cursor .previous pattern distance = none := by
        rw [Option.eq_none_iff_forall_ne_some]
        intro a ha
        obtain ⟨b, hmatched, hlt⟩ := (CodeMap.exists_landing?_previous_iff hdistance).1 ⟨a, ha⟩
        exact hnone b hmatched hlt
      rw [hlands] at hround
      exact ⟨2, s, hafter 0, hround⟩

/-- **Repeated searches for instructions.** A search for any instruction of a match succeeds. If it finds one, a search
forwards goes behind the cursor, unless that is at the last address of all, and a search backwards goes before it just
when the instruction that it goes to is one of those before the cursor, as the start of the match is. A loop that repeats
a search forwards is left unless the pattern matches at the last address. A loop that repeats a search backwards is left
if it goes to the first instruction of a match, and otherwise only if no match starts before the cursor at all. -/
theorem repeated_searches (config : Config) (script : Script) (hfile : r.session.file = some f)
    (hdistance : distance < pattern.size) :
    (∃ t, r.perform config script (.findInstructions .next pattern distance) = (.ok (), { r with session := t }) ∧
      (t.found = true → (r.session.cursor < t.cursor ↔ r.session.cursor ≠ 0xFFFFFFFF))) ∧
    (∃ t, r.perform config script (.findInstructions .previous pattern distance) = (.ok (), { r with session := t }) ∧
      (t.found = true → ∃ p, f.code.nearestMatch? r.session.cursor .previous pattern = some p ∧
        (t.cursor < r.session.cursor ↔ p + distance < f.code.positionAtOrAfter r.session.cursor))) ∧
    ∀ label,
      (script.SearchesAt r.session.position label .next pattern distance →
        (Leaves config script (r.session.position + 2) r ↔ ¬f.code.MatchedAt pattern 0xFFFFFFFF)) ∧
      (script.SearchesAt r.session.position label .previous pattern distance →
        (Leaves config script (r.session.position + 2) r ↔
          distance = 0 ∨ ∀ a, f.code.MatchedAt pattern a → ¬a < r.session.cursor)) := by
  have hsearch (scope : Scope) :
      ∃ t, r.perform config script (.findInstructions scope pattern distance) = (.ok (), { r with session := t }) ∧
        (t.found = true → f.code.landing? r.session.cursor scope pattern distance = some t.cursor) := by
    refine ⟨_, perform_findInstructions config script hfile hdistance scope, fun hfound => ?_⟩
    rw [Session.found_searched] at hfound
    obtain ⟨a, ha⟩ := Option.isSome_iff_exists.1 hfound
    rw [Session.cursor_searched, ha, Option.getD_some]
  obtain ⟨t, ht, hnext⟩ := hsearch .next
  obtain ⟨u, hu, hprevious⟩ := hsearch .previous
  refine ⟨⟨t, ht, fun hfound => ?_⟩, ⟨u, hu, fun hfound => ?_⟩, fun label => ⟨fun hloop => ?_, fun hloop => ?_⟩⟩
  · exact CodeMap.lt_landing_iff (hnext hfound)
  · exact CodeMap.landing_lt_iff (hprevious hfound)
  · exact leaves_next_iff config hloop hdistance ⟨rfl, hfile⟩
  · exact leaves_previous_iff config hloop hdistance ⟨rfl, hfile⟩

/-- A file whose code calls a function with an argument, and what is looked for in it. -/
def callingFile : OpenFile :=
  .start "a" "a" (Image.blank [0x2A, 0x20, 0x00, 0xF0, 0x01, 0xF8, 0x70, 0x47] 0x1000)
    (.ofList [⟨0x1000, [0x2A, 0x20], "movs", "r0, #0x2a"⟩, ⟨0x1002, [0x00, 0xF0, 0x01, 0xF8], "bl", "#0x1008"⟩,
      ⟨0x1006, [0x70, 0x47], "bx", "lr"⟩])

def callPattern : InstructionPattern :=
  ⟨"movs r0, ?; bl ?", [[.name "movs", .name "r0", .separator, .operator '?'], [.name "bl", .operator '?']], by simp⟩

example : InstructionPattern.parse "movs r0, ?; bl ?" = .ok callPattern := by decide +kernel

/-- A run in which that file is open. -/
def callingRun (cursor : UInt32) : ScriptRun :=
  ⟨{ Session.start .empty with file := some callingFile, cursor }, ⟨[], []⟩, .failing .notConfigured⟩

/-- A script that goes from call to call. -/
def callLoop (scope : Scope) : Script :=
  ⟨[⟨1, some "Again", "Find", .findInstructions scope callPattern 1⟩,
    ⟨2, none, "IfFoundGo Again", .goToIfFound "Again"⟩], [("Again", 0)]⟩

theorem searchesAt_callLoop (scope : Scope) : (callLoop scope).SearchesAt 0 "Again" scope callPattern 1 :=
  ⟨⟨_, rfl, rfl⟩, ⟨_, rfl, rfl⟩, rfl⟩

/-- From the end of the code the call is before the cursor, but a loop that goes back to it stays there. -/
theorem repeated_searches_calls :
    (callingRun 0x1006).session.file = some callingFile ∧ 1 < callPattern.size ∧
      (∃ t, (callingRun 0x1006).perform .standard (callLoop .previous) (.findInstructions .previous callPattern 1)
          = (.ok (), { callingRun 0x1006 with session := t }) ∧ (t.found = true → t.cursor < 0x1006)) ∧
      Leaves .standard (callLoop .next) 2 (callingRun 0x1006) ∧
      ¬Leaves .standard (callLoop .previous) 2 (callingRun 0x1006) := by
  have hsize : 1 < callPattern.size := by decide
  have hserves : callingFile.code.MatchedAt callPattern 0x1000 := ⟨0, _, rfl, rfl, by decide +kernel⟩
  have heven : callingFile.code.IsEven := by decide
  obtain ⟨_, ⟨t, ht, hcursor⟩, hloops⟩ :=
    repeated_searches .standard (callLoop .previous) (r := callingRun 0x1006) (f := callingFile) rfl hsize
  obtain ⟨_, _, hloopsNext⟩ :=
    repeated_searches .standard (callLoop .next) (r := callingRun 0x1006) (f := callingFile) rfl hsize
  refine ⟨rfl, hsize, ⟨t, ht, fun hfound => ?_⟩, ?_, ?_⟩
  · obtain ⟨p, hnearest, hiff⟩ := hcursor hfound
    obtain rfl : p = 0 := by
      have hfirst : callingFile.code.nearestMatch? 0x1006 .previous callPattern = some 0 := by decide +kernel
      exact Option.some.inj (hnearest.symm.trans hfirst)
    exact hiff.2 (by decide)
  · exact ((hloopsNext "Again").1 (searchesAt_callLoop .next)).2 (heven.not_matchedAt_last callPattern)
  · intro hleaves
    rcases ((hloops "Again").2 (searchesAt_callLoop .previous)).1 hleaves with hzero | hnone
    · cases hzero
    · exact hnone _ hserves (by decide)

/-- **A search without progress**: at the call, the search for it finds it again, and the loop runs until its limit stops
it, whatever that is. -/
theorem exists_search_without_progress :
    ∃ f t, (callingRun 0x1002).session.file = some f ∧ 1 < callPattern.size ∧
      (callingRun 0x1002).perform .standard (callLoop .previous) (.findInstructions .previous callPattern 1)
        = (.ok (), { callingRun 0x1002 with session := t }) ∧
      t.found = true ∧ t.cursor = 0x1002 ∧ ¬t.cursor < (callingRun 0x1002).session.cursor ∧
      ∀ limit, StoppedByLimit ((callingRun 0x1002).execute .standard (callLoop .previous) limit).1 := by
  have hsize : 1 < callPattern.size := by decide
  have hserves : callingFile.code.MatchedAt callPattern 0x1000 := ⟨0, _, rfl, rfl, by decide +kernel⟩
  have hlands : callingFile.code.landing? 0x1002 .previous callPattern 1 = some 0x1002 := by decide +kernel
  have hperform := perform_findInstructions .standard (callLoop .previous) (r := callingRun 0x1002)
    (f := callingFile) rfl hsize .previous
  have hcursor : ((callingRun 0x1002).session.searched callingFile .previous callPattern 1).cursor = 0x1002 := by
    rw [Session.cursor_searched]
    exact congrArg (Option.getD · _) hlands
  refine ⟨callingFile, _, rfl, hsize, hperform, ?_, hcursor, ?_, ?_⟩
  · rw [Session.found_searched]
    exact congrArg Option.isSome hlands
  · rw [hcursor]
    decide
  · exact stoppedByLimit_of_hits .standard (searchesAt_callLoop .previous) hsize (f := callingFile)
      (fun cursor => CodeMap.exists_matchedAt_lt_landing hsize Nat.one_pos) rfl ⟨_, hserves, by decide⟩

end ScriptRun

end BinaryPatching
