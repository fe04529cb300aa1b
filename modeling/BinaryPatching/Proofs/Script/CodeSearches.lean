import BinaryPatching.Script.Execution

/-!
# `BinaryPatching.Proofs.Script.CodeSearches` — searches in the code go to the nearest hit

A search in the code goes through positions, the cursor is an address, and neither need be that of an instruction. As
the code is in the order of its addresses, the positions of a scope are just those with an address on the wanted side of
the cursor, the nearest one first. So the first position that serves is the nearest one.

## Contents
- `lt_length_takeWhile_iff`, `CodeMap.positionAtOrAfter_le_iff`, `CodeMap.le_positionAtOrBefore_iff`: positions and
  addresses.
- `Scope.Admits`, `Scope.NoFarther`, `mem_positions_iff`, `pairwise_positions`: the positions of a scope.
- `Scope.Nearest`, `find?_positions_cases`: the first position that serves.
- `Command.sought?`, `Session.Settled`, `ScriptRun.perform_sought`: the commands.
-/

namespace BinaryPatching

open Text Thumb

/-! ## Positions and addresses -/

/-- The instructions before a limit are those at the first positions. -/
theorem lt_length_takeWhile_iff {is : List Instruction} (hascending : Ascending is) {before : UInt32 → Bool}
    (hbefore : ∀ a b, a < b → before b = true → before a = true) {p : Nat} {i : Instruction} (h : is[p]? = some i) :
    p < (is.takeWhile fun i => before i.address).length ↔ before i.address = true := by
  induction is generalizing p with
  | nil => simp at h
  | cons j rest ih =>
    obtain ⟨hj, hrest⟩ := List.pairwise_cons.1 hascending
    by_cases hfirst : before j.address = true
    · rw [List.takeWhile_cons_of_pos (p := fun i : Instruction => before i.address) hfirst]
      cases p with
      | zero =>
        obtain rfl : j = i := by simpa using h
        simp [hfirst]
      | succ p =>
        have hp : rest[p]? = some i := by simpa using h
        simpa using ih hrest hp
    · rw [List.takeWhile_cons_of_neg (p := fun i : Instruction => before i.address) hfirst]
      -- What does not come before the limit at the front does not do so behind.
      have hnot : before i.address ≠ true := by
        intro hi
        rcases List.mem_cons.1 (List.mem_of_getElem? h) with rfl | hmem
        · exact hfirst hi
        · exact hfirst (hbefore _ _ (hj i hmem) hi)
      simp [hnot]

namespace CodeMap

variable {code : CodeMap} {p q : Nat} {i j : Instruction}

theorem lt_size_of_at? (h : code.at? p = some i) : p < code.size :=
  (List.getElem?_eq_some_iff.1 h).1

theorem exists_at? (h : p < code.size) : ∃ i, code.at? p = some i :=
  ⟨code.instructions[p], List.getElem?_eq_getElem h⟩

/-- Addresses are in the order of positions. -/
theorem address_lt_of_lt (hi : code.at? p = some i) (hj : code.at? q = some j) (h : p < q) : i.address < j.address := by
  obtain ⟨hp, rfl⟩ := List.getElem?_eq_some_iff.1 hi
  obtain ⟨hq, rfl⟩ := List.getElem?_eq_some_iff.1 hj
  exact List.pairwise_iff_getElem.1 code.ascending p q hp hq h

/-- **At or after an address** are the positions from the one that is found on. -/
theorem positionAtOrAfter_le_iff {a : UInt32} (h : code.at? p = some i) :
    code.positionAtOrAfter a ≤ p ↔ a ≤ i.address := by
  have hbefore : ∀ b c : UInt32, b < c → decide (c < a) = true → decide (b < a) = true := by
    intro b c hbc hc
    exact decide_eq_true (UInt32.lt_trans hbc (of_decide_eq_true hc))
  have hlt := lt_length_takeWhile_iff code.ascending hbefore h
  rw [decide_eq_true_eq] at hlt
  rw [← Nat.not_lt, ← UInt32.not_lt]
  exact not_congr hlt

/-- **At or before an address** are the positions up to the one that is found, if there is one. -/
theorem le_positionAtOrBefore_iff {a : UInt32} (h : code.at? p = some i) :
    (∃ last, code.positionAtOrBefore a = some last ∧ p ≤ last) ↔ i.address ≤ a := by
  have hbefore : ∀ b c : UInt32, b < c → decide (c ≤ a) = true → decide (b ≤ a) = true := by
    intro b c hbc hc
    exact decide_eq_true (UInt32.le_trans (UInt32.le_of_lt hbc) (of_decide_eq_true hc))
  have hlt := lt_length_takeWhile_iff code.ascending hbefore h
  rw [decide_eq_true_eq] at hlt
  rw [← hlt]
  unfold positionAtOrBefore
  split
  · rename_i hzero
    simp [hzero]
  · rename_i last hlast
    rw [hlast]
    constructor
    · rintro ⟨_, heq, hle⟩
      cases heq
      omega
    · intro hlt
      exact ⟨last, rfl, by omega⟩

theorem lt_size_of_positionAtOrBefore {a : UInt32} {last : Nat} (h : code.positionAtOrBefore a = some last) :
    last < code.size := by
  have hle := (List.takeWhile_sublist (l := code.instructions) fun i => decide (i.address ≤ a)).length_le
  unfold positionAtOrBefore at h
  split at h
  · simp at h
  · rename_i n hn
    obtain rfl : n = last := by simpa using h
    unfold size
    omega

end CodeMap

/-! ## The positions of a scope -/

/-- **The side of the cursor** that a scope is about. -/
def Scope.Admits (cursor : UInt32) : Scope → UInt32 → Prop
  | .first, _ => True
  | .next, a => cursor < a
  | .previous, a => a < cursor

/-- **The order in which a scope is searched**: upwards, or downwards for what is before the cursor. -/
def Scope.NoFarther : Scope → UInt32 → UInt32 → Prop
  | .first, a, b => a ≤ b
  | .next, a, b => a ≤ b
  | .previous, a, b => b ≤ a

/-- **Even addresses**: those of all instructions of the code. -/
def CodeMap.IsEven (code : CodeMap) : Prop := ∀ i ∈ code.instructions, i.address % 2 = 0

instance (code : CodeMap) : Decidable code.IsEven :=
  inferInstanceAs (Decidable (∀ i ∈ code.instructions, i.address % 2 = 0))

/-- The last address is odd. -/
theorem CodeMap.IsEven.address_ne_last {code : CodeMap} (heven : code.IsEven) {p : Nat} {i : Instruction}
    (h : code.at? p = some i) : i.address ≠ 0xFFFFFFFF := by
  intro hlast
  have hi := heven i (List.mem_of_getElem? h)
  rw [hlast] at hi
  exact absurd hi (by decide)

/-- Before the cursor means up to the address before it. -/
theorem le_pred_iff_lt {cursor a : UInt32} (h : cursor ≠ 0) : a ≤ cursor - 1 ↔ a < cursor := by
  have hcursor : cursor.toNat ≠ 0 := fun hzero => h (UInt32.toNat_inj.1 hzero)
  have hone : (1 : UInt32).toNat = 1 := rfl
  have hle : (1 : UInt32) ≤ cursor := by
    rw [UInt32.le_iff_toNat_le, hone]
    omega
  rw [UInt32.le_iff_toNat_le, UInt32.lt_iff_toNat_lt, UInt32.toNat_sub_of_le _ _ hle, hone]
  omega

/-- The positions behind the cursor are those of the addresses behind it, and that of the last address: behind that
there is none, and it is searched in place of the next one. -/
theorem mem_positions_next_iff {code : CodeMap} {cursor : UInt32} {p : Nat} {i : Instruction}
    (h : code.at? p = some i) : p ∈ positions code cursor .next ↔ cursor < i.address ∨ i.address = 0xFFFFFFFF := by
  have hp := CodeMap.lt_size_of_at? h
  have hle := CodeMap.positionAtOrAfter_le_iff (a := if cursor = 0xFFFFFFFF then cursor else cursor + 1) h
  have hmem : p ∈ positions code cursor .next ↔
      (if cursor = 0xFFFFFFFF then cursor else cursor + 1) ≤ i.address := by
    show p ∈ List.range' _ _ ↔ _
    rw [← hle, List.mem_range'_1]
    omega
  have hlast : (0xFFFFFFFF : UInt32).toNat = 0xFFFFFFFF := rfl
  have hone : (1 : UInt32).toNat = 1 := rfl
  have hlt := cursor.toNat_lt
  have hilt := i.address.toNat_lt
  rw [hmem]
  split
  · rename_i hcursor
    rw [hcursor, UInt32.le_iff_toNat_le, UInt32.lt_iff_toNat_lt, ← UInt32.toNat_inj, hlast]
    omega
  · rename_i hcursor
    rw [← UInt32.toNat_inj, hlast] at hcursor
    rw [UInt32.le_iff_toNat_le, UInt32.lt_iff_toNat_lt, ← UInt32.toNat_inj, hlast, UInt32.toNat_add, hone]
    omega

/-- The positions before the cursor. -/
theorem mem_positions_previous {code : CodeMap} {cursor : UInt32} {p : Nat} :
    p ∈ positions code cursor .previous ↔
      cursor ≠ 0 ∧ ∃ last, code.positionAtOrBefore (cursor - 1) = some last ∧ p ≤ last := by
  unfold positions
  dsimp only
  by_cases hzero : cursor = 0
  · simp [hzero]
  · cases hlast : code.positionAtOrBefore (cursor - 1) with
    | none => simp [hzero]
    | some last =>
      rw [if_neg hzero]
      show p ∈ (List.range (last + 1)).reverse ↔ _
      rw [List.mem_reverse, List.mem_range, Nat.lt_succ_iff]
      constructor
      · intro hle
        exact ⟨hzero, last, rfl, hle⟩
      · rintro ⟨_, _, heq, hle⟩
        cases heq
        exact hle

/-- The positions before the cursor are those of the addresses before it. -/
theorem mem_positions_previous_iff {code : CodeMap} {cursor : UInt32} {p : Nat} {i : Instruction}
    (h : code.at? p = some i) : p ∈ positions code cursor .previous ↔ i.address < cursor := by
  rw [mem_positions_previous]
  by_cases hzero : cursor = 0
  · have hnot : ¬i.address < cursor := by
      rw [hzero, UInt32.lt_iff_toNat_lt]
      exact Nat.not_lt_zero _
    simp [hzero]
  · rw [CodeMap.le_positionAtOrBefore_iff h, le_pred_iff_lt hzero]
    simp [hzero]

/-- The positions of a scope are positions of the code. -/
theorem lt_size_of_mem_positions {code : CodeMap} {cursor : UInt32} {scope : Scope} {p : Nat}
    (h : p ∈ positions code cursor scope) : p < code.size := by
  cases scope with
  | first => exact List.mem_range.1 h
  | next =>
    have hrange := List.mem_range'_1.1 h
    omega
  | previous =>
    obtain ⟨_, last, hlast, hle⟩ := mem_positions_previous.1 h
    have hlt := CodeMap.lt_size_of_positionAtOrBefore hlast
    omega

/-- **The positions of a scope** are those of the addresses that it admits. -/
theorem mem_positions_iff {code : CodeMap} (heven : code.IsEven) {cursor : UInt32} {scope : Scope} {p : Nat}
    {i : Instruction} (h : code.at? p = some i) :
    p ∈ positions code cursor scope ↔ scope.Admits cursor i.address := by
  have hp := CodeMap.lt_size_of_at? h
  cases scope with
  | first => exact iff_of_true (List.mem_range.2 hp) trivial
  | next =>
    rw [mem_positions_next_iff h]
    exact or_iff_left (heven.address_ne_last h)
  | previous => exact mem_positions_previous_iff h

/-- The positions of a scope are in the order in which it is searched. -/
theorem pairwise_positions (code : CodeMap) (cursor : UInt32) (scope : Scope) :
    (positions code cursor scope).Pairwise fun p q =>
      ∀ i j, code.at? p = some i → code.at? q = some j → scope.NoFarther i.address j.address := by
  have hle {p q : Nat} {i j : Instruction} (hi : code.at? p = some i) (hj : code.at? q = some j) (h : p < q) :
      i.address ≤ j.address := UInt32.le_of_lt (CodeMap.address_lt_of_lt hi hj h)
  cases scope with
  | first => exact List.pairwise_lt_range.imp fun hlt i j hi hj => hle hi hj hlt
  | next =>
    refine List.Pairwise.imp ?_ List.pairwise_lt_range'
    exact fun hlt i j hi hj => hle hi hj hlt
  | previous =>
    unfold positions
    dsimp only
    split
    · exact List.Pairwise.nil
    · split
      · rw [List.pairwise_reverse]
        exact List.pairwise_lt_range.imp fun hlt i j hi hj => hle hj hi hlt
      · exact List.Pairwise.nil

/-! ## The first position that serves -/

/-- **What is searched for**: the addresses of the instructions whose position serves. -/
def CodeMap.ServesAt (code : CodeMap) (serves : Nat → Bool) (a : UInt32) : Prop :=
  ∃ p i, code.at? p = some i ∧ i.address = a ∧ serves p = true

/-- **The nearest** of some addresses that a scope admits. -/
structure Scope.Nearest (scope : Scope) (wanted : UInt32 → Prop) (cursor a : UInt32) : Prop where
  /-- It is one of them. -/
  isWanted : wanted a
  /-- The scope admits it. -/
  admitted : scope.Admits cursor a
  /-- All others that the scope admits are at least as far. -/
  noFarther : ∀ b, wanted b → scope.Admits cursor b → scope.NoFarther a b

theorem Scope.noFarther_refl (scope : Scope) (a : UInt32) : scope.NoFarther a a := by
  cases scope <;> exact UInt32.le_refl a

/-- **The first position that serves** is that of the nearest address. If no position serves, the scope admits none of
the addresses. -/
theorem find?_positions_cases {code : CodeMap} (heven : code.IsEven) (cursor : UInt32) (scope : Scope)
    (serves : Nat → Bool) :
    (∃ p i, (positions code cursor scope).find? serves = some p ∧ code.at? p = some i ∧
      scope.Nearest (code.ServesAt serves) cursor i.address) ∨
    ((positions code cursor scope).find? serves = none ∧
      ∀ a, code.ServesAt serves a → ¬scope.Admits cursor a) := by
  cases hfind : (positions code cursor scope).find? serves with
  | none =>
    refine .inr ⟨rfl, ?_⟩
    rintro a ⟨p, i, hi, rfl, hserves⟩ hadmits
    exact List.find?_eq_none.1 hfind p ((mem_positions_iff heven hi).2 hadmits) hserves
  | some p =>
    obtain ⟨hserves, front, behind, hsplit, hfront⟩ := List.find?_eq_some_iff_append.1 hfind
    have hp : p ∈ positions code cursor scope := List.mem_of_find?_eq_some hfind
    obtain ⟨i, hi⟩ := CodeMap.exists_at? (lt_size_of_mem_positions hp)
    refine .inl ⟨p, i, rfl, hi, ⟨p, i, hi, rfl, hserves⟩, (mem_positions_iff heven hi).1 hp, ?_⟩
    rintro b ⟨q, j, hj, rfl, hq⟩ hadmits
    have hmem := (mem_positions_iff heven hj).2 hadmits
    have hordered := pairwise_positions code cursor scope
    rw [hsplit] at hmem hordered
    -- Nothing before the first position that serves does so, and all others come later.
    rcases List.mem_append.1 hmem with hbefore | hrest
    · have hnot := hfront q hbefore
      simp [hq] at hnot
    rcases List.mem_cons.1 hrest with rfl | hlater
    · obtain rfl : i = j := Option.some.inj (hi.symm.trans hj)
      exact scope.noFarther_refl _
    · exact (List.pairwise_cons.1 (List.pairwise_append.1 hordered).2.1).1 q hlater i j hi hj

/-! ## The commands -/

/-- **What a command searches the code for**: the scope, and the positions that serve. A call of a target that leads
nowhere is found nowhere. -/
def Command.sought? : Command → Option (Scope × (OpenFile → Nat → Bool))
  | .findValue scope value => some (scope, fun f p => f.code.anyAt p fun i => i.literalValue == some value)
  | .findConditionalJump scope => some (scope, fun f p => f.code.anyAt p fun i => isConditionalJump i.mnemonic)
  | .findCall scope target constraints =>
    some (scope, fun f p =>
      match target.resolve? f.image with
      | none => false
      | some (place, imported) => f.code.anyAt p (·.calls place imported) && constraints.hold f.code p)
  | .findInstructions scope pattern 0 =>
    some (scope, fun f p => pattern.matchesRun (f.code.instructions.drop p))
  | _ => none

/-- **The state after a search** for the nearest of some addresses. But for the cursor, the mark of a hit and one more
message it is the state before. -/
inductive Session.Settled (scope : Scope) (wanted : UInt32 → Prop) (s : Session) : Session → Prop
  /-- The cursor is at the nearest one. -/
  | hit {a : UInt32} (h : scope.Nearest wanted s.cursor a) (message : String) :
    Settled scope wanted s { s with cursor := a, found := true, messages := message :: s.messages }
  /-- There is none. -/
  | miss (h : ∀ a, wanted a → ¬scope.Admits s.cursor a) (message : String) :
    Settled scope wanted s { s with found := false, messages := message :: s.messages }

namespace Session

variable {s : Session} {f : OpenFile} {scope : Scope} {serves : Nat → Bool}

theorem withFile_of_file (h : s.file = some f) {act : OpenFile → Progress Session} :
    s.withFile act = act f := by
  rw [withFile, h]

/-- A search for an instruction goes to the nearest position that serves. -/
theorem settled_findInstruction (heven : f.code.IsEven) (s : Session) (scope : Scope) (what : String)
    (serves : Nat → Bool) : s.Settled scope (f.code.ServesAt serves) (s.findInstruction f scope what serves) := by
  unfold findInstruction findPosition
  rcases find?_positions_cases heven s.cursor scope serves with ⟨p, i, hfind, hi, hnearest⟩ | ⟨hfind, hnone⟩
  · rw [hfind, Option.bind_some, hi]
    exact .hit hnearest _
  · rw [hfind]
    exact .miss hnone _

/-- A search for instructions in a row goes to the first of the nearest ones. -/
theorem settled_findInstructions (heven : f.code.IsEven) (s : Session) (scope : Scope) (pattern : InstructionPattern) :
    ∃ t, s.findInstructions f scope pattern 0 = (.ok (), t) ∧
      s.Settled scope (f.code.ServesAt fun p => pattern.matchesRun (f.code.instructions.drop p)) t := by
  unfold findInstructions
  dsimp only
  rcases find?_positions_cases heven s.cursor scope fun p => pattern.matchesRun (f.code.instructions.drop p) with
    ⟨p, i, hfind, hi, hnearest⟩ | ⟨hfind, hnone⟩
  · have hfrom : ¬((p : Int) + 0 < 0) := by omega
    have hposition : ((p : Int) + 0).toNat = p := by omega
    rw [hfind]
    dsimp only
    rw [if_neg hfrom, hposition, hi]
    exact ⟨_, rfl, .hit hnearest _⟩
  · rw [hfind]
    exact ⟨_, rfl, .miss hnone _⟩

/-- A search for a call likewise, if its target leads anywhere. -/
theorem settled_findCall (heven : f.code.IsEven) (s : Session) (scope : Scope) (target : Target)
    (constraints : Constraints) :
    s.Settled scope (f.code.ServesAt fun p =>
        match target.resolve? f.image with
        | none => false
        | some (place, imported) => f.code.anyAt p (·.calls place imported) && constraints.hold f.code p)
      (s.findCall f scope target constraints) := by
  unfold findCall
  cases target.resolve? f.image with
  | none =>
    refine .miss ?_ _
    rintro a ⟨p, i, _, _, hserves⟩
    cases hserves
  | some found => exact settled_findInstruction heven s scope _ _

end Session

/-- **Searches in the code go to the nearest hit.** Where all instructions are at even addresses, a command that
searches the code succeeds, whatever the cursor. It puts the cursor at the nearest address that serves on the side of
the cursor that its scope is about, or, if there is none, leaves it where it is. Of the rest of the run only the
messages change. -/
theorem ScriptRun.perform_sought (config : Config) (script : Script) {r : ScriptRun} {f : OpenFile}
    (hfile : r.session.file = some f) (heven : f.code.IsEven) {command : Command} {scope : Scope}
    {serves : OpenFile → Nat → Bool} (hsought : command.sought? = some (scope, serves)) :
    ∃ t, r.perform config script command = (.ok (), { r with session := t }) ∧
      r.session.Settled scope (f.code.ServesAt (serves f)) t := by
  have hsession : ∃ t, r.session.perform script command = (.ok (), t) ∧
      r.session.Settled scope (f.code.ServesAt (serves f)) t := by
    unfold Command.sought? at hsought
    split at hsought
    case h_1 | h_2 =>
      cases hsought
      exact ⟨_, Session.withFile_of_file hfile, Session.settled_findInstruction heven r.session scope _ _⟩
    case h_3 =>
      cases hsought
      exact ⟨_, Session.withFile_of_file hfile, Session.settled_findCall heven r.session scope _ _⟩
    case h_4 pattern =>
      cases hsought
      obtain ⟨t, ht, hsettled⟩ := Session.settled_findInstructions heven r.session scope pattern
      exact ⟨t, (Session.withFile_of_file hfile).trans ht, hsettled⟩
    case h_5 => cases hsought
  obtain ⟨t, ht, hsettled⟩ := hsession
  refine ⟨t, ?_, hsettled⟩
  have hupdate : r.perform config script command = r.update (r.session.perform script command) := by
    unfold Command.sought? at hsought
    split at hsought <;> first | rfl | cases hsought
  rw [hupdate, ht]
  rfl

/-- A file whose code has two conditional jumps and an instruction between them. -/
def branchingFile : OpenFile :=
  .start "a" "a" (Image.blank [0x01, 0xD1, 0x00, 0xBF, 0xFC, 0xD0] 0x1000)
    (.ofList [⟨0x1000, [0x01, 0xD1], "bne", "#0x1006"⟩, ⟨0x1002, [0x00, 0xBF], "nop", ""⟩,
      ⟨0x1004, [0xFC, 0xD0], "beq", "#0x1000"⟩])

/-- A run in which that file is open, with the cursor inside an instruction. -/
def branchingRun : ScriptRun :=
  ⟨{ Session.start .empty with file := some branchingFile, cursor := 0x1003 }, ⟨[], []⟩, .failing .notConfigured⟩

/-- From there the jump before is two instructions away. -/
theorem ScriptRun.perform_sought_branchingRun :
    branchingRun.session.file = some branchingFile ∧ branchingFile.code.IsEven ∧
      ∃ serves, (Command.findConditionalJump .previous).sought? = some (.previous, serves) ∧
        ∃ t, branchingRun.perform .standard ⟨[], []⟩ (.findConditionalJump .previous)
            = (.ok (), { branchingRun with session := t }) ∧
          t.cursor = 0x1000 ∧
          branchingRun.session.Settled .previous (branchingFile.code.ServesAt (serves branchingFile)) t := by
  have heven : branchingFile.code.IsEven := by decide
  have hsought : (Command.findConditionalJump .previous).sought? = _ := rfl
  obtain ⟨t, ht, hsettled⟩ := ScriptRun.perform_sought .standard ⟨[], []⟩ (r := branchingRun) rfl heven hsought
  refine ⟨rfl, heven, _, rfl, t, ht, ?_, hsettled⟩
  have hcursor :
      (branchingRun.perform .standard ⟨[], []⟩ (.findConditionalJump .previous)).2.session.cursor = 0x1000 := by
    decide +kernel
  rwa [ht] at hcursor

end BinaryPatching
