import BinaryPatching.Proofs.Script.Layout
import BinaryPatching.Proofs.Script.Vocabulary

/-!
# `BinaryPatching.Proofs.Script.CodeBlocks` — the blocks of commands for code

A command for code takes the lines behind it up to the first that ends a block, and all other lines are read as lines of
the script. What ends a block is decided by a line as it stands, with its comment if it has one. Outside of blocks
comments are taken away first, so that the end of a block with a comment behind it goes into the code, together with
what follows.

## Contents
- `blockUpTo`, `endsBlockUncommented`: the block behind a command, and the lines that would end it without their
  comments.
- `Reads.takes`: every command for code has the block behind it.
- `Reads.ordinary`: every line is read as one of the script, or is in a block.
- `patchCode_blocks`: the blocks of scripts, and which of them go beyond an end with a comment.
-/

namespace BinaryPatching

open Text

namespace Script

/-! ## Blocks -/

/-- **The block** at the front of some lines, up to the first that ends it. -/
def blockUpTo (ends : List Char → Bool) (lines : List (List Char)) : List (List Char) :=
  lines.takeWhile fun line => !ends line

/-- Whether a line ends a block once its comment is taken away. -/
def endsBlockUncommented (line : List Char) : Bool := isBlockEnd (trim (withoutComment line))

section Blocks

variable {ends : List Char → Bool} {lines body behind : List (List Char)} {last : List Char}

theorem not_ends_of_mem_blockUpTo {line : List Char} (h : line ∈ blockUpTo ends lines) : ends line = false := by
  have hnot := List.all_eq_true.1 List.all_takeWhile line h
  rwa [Bool.not_eq_true'] at hnot

theorem blockUpTo_append (hbody : ∀ line ∈ body, ends line = false) (hlast : ends last = true) :
    blockUpTo ends (body ++ last :: behind) = body := by
  unfold blockUpTo
  rw [List.takeWhile_append_of_pos fun line hline => by rw [hbody line hline]; rfl,
    List.takeWhile_cons_of_neg (by rw [hlast]; exact Bool.false_ne_true), List.append_nil]

/-- Behind a block is the line that ends it. -/
theorem exists_eq_blockUpTo_append (h : ∃ line ∈ lines, ends line = true) :
    ∃ last behind, lines = blockUpTo ends lines ++ last :: behind ∧ ends last = true := by
  induction lines with
  | nil =>
    obtain ⟨line, hline, _⟩ := h
    exact absurd hline List.not_mem_nil
  | cons line rest ih =>
    unfold blockUpTo
    cases hline : ends line with
    | true => exact ⟨line, rest, by rw [List.takeWhile_cons_of_neg (by simp [hline])]; rfl, hline⟩
    | false =>
      obtain ⟨other, hother, hend⟩ := h
      rcases List.mem_cons.1 hother with rfl | hother
      · rw [hline] at hend
        cases hend
      · obtain ⟨last, behind, hrest, hlast⟩ := ih ⟨other, hother, hend⟩
        refine ⟨last, behind, ?_, hlast⟩
        rw [List.takeWhile_cons_of_pos (by rw [hline]; rfl), List.cons_append]
        exact congrArg (line :: ·) hrest

end Blocks

/-! ## Ends with comments -/

/-- A line without slashes has no comment. -/
theorem beforeComment_eq_self {line : List Char} (h : '/' ∉ line) (quoted escaped : Bool) :
    beforeComment quoted escaped line = line := by
  induction line generalizing quoted escaped with
  | nil => rfl
  | cons c rest ih =>
    have hc : c ≠ '/' := fun heq => h (heq ▸ List.mem_cons_self)
    have hrest := ih fun hmem => h (List.mem_cons_of_mem c hmem)
    rw [beforeComment, hrest, hrest, hrest]
    split
    · rfl
    · split
      · rfl
      · rw [if_neg fun hslash => hc hslash.1]

/-- What ends a block has no slashes. -/
theorem slash_not_mem_of_endsBlock {line : List Char} (h : endsBlock line = true) : '/' ∉ line := by
  intro hslash
  have hmem : '/' ∈ (trim line).map Char.toLower := List.mem_map_of_mem (mem_trim hslash rfl)
  rcases Bool.or_eq_true_iff.1 h with h | h
  · rw [← String.toList_ofList (l := trim line), equalIgnoringCase_iff.1 h] at hmem
    exact absurd hmem (by decide)
  · rw [← String.toList_ofList (l := trim line), equalIgnoringCase_iff.1 h] at hmem
    exact absurd hmem (by decide)

/-- **What ends a block as it stands** also ends it without its comment, for it has none. -/
theorem endsBlockUncommented_of_endsBlock {line : List Char} (h : endsBlock line = true) :
    endsBlockUncommented line = true := by
  rw [endsBlockUncommented, withoutComment, beforeComment_eq_self (slash_not_mem_of_endsBlock h)]
  exact h

/-- More lines are more code, if the first of them is not empty. -/
theorem length_codeOf_lt {line : List Char} (hline : line ≠ []) (front rest : List (List Char)) :
    (codeOf front).toList.length < (codeOf (front ++ line :: rest)).toList.length := by
  have hpos : 0 < line.length := List.length_pos_iff.2 hline
  have hcons (l : List Char) (more : List (List Char)) : l.length ≤ (codeOf (l :: more)).toList.length := by
    cases more with
    | nil => simp [codeOf]
    | cons next more => simp [codeOf, String.intercalate_cons_cons]
  induction front with
  | nil =>
    have hlength := hcons line rest
    show 0 < (codeOf (line :: rest)).toList.length
    omega
  | cons l front ih =>
    cases front with
    | nil =>
      simp [codeOf, String.intercalate_cons_cons]
    | cons next front =>
      simp [codeOf, String.intercalate_cons_cons] at ih ⊢
      omega

theorem ne_nil_of_endsBlockUncommented {line : List Char} (h : endsBlockUncommented line = true) : line ≠ [] := by
  rintro rfl
  exact absurd h (by decide)

/-- **The block up to an end without its comment** is as much code exactly if no such end is in the block. -/
theorem codeOf_blockUpTo_eq_iff {lines : List (List Char)} (h : ∃ line ∈ lines, endsBlock line = true) :
    codeOf (blockUpTo endsBlock lines) = codeOf (blockUpTo endsBlockUncommented lines) ↔
      ∀ line ∈ blockUpTo endsBlock lines, endsBlockUncommented line = false := by
  obtain ⟨last, behind, hlines, hlast⟩ := exists_eq_blockUpTo_append h
  have hstop : endsBlockUncommented last = true := endsBlockUncommented_of_endsBlock hlast
  generalize blockUpTo endsBlock lines = block at hlines ⊢
  subst hlines
  constructor
  · intro hcode line hline
    by_contra hnot
    -- What is before the first such end is less than the block.
    obtain ⟨first, rest, hblock, hfirst⟩ := exists_eq_blockUpTo_append ⟨line, hline, eq_true_of_ne_false hnot⟩
    have hfront : blockUpTo endsBlockUncommented (block ++ last :: behind) = blockUpTo endsBlockUncommented block := by
      conv_lhs => rw [hblock, List.append_assoc, List.cons_append]
      exact blockUpTo_append (fun _ => not_ends_of_mem_blockUpTo) hfirst
    have hlt := length_codeOf_lt (ne_nil_of_endsBlockUncommented hfirst) (blockUpTo endsBlockUncommented block) rest
    rw [← hblock, hcode, hfront] at hlt
    exact Nat.lt_irrefl _ hlt
  · intro hclear
    rw [blockUpTo_append hclear hstop]

/-! ## Commands and lines -/

/-- **A command has the block behind it** as its code, if it is for code. -/
def HasCode (line : ScriptLine) (behind : List (List Char)) : Prop :=
  ∀ body, line.command.code? = some body →
    (∃ l ∈ behind, endsBlock l = true) ∧ body = codeOf (blockUpTo endsBlock behind)

/-- **A line is read as one of the script**: nothing is left of it without its comment, or it is one of the labels or
one of the commands. -/
def IsOrdinary (script : Script) (number : Nat) (line : List Char) : Prop :=
  match LineKind.ofText (trim (withoutComment line)) with
  | .blank => True
  | .label name => (script.labelPosition? name).isSome = true
  | .command text => ∃ l ∈ script.lines, l.number = number ∧ l.text = text
  | _ => False

/-- **A line is in the block of a command**, or ends it. -/
def Encloses (line : ScriptLine) (behind : List (List Char)) (number : Nat) : Prop :=
  line.command.code?.isSome = true ∧ line.number < number ∧
    number ≤ line.number + (blockUpTo endsBlock behind).length + 1

/-- The lines behind a command, counted from behind some others. -/
theorem drop_append_of_le {α : Type} {front rest : List α} {number n : Nat} (h : number + front.length ≤ n) :
    (front ++ rest).drop (n + 1 - number) = rest.drop (n + 1 - (number + front.length)) := by
  have hlength : n + 1 - number = front.length + (n + 1 - (number + front.length)) := by omega
  rw [hlength, List.drop_length_add_append]

section Reading

variable {number : Nat} {d e : Draft} {lines : List (List Char)}

theorem code?_of_command {text : List Char} {body : String} {command : Command}
    (h : bind (String.ofList text) body = .ok command) :
    command.code? = if hasBlock (commandName text) then some body else none := code?_of_bind h

/-- **Every command for code has the block behind it.** -/
theorem Reads.takes (h : Reads number d lines e) :
    ∀ line ∈ e.lines, line ∈ d.lines ∨
      (number ≤ line.number ∧ HasCode line (lines.drop (line.number + 1 - number))) := by
  -- What is known of a later command is known of it behind the lines read now.
  have hlater {number k : Nat} (front : List (List Char)) {rest : List (List Char)}
      (hk : k = number + front.length) {line : ScriptLine}
      (hline : k ≤ line.number ∧ HasCode line (rest.drop (line.number + 1 - k))) :
      number ≤ line.number ∧ HasCode line ((front ++ rest).drop (line.number + 1 - number)) := by
    subst hk
    rw [drop_append_of_le hline.1]
    exact ⟨Nat.le_trans (Nat.le_add_right _ _) hline.1, hline.2⟩
  induction h with
  | done => exact fun line hline => .inl hline
  | @blank _ _ _ raw rest _ _ ih => exact fun line hline => (ih line hline).imp id (hlater [raw] rfl)
  | @label _ _ _ raw rest _ _ _ _ _ ih => exact fun line hline => (ih line hline).imp id (hlater [raw] rfl)
  | @command number d e raw text rest command _ hblock hbind _ ih =>
    intro line hline
    rcases ih line hline with hold | hnew
    · rcases List.mem_append.1 hold with hold | hthis
      · exact .inl hold
      · obtain rfl := List.mem_singleton.1 hthis
        refine .inr ⟨Nat.le_refl _, fun body hbody => ?_⟩
        rw [code?_of_command hbind, hblock] at hbody
        cases hbody
    · exact .inr (hlater [raw] rfl hnew)
  | @block number d e raw text last body behind command _ hblock hbody hlast hbind _ ih =>
    intro line hline
    rcases ih line hline with hold | hnew
    · rcases List.mem_append.1 hold with hold | hthis
      · exact .inl hold
      · obtain rfl := List.mem_singleton.1 hthis
        refine .inr ⟨Nat.le_refl _, fun code hcode => ?_⟩
        rw [code?_of_command hbind, hblock] at hcode
        obtain rfl : codeOf body = code := Option.some.inj hcode
        show (∃ l ∈ (raw :: (body ++ last :: behind)).drop (number + 1 - number), endsBlock l = true) ∧
          codeOf body = codeOf (blockUpTo endsBlock ((raw :: (body ++ last :: behind)).drop (number + 1 - number)))
        rw [Nat.add_sub_cancel_left, List.drop_succ_cons, List.drop_zero, blockUpTo_append hbody hlast]
        exact ⟨⟨last, List.mem_append_right _ List.mem_cons_self, hlast⟩, rfl⟩
    · have hsplit : raw :: (body ++ last :: behind) = (raw :: (body ++ [last])) ++ behind := by simp
      rw [hsplit]
      exact .inr (hlater _ (by simp; omega) hnew)

/-- Reading adds to the commands, and to the labels. -/
theorem Reads.grows (h : Reads number d lines e) : d.lines <+: e.lines ∧ d.settledLabels <+: e.settledLabels := by
  induction h with
  | done => exact ⟨List.prefix_rfl, List.prefix_rfl⟩
  | blank _ _ ih => exact ih
  | @label _ d e _ _ name _ hpending _ _ ih =>
    refine ⟨ih.1, .trans ?_ ih.2⟩
    show d.settledLabels <+: d.labels ++ [(name, d.lines.length)]
    rw [Draft.settledLabels, hpending]
    exact List.prefix_append _ _
  | command _ _ _ _ ih => exact ⟨(List.prefix_append _ _).trans ih.1, ih.2⟩
  | block _ _ _ _ _ _ ih => exact ⟨(List.prefix_append _ _).trans ih.1, ih.2⟩

/-- **Every line is read as one of the script, or is in a block.** -/
theorem Reads.ordinary (h : Reads number d lines e) {i : Nat} {line : List Char} (hi : lines[i]? = some line) :
    IsOrdinary ⟨e.lines, e.settledLabels⟩ (number + i) line ∨
      ∃ l ∈ e.lines, number ≤ l.number ∧ Encloses l (lines.drop (l.number + 1 - number)) (number + i) := by
  have hlater {number k i j : Nat} {e : Draft} (front : List (List Char)) {rest : List (List Char)} {line : List Char}
      (hk : k = number + front.length) (hj : number + i = k + j)
      (hrest : IsOrdinary ⟨e.lines, e.settledLabels⟩ (k + j) line ∨
        ∃ l ∈ e.lines, k ≤ l.number ∧ Encloses l (rest.drop (l.number + 1 - k)) (k + j)) :
      IsOrdinary ⟨e.lines, e.settledLabels⟩ (number + i) line ∨
        ∃ l ∈ e.lines, number ≤ l.number ∧
          Encloses l ((front ++ rest).drop (l.number + 1 - number)) (number + i) := by
    subst hk
    rw [hj]
    refine hrest.imp id fun ⟨l, hl, hle, hin⟩ => ⟨l, hl, Nat.le_trans (Nat.le_add_right _ _) hle, ?_⟩
    rwa [drop_append_of_le hle]
  induction h generalizing i with
  | done => cases hi
  | @blank number d e raw rest hkind hrest ih =>
    cases i with
    | zero =>
      cases hi
      left
      rw [IsOrdinary, hkind]
      trivial
    | succ i => exact hlater [raw] rfl (by simp; omega) (ih hi)
  | @label number d e raw rest name hkind _ _ hrest ih =>
    cases i with
    | zero =>
      cases hi
      left
      rw [IsOrdinary, hkind]
      have hlookup : (d.labels ++ [(name, d.lines.length)]).lookup name ≠ none := by
        rw [List.lookup_append, List.lookup_cons, beq_self_eq_true]
        cases d.labels.lookup name <;> exact Option.some_ne_none _
      obtain ⟨p, hp⟩ := Option.ne_none_iff_exists'.1 hlookup
      exact Option.isSome_of_eq_some (hrest.grows.2.lookup_eq_some hp)
    | succ i => exact hlater [raw] rfl (by simp; omega) (ih hi)
  | @command number d e raw text rest command hkind _ _ hrest ih =>
    cases i with
    | zero =>
      cases hi
      left
      rw [IsOrdinary, hkind]
      exact ⟨_, hrest.grows.1.subset (List.mem_append_right _ (List.mem_singleton_self _)), rfl, rfl⟩
    | succ i => exact hlater [raw] rfl (by simp; omega) (ih hi)
  | @block number d e raw text last body behind command hkind hblock hbody hlast hbind hrest ih =>
    have hmem : ⟨number, d.pending, String.ofList text, command⟩ ∈ e.lines :=
      hrest.grows.1.subset (List.mem_append_right _ (List.mem_singleton_self _))
    cases i with
    | zero =>
      cases hi
      left
      rw [IsOrdinary, hkind]
      exact ⟨_, hmem, rfl, rfl⟩
    | succ i =>
      -- The line is in the block or its end, or stands behind it.
      by_cases hin : i ≤ body.length
      · refine .inr ⟨_, hmem, Nat.le_refl _, ?_, ?_, ?_⟩
        · rw [code?_of_command hbind, hblock]
          rfl
        · show number < number + (i + 1)
          omega
        · show number + (i + 1) ≤ number + (blockUpTo endsBlock
            ((raw :: (body ++ last :: behind)).drop (number + 1 - number))).length + 1
          rw [Nat.add_sub_cancel_left, List.drop_succ_cons, List.drop_zero, blockUpTo_append hbody hlast]
          omega
      · have hsplit : raw :: (body ++ last :: behind) = (raw :: (body ++ [last])) ++ behind := by simp
        have hfront : (raw :: (body ++ [last])).length = body.length + 2 := by simp
        obtain ⟨j, rfl⟩ : ∃ j, i = body.length + 1 + j := ⟨i - (body.length + 1), by omega⟩
        have hindex : body.length + 1 + j + 1 - (raw :: (body ++ [last])).length = j := by omega
        rw [hsplit, List.getElem?_append_right (by omega), hindex] at hi
        rw [hsplit]
        exact hlater _ (by omega) (by omega) (ih hi)

end Reading

/-! ## Scripts -/

/-- **The blocks of a script.** The code of a command is what stands behind it up to the first line that ends a block as
it stands, and that line is there. It is the code up to the first line that ends a block without its comment exactly if
no line of the block does. Every other line is read as one of the script. -/
theorem patchCode_blocks {source : String} {script : Script} (h : parse source = .ok script) :
    (∀ line ∈ script.lines, ∀ codeType body, line.command = .patchCode codeType body →
      let behind := (Text.lines source.toList).drop line.number
      (∃ l ∈ behind, endsBlock l = true) ∧ body = codeOf (blockUpTo endsBlock behind) ∧
        (body = codeOf (blockUpTo endsBlockUncommented behind) ↔
          ∀ l ∈ blockUpTo endsBlock behind, endsBlockUncommented l = false)) ∧
      ∀ (i : Nat) line, (Text.lines source.toList)[i]? = some line →
        script.IsOrdinary (i + 1) line ∨
          ∃ l ∈ script.lines, Encloses l ((Text.lines source.toList).drop l.number) (i + 1) := by
  obtain ⟨d, hreads, hlines, hlabels⟩ := reads_of_parse h
  obtain rfl : script = ⟨d.lines, d.settledLabels⟩ := by rw [← hlines, ← hlabels]
  constructor
  · intro line hline codeType body hcommand behind
    rcases hreads.takes line hline with hnone | ⟨_, hcode⟩
    · exact absurd hnone List.not_mem_nil
    · rw [Nat.add_sub_cancel] at hcode
      obtain ⟨hend, rfl⟩ := hcode body (by rw [hcommand]; rfl)
      exact ⟨hend, rfl, codeOf_blockUpTo_eq_iff hend⟩
  · intro i line hi
    rcases hreads.ordinary hi with hordinary | ⟨l, hl, _, hin⟩
    · exact .inl (Nat.add_comm 1 i ▸ hordinary)
    · rw [Nat.add_sub_cancel, Nat.add_comm 1 i] at hin
      exact .inr ⟨l, hl, hin⟩

/-- A text with a block whose end has no comment. -/
def blockText : String := "PatchCode\nnop\nEndCode\nClosePatchFile"

/-- The script of that text. -/
def block : Script := ⟨[⟨1, none, "PatchCode", .patchCode .thumb2 "nop"⟩, ⟨4, none, "ClosePatchFile", .closeFile⟩], []⟩

/-- Its block is what is before the end, with or without comments, and the command behind it is read. -/
theorem patchCode_blocks_block :
    parse blockText = .ok block ∧
      codeOf (blockUpTo endsBlockUncommented ((Text.lines blockText.toList).drop 1)) = "nop" ∧
      block.IsOrdinary 4 "ClosePatchFile".toList := by
  have hparse : parse blockText = .ok block := parse_eq_ok (by decide +kernel)
  have hlines : Text.lines blockText.toList
      = ["PatchCode".toList, "nop".toList, "EndCode".toList, "ClosePatchFile".toList] := by decide
  obtain ⟨hcode, hordinary⟩ := patchCode_blocks hparse
  obtain ⟨_, _, hiff⟩ := hcode _ List.mem_cons_self .thumb2 "nop" rfl
  rw [hlines] at hiff hordinary ⊢
  refine ⟨hparse, (hiff.2 (by decide)).symm, (hordinary 3 _ rfl).resolve_right ?_⟩
  rintro ⟨line, hline, hsome, _, hhigh⟩
  rcases List.mem_cons.1 hline with rfl | hline
  · exact absurd hhigh (by decide)
  · obtain rfl := List.mem_singleton.1 hline
    cases hsome

/-- A text with a block whose first end has a comment. -/
def lostEndText : String := "PatchCode\nnop\nEndCode // done\nPatchCode\nbx lr\nEndCode"

/-- **A block beyond its end**: an end with a comment goes into the code, and the next command with it. -/
theorem exists_code_beyond_end :
    ¬∀ (source : String) (script : Script), parse source = .ok script →
      ∀ line ∈ script.lines, ∀ codeType body, line.command = .patchCode codeType body →
        body = codeOf (blockUpTo endsBlockUncommented ((Text.lines source.toList).drop line.number)) := by
  intro h
  have hparse : parse lostEndText
      = .ok ⟨[⟨1, none, "PatchCode", .patchCode .thumb2 "nop\nEndCode // done\nPatchCode\nbx lr"⟩], []⟩ :=
    parse_eq_ok (by decide +kernel)
  have hend : codeOf (blockUpTo endsBlockUncommented ((Text.lines lostEndText.toList).drop 1)) = "nop" := by
    decide
  exact absurd ((h _ _ hparse _ (List.mem_singleton_self _) _ _ rfl).trans hend) (by decide)

end Script

end BinaryPatching
