import BinaryPatching.Proofs.Script.Layout
import Mathlib.Data.List.Induction

/-!
# `BinaryPatching.Proofs.Script.Labels` — where the labels of a script lead

A label stands for the command that follows it, however many blank lines lie between, and at the end of a script for the
position behind all commands. While a script is read, the label that waits for its command counts as standing behind all
commands so far. That is right at any time: when the command comes, this is its position.

## Contents
- `commandLines`, `commandsBefore`: the commands of a layout, and how many of them stand before a line.
- `Draft.Follows`: what is known of a draft by the lines read so far, and what each of them adds.
- `Reads.follows`: what is known of a whole script.
- `labels_exact`: the commands and the labels of every script that is accepted.
-/

namespace BinaryPatching

open Text

namespace Script

/-! ## The commands of a layout -/

/-- **The command lines of a layout** by their numbers and texts. -/
def commandLines (layout : List LineKind) : List (Nat × String) :=
  (layout.zipIdx 1).filterMap fun (kind, number) => kind.command?.map (number, ·)

/-- **The number of command lines** before a line. -/
def commandsBefore (layout : List LineKind) (i : Nat) : Nat := (layout.take i).countP LineKind.isCommand

/-- A line that is a label. -/
def LabelAt (layout : List LineKind) (i : Nat) (name : String) : Prop := layout[i]? = some (.label name)

section Layouts

variable {layout : List LineKind}

theorem commandLines_concat (kind : LineKind) :
    commandLines (layout ++ [kind]) = commandLines layout ++ (kind.command?.map (layout.length + 1, ·)).toList := by
  unfold commandLines
  rw [List.zipIdx_append, List.filterMap_append, Nat.add_comm]
  cases kind <;> rfl

theorem length_commandLines : (commandLines layout).length = commandsBefore layout layout.length := by
  unfold commandsBefore
  rw [List.take_length]
  induction layout using List.reverseRecOn with
  | nil => rfl
  | append_singleton layout kind ih =>
    rw [commandLines_concat, List.length_append, ih, List.countP_append]
    cases kind <;> rfl

theorem commandsBefore_concat {i : Nat} (h : i ≤ layout.length) (kind : LineKind) :
    commandsBefore (layout ++ [kind]) i = commandsBefore layout i := by
  unfold commandsBefore
  rw [List.take_append_of_le_length h]

theorem commandsBefore_le (i : Nat) : commandsBefore layout i ≤ (commandLines layout).length := by
  rw [length_commandLines]
  unfold commandsBefore
  rw [List.take_length]
  exact (List.take_sublist i layout).countP_le

/-- A command line is one of the lines. -/
theorem number_le_of_mem_commandLines {entry : Nat × String} (h : entry ∈ commandLines layout) :
    entry.1 ≤ layout.length := by
  obtain ⟨⟨kind, number⟩, hmem, heq⟩ := List.mem_filterMap.1 h
  obtain ⟨text, _, rfl⟩ := Option.map_eq_some_iff.1 heq
  obtain ⟨_, hlt, _⟩ := List.mem_zipIdx hmem
  show number ≤ layout.length
  omega

/-- Command lines stand in the order of their numbers. -/
theorem pairwise_commandLines : (commandLines layout).Pairwise fun a b => a.1 < b.1 := by
  induction layout using List.reverseRecOn with
  | nil => exact .nil
  | append_singleton layout kind ih =>
    rw [commandLines_concat]
    refine List.pairwise_append.2 ⟨ih, ?_, fun a ha b hb => ?_⟩
    · cases kind <;> simp [LineKind.command?]
    · obtain ⟨text, _, rfl⟩ := Option.map_eq_some_iff.1 (Option.mem_toList.1 hb)
      exact Nat.lt_succ_of_le (number_le_of_mem_commandLines ha)

/-- The labels of a layout with one more line. -/
theorem labelAt_concat {kind : LineKind} {i : Nat} {name : String} :
    LabelAt (layout ++ [kind]) i name ↔
      LabelAt layout i name ∨ (i = layout.length ∧ kind = LineKind.label name) := by
  unfold LabelAt
  rcases Nat.lt_trichotomy i layout.length with hlt | rfl | hgt
  · rw [List.getElem?_append_left hlt]
    exact ⟨.inl, fun h => h.resolve_right fun hlast => absurd hlast.1 (Nat.ne_of_lt hlt)⟩
  · rw [List.getElem?_concat_length, List.getElem?_eq_none (Nat.le_refl _), Option.some_inj]
    exact ⟨fun h => .inr ⟨rfl, h⟩, fun h => (h.resolve_left fun hnone => by cases hnone).2⟩
  · rw [List.getElem?_eq_none (by simp; omega), List.getElem?_eq_none (Nat.le_of_lt hgt)]
    exact ⟨.inl, fun h => h.resolve_right fun hlast => absurd hlast.1 (Nat.ne_of_gt hgt)⟩

theorem lt_length_of_labelAt {i : Nat} {name : String} (h : LabelAt layout i name) : i < layout.length :=
  (List.getElem?_eq_some_iff.1 h).1

end Layouts

/-! ## Drafts -/

namespace Draft

theorem lookup_singleton_eq_some {name label : String} {n p : Nat} :
    [(label, n)].lookup name = some p ↔ label = name ∧ n = p := by
  rw [List.lookup_cons, List.lookup_nil]
  cases heq : name == label with
  | false => exact ⟨fun h => (by cases h), fun h => absurd h.1.symm (beq_eq_false_iff_ne.1 heq)⟩
  | true => exact ⟨fun h => ⟨(beq_iff_eq.1 heq).symm, Option.some.inj h⟩, fun h => congrArg some h.2⟩

/-- **What is known of a draft** by the lines read so far. -/
structure Follows (layout : List LineKind) (d : Draft) : Prop where
  /-- Its commands are the command lines. -/
  lines : d.lines.map (fun line => (line.number, line.text)) = commandLines layout
  /-- Its labels are those of the label lines, and lead behind the commands before them. -/
  labels : ∀ name p, d.settledLabels.lookup name = some p ↔
    ∃ i, LabelAt layout i name ∧ p = commandsBefore layout i
  /-- No two label lines have the same name. -/
  once : ∀ name i j, LabelAt layout i name → LabelAt layout j name → i = j
  /-- The label that waits is not given to a command. -/
  waits : ∀ name, d.pending = some name → d.labels.lookup name = none
  /-- The label of a command leads to it. -/
  ofLine : ∀ (i : Nat) line name, d.lines[i]? = some line → line.label = some name → d.labels.lookup name = some i
  /-- Where a label leads that does not wait, there is a command with it. -/
  ofLabel : ∀ name p, d.labels.lookup name = some p → ∃ line, d.lines[p]? = some line ∧ line.label = some name

variable {layout : List LineKind} {d : Draft}

theorem settledLabels_of_pending {name : String} (h : d.pending = some name) :
    d.settledLabels = d.labels ++ [(name, d.lines.length)] := by
  rw [settledLabels, h]

theorem settledLabels_of_not_pending (h : d.pending = none) : d.settledLabels = d.labels := by
  rw [settledLabels, h]

/-- The labels of a draft lead where they lead when the one that waits is settled. -/
theorem lookup_settledLabels {name : String} {p : Nat} (h : d.labels.lookup name = some p) :
    d.settledLabels.lookup name = some p := by
  cases hpending : d.pending with
  | none => rwa [settledLabels_of_not_pending hpending]
  | some label => rw [settledLabels_of_pending hpending, List.lookup_append, h, Option.some_or]

/-- A settled label is one given to a command, or the one that waits. -/
theorem lookup_settledLabels_cases {name : String} {p : Nat} (h : d.settledLabels.lookup name = some p) :
    d.labels.lookup name = some p ∨ (d.pending = some name ∧ p = d.lines.length) := by
  cases hpending : d.pending with
  | none => exact .inl (settledLabels_of_not_pending hpending ▸ h)
  | some label =>
    rw [settledLabels_of_pending hpending, List.lookup_append] at h
    rcases Option.or_eq_some_iff.1 h with h | ⟨_, h⟩
    · exact .inl h
    · obtain ⟨rfl, rfl⟩ := lookup_singleton_eq_some.1 h
      exact .inr ⟨rfl, rfl⟩

namespace Follows

theorem empty : Follows [] ⟨[], [], none⟩ where
  lines := rfl
  labels name p := ⟨fun h => (by cases h), fun ⟨_, h, _⟩ => (by cases h)⟩
  once _ _ _ h := by cases h
  waits _ h := by cases h
  ofLine _ _ _ h := by cases h
  ofLabel _ _ h := by cases h

theorem length_lines (h : d.Follows layout) : d.lines.length = commandsBefore layout layout.length := by
  rw [← length_commandLines, ← h.lines, List.length_map]

/-- One more line that is no label leaves the labels alone. -/
theorem labels_concat (h : d.Follows layout) {kind : LineKind} (hkind : ∀ name, kind ≠ LineKind.label name)
    (name : String) (p : Nat) :
    d.settledLabels.lookup name = some p ↔
      ∃ i, LabelAt (layout ++ [kind]) i name ∧ p = commandsBefore (layout ++ [kind]) i := by
  rw [h.labels]
  constructor
  · rintro ⟨i, hi, hp⟩
    have hle := Nat.le_of_lt (lt_length_of_labelAt hi)
    exact ⟨i, labelAt_concat.2 (.inl hi), hp.trans (commandsBefore_concat hle kind).symm⟩
  · rintro ⟨i, hi, hp⟩
    rcases labelAt_concat.1 hi with hi | ⟨_, hlabel⟩
    · have hle := Nat.le_of_lt (lt_length_of_labelAt hi)
      exact ⟨i, hi, hp.trans (commandsBefore_concat hle kind)⟩
    · exact absurd hlabel (hkind name)

theorem once_concat (h : d.Follows layout) {kind : LineKind} (hkind : ∀ name, kind ≠ LineKind.label name)
    (name : String) (i j : Nat) (hi : LabelAt (layout ++ [kind]) i name) (hj : LabelAt (layout ++ [kind]) j name) :
    i = j := by
  rcases labelAt_concat.1 hi with hi | ⟨_, hlabel⟩
  · rcases labelAt_concat.1 hj with hj | ⟨_, hlabel⟩
    · exact h.once name i j hi hj
    · exact absurd hlabel (hkind name)
  · exact absurd hlabel (hkind name)

/-- **A line that is neither label nor command** adds nothing. -/
theorem skip (h : d.Follows layout) {kind : LineKind} (hlabel : ∀ name, kind ≠ LineKind.label name)
    (hcommand : kind.command? = none) : d.Follows (layout ++ [kind]) where
  lines := by
    rw [commandLines_concat, hcommand, h.lines]
    exact (List.append_nil _).symm
  labels := h.labels_concat hlabel
  once := h.once_concat hlabel
  waits := h.waits
  ofLine := h.ofLine
  ofLabel := h.ofLabel

/-- **A label** waits behind all commands so far. -/
theorem label (h : d.Follows layout) {name : String} (hpending : d.pending = none)
    (hfresh : d.labels.lookup name = none) :
    Follows (layout ++ [LineKind.label name]) { d with pending := some name } := by
  have hsettled : settledLabels { d with pending := some name } = d.labels ++ [(name, d.lines.length)] := rfl
  have hnew (i : Nat) : ¬LabelAt layout i name := by
    intro hi
    have hlookup := (h.labels name _).2 ⟨i, hi, rfl⟩
    rw [settledLabels_of_not_pending hpending, hfresh] at hlookup
    cases hlookup
  have hlast : commandsBefore (layout ++ [LineKind.label name]) layout.length = d.lines.length := by
    rw [commandsBefore_concat (Nat.le_refl _), h.length_lines]
  refine
    { lines := ?lines
      labels := ?labels
      once := ?once
      waits := ?waits
      ofLine := h.ofLine
      ofLabel := h.ofLabel }
  case lines =>
    rw [commandLines_concat, h.lines]
    exact (List.append_nil _).symm
  case labels =>
    intro other p
    have hold := h.labels other p
    rw [settledLabels_of_not_pending hpending] at hold
    rw [hsettled, List.lookup_append, Option.or_eq_some_iff, hold, lookup_singleton_eq_some]
    constructor
    · rintro (⟨i, hi, hp⟩ | ⟨_, rfl, rfl⟩)
      · have hle := Nat.le_of_lt (lt_length_of_labelAt hi)
        exact ⟨i, labelAt_concat.2 (.inl hi), hp.trans (commandsBefore_concat hle _).symm⟩
      · exact ⟨layout.length, labelAt_concat.2 (.inr ⟨rfl, rfl⟩), hlast.symm⟩
    · rintro ⟨i, hi, hp⟩
      rcases labelAt_concat.1 hi with hi | ⟨rfl, heq⟩
      · have hle := Nat.le_of_lt (lt_length_of_labelAt hi)
        exact .inl ⟨i, hi, hp.trans (commandsBefore_concat hle _)⟩
      · cases heq
        exact .inr ⟨hfresh, rfl, hlast.symm.trans hp.symm⟩
  case once =>
    intro other i j hi hj
    rcases labelAt_concat.1 hi with hi | ⟨rfl, hname⟩
    · rcases labelAt_concat.1 hj with hj | ⟨rfl, hname⟩
      · exact h.once other i j hi hj
      · cases hname
        exact absurd hi (hnew i)
    · rcases labelAt_concat.1 hj with hj | ⟨rfl, _⟩
      · cases hname
        exact absurd hj (hnew j)
      · rfl
  case waits =>
    intro other hother
    cases hother
    exact hfresh

/-- **A command** takes the label that waits, which leads to it. -/
theorem addCommand (h : d.Follows layout) {number : Nat} (hnumber : number = layout.length + 1) (text : List Char)
    (command : Command) :
    (d.addCommand number text command).Follows (layout ++ [.command (String.ofList text)]) := by
  have hlabel : ∀ name, LineKind.command (String.ofList text) ≠ LineKind.label name := fun _ heq => by cases heq
  have hlines : (d.addCommand number text command).lines
      = d.lines ++ [⟨number, d.pending, String.ofList text, command⟩] := rfl
  have hlabels : (d.addCommand number text command).labels = d.settledLabels := rfl
  have hsettled : (d.addCommand number text command).settledLabels = d.settledLabels := rfl
  refine
    { lines := ?lines
      labels := fun name p => hsettled ▸ h.labels_concat hlabel name p
      once := h.once_concat hlabel
      waits := fun _ hpending => (by cases hpending)
      ofLine := ?ofLine
      ofLabel := ?ofLabel }
  case lines =>
    rw [hlines, List.map_append, h.lines, commandLines_concat, hnumber]
    rfl
  case ofLine =>
    intro i line name hi hname
    rw [hlines] at hi
    rw [hlabels]
    rcases Nat.lt_trichotomy i d.lines.length with hlt | rfl | hgt
    · rw [List.getElem?_append_left hlt] at hi
      exact lookup_settledLabels (h.ofLine i line name hi hname)
    · rw [List.getElem?_concat_length] at hi
      cases hi
      rw [settledLabels_of_pending hname, List.lookup_append, h.waits name hname, Option.none_or]
      exact lookup_singleton_eq_some.2 ⟨rfl, rfl⟩
    · rw [List.getElem?_eq_none (by simp; omega)] at hi
      cases hi
  case ofLabel =>
    intro name p hp
    rw [hlabels] at hp
    rw [hlines]
    rcases lookup_settledLabels_cases hp with hp | ⟨hpending, rfl⟩
    · obtain ⟨line, hline, hname⟩ := h.ofLabel name p hp
      have hlt : p < d.lines.length := (List.getElem?_eq_some_iff.1 hline).1
      exact ⟨line, (List.getElem?_append_left hlt).trans hline, hname⟩
    · exact ⟨_, List.getElem?_concat_length, hpending⟩

/-- **A block** adds nothing but the command before it. -/
theorem block (h : d.Follows layout) (n : Nat) : d.Follows (layout ++ List.replicate n .code ++ [.codeEnd]) := by
  refine skip ?_ (fun _ heq => by cases heq) rfl
  induction n with
  | zero => rwa [List.replicate_zero, List.append_nil]
  | succ n ih =>
    rw [List.replicate_succ', ← List.append_assoc]
    exact ih.skip (fun _ heq => by cases heq) rfl

end Follows

end Draft

/-! ## Scripts -/

/-- **What is known of a draft** when all its lines have been read. -/
theorem Reads.follows {number : Nat} {d e : Draft} {lines : List (List Char)} (h : Reads number d lines e)
    {seen : List LineKind} (hnumber : number = seen.length + 1) (hd : d.Follows seen) :
    e.Follows (seen ++ kindsFrom false lines) := by
  induction h generalizing seen with
  | done => rwa [kindsFrom, List.append_nil]
  | @blank _ _ _ _ rest hkind _ ih =>
    rw [kindsFrom_cons hkind, List.append_cons]
    exact ih (by rw [hnumber, List.length_append]; rfl) (hd.skip (fun _ heq => by cases heq) rfl)
  | @label _ _ _ _ rest _ hkind hpending hfresh _ ih =>
    rw [kindsFrom_cons hkind, List.append_cons]
    exact ih (by rw [hnumber, List.length_append]; rfl) (hd.label hpending hfresh)
  | @command _ _ _ _ text rest command hkind hblock _ _ ih =>
    have hopens : (LineKind.command (String.ofList text)).opensBlock = false := by
      rw [LineKind.opensBlock, String.toList_ofList, hblock]
    rw [kindsFrom_cons hkind, hopens, List.append_cons]
    exact ih (by rw [hnumber, List.length_append]; rfl) (hd.addCommand hnumber text command)
  | @block _ _ _ _ text last body behind command hkind hblock hbody hlast _ _ ih =>
    have hopens : (LineKind.command (String.ofList text)).opensBlock = true := by
      rw [LineKind.opensBlock, String.toList_ofList, hblock]
    have hseen := (hd.addCommand hnumber text command).block body.length
    rw [kindsFrom_cons hkind, hopens, kindsFrom_block hbody hlast, List.append_cons, ← List.append_assoc,
      List.append_cons _ _ (kindsFrom false behind)]
    refine ih ?_ hseen
    rw [hnumber]
    simp only [List.length_append, List.length_replicate, List.length_singleton]

/-- A script that is accepted follows its layout. -/
theorem follows_of_parse {source : String} {script : Script} (h : parse source = .ok script) :
    ∃ d : Draft, d.Follows (kinds source) ∧ script.lines = d.lines ∧ script.labels = d.settledLabels := by
  obtain ⟨d, hreads, hlines, hlabels⟩ := reads_of_parse h
  have hfollows : d.Follows ([] ++ kinds source) := hreads.follows rfl .empty
  exact ⟨d, hfollows, hlines, hlabels⟩

/-- **The commands and labels of a script.** The commands are those of the command lines in order. Every label line has
a name of its own, which stands for the number of command lines before it; all labels come from such lines. The label of
a command stands for its position, and where a label stands for the position of a command, the command has it. -/
theorem labels_exact {source : String} {script : Script} (h : parse source = .ok script) :
    script.lines.map (fun line => (line.number, line.text)) = commandLines (kinds source) ∧
      script.lines.Pairwise (fun a b => a.number < b.number) ∧
      (∀ i name, LabelAt (kinds source) i name →
        (∀ j, LabelAt (kinds source) j name → j = i) ∧
          script.labelPosition? name = some (commandsBefore (kinds source) i) ∧
          commandsBefore (kinds source) i ≤ script.size) ∧
      (∀ name p, script.labelPosition? name = some p → ∃ i, LabelAt (kinds source) i name) ∧
      (∀ (i : Nat) line name, script.lines[i]? = some line → line.label = some name →
        script.labelPosition? name = some i) ∧
      (∀ name p, script.labelPosition? name = some p → p < script.size →
        ∃ line, script.lines[p]? = some line ∧ line.label = some name) := by
  obtain ⟨d, hd, hlines, hlabels⟩ := follows_of_parse h
  have hsize : script.size = (commandLines (kinds source)).length := by
    rw [← hd.lines, List.length_map, ← hlines]
    rfl
  have hposition (name : String) : script.labelPosition? name = d.settledLabels.lookup name := by
    rw [labelPosition?, hlabels]
  refine ⟨hlines ▸ hd.lines, ?_, fun i name hi => ⟨fun j hj => hd.once name j i hj hi, ?_, ?_⟩, ?_, ?_, ?_⟩
  · have hpairwise : (d.lines.map fun line => (line.number, line.text)).Pairwise fun a b => a.1 < b.1 :=
      hd.lines ▸ pairwise_commandLines
    rw [List.pairwise_map] at hpairwise
    exact hlines ▸ hpairwise
  · rw [hposition]
    exact (hd.labels name _).2 ⟨i, hi, rfl⟩
  · rw [hsize]
    exact commandsBefore_le i
  · intro name p hp
    rw [hposition] at hp
    obtain ⟨i, hi, _⟩ := (hd.labels name p).1 hp
    exact ⟨i, hi⟩
  · intro i line name hi hname
    rw [hlines] at hi
    rw [hposition]
    exact Draft.lookup_settledLabels (hd.ofLine i line name hi hname)
  · intro name p hp hlt
    rw [hposition] at hp
    rw [hlines]
    rcases Draft.lookup_settledLabels_cases hp with hp | ⟨_, rfl⟩
    · exact hd.ofLabel name p hp
    · rw [size, hlines] at hlt
      exact absurd hlt (Nat.lt_irrefl _)

/-- A text with a label before a block, what looks like one in it, one behind it, and one at the end. -/
def labelledText : String := "A:\n\nPatchCode\nB:\nEndCode\nC:\nClosePatchFile\nD:"

/-- The script of that text. -/
def labelled : Script :=
  ⟨[⟨3, some "A", "PatchCode", .patchCode .thumb2 "B:"⟩, ⟨7, some "C", "ClosePatchFile", .closeFile⟩],
    [("A", 0), ("C", 1), ("D", 2)]⟩

/-- Its labels lead to its commands and to its end. -/
theorem labels_exact_labelled :
    parse labelledText = .ok labelled ∧ commandLines (kinds labelledText) = [(3, "PatchCode"), (7, "ClosePatchFile")] ∧
      labelled.labelPosition? "C" = some 1 ∧ labelled.labelPosition? "D" = some 2 ∧
      labelled.labelPosition? "B" = none := by
  have hparse : parse labelledText = .ok labelled := parse_eq_ok (by decide +kernel)
  have hkinds : kinds labelledText = [.label "A", .blank, .command "PatchCode", .code, .codeEnd, .label "C",
      .command "ClosePatchFile", .label "D"] := by decide
  obtain ⟨hlines, _, hlabel, hfrom, _, _⟩ := labels_exact hparse
  rw [hkinds] at hlines hlabel hfrom
  refine ⟨hparse, hkinds ▸ hlines.symm, (hlabel 5 "C" rfl).2.1, (hlabel 7 "D" rfl).2.1, ?_⟩
  cases hlost : labelled.labelPosition? "B" with
  | none => rfl
  | some p =>
    obtain ⟨i, hi⟩ := hfrom "B" p hlost
    exact absurd (List.mem_of_getElem? hi) (by decide)

end Script

end BinaryPatching
