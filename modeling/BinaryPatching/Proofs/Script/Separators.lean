import BinaryPatching.Proofs.Script.Phrases

/-!
# `BinaryPatching.Proofs.Script.Separators` — commas and blanks between the values of a command

Values that are told by their places can be separated by commas or by blanks alone. Both are alike unless a negative
number stands behind another value: with a comma between them it is a value, with a blank its sign is an operator, and
the line is refused unless there are too many values before it anyway.

## Contents
- `CommandForm.bindArguments_minus_eq_iff`: when a minus sign is like a value in its place.
- `CommandForm.bind_commas_places`: what becomes of values told by their places.
- `separators_alike_iff`: when commas and blanks are alike.
-/

namespace BinaryPatching

open Text

namespace Filling

variable {form : CommandForm}

/-- Values that are not complete lack a parameter. -/
theorem eq_missingParameter_of_complete {command : String} {f : Filling} {ps : List Parameter} {e : BindError}
    (h : f.complete command ps = .error e) : ∃ name, e = .missingParameter command name := by
  induction ps with
  | nil => cases h
  | cons p ps ih =>
    unfold complete at h
    split at h
    · cases h
      exact ⟨p.name, rfl⟩
    · cases hrest : f.complete command ps with
      | ok values =>
        rw [hrest] at h
        cases h
      | error e' =>
        rw [hrest] at h
        cases h
        exact ih hrest

end Filling

namespace CommandForm

variable {form : CommandForm}

/-- Values that go to parameters are not unexpected. -/
theorem bindArguments_ne_unexpected (hform : form ∈ all) {arguments : List Argument} {f : Filling}
    (h : Filling.start.addAll form arguments = .ok f) (body text : String) :
    form.bindArguments arguments body ≠ .error (.unexpectedToken text) := by
  unfold bindArguments
  rw [h]
  dsimp only
  split
  · rename_i e he
    obtain ⟨name, rfl⟩ := Filling.eq_missingParameter_of_complete he
    intro heq
    cases heq
  · rename_i values _
    intro hbuild
    have hbuilds := builds hform ⟨values, body⟩
    rw [hbuild] at hbuilds
    obtain ⟨name, value, fault, he⟩ := hbuilds
    cases he

/-- Values that are told by their places go to parameters, or are too many. -/
theorem addAll_literals (form : CommandForm) (literals : List Literal) :
    (literals.length ≤ form.parameters.length →
        ∃ f, Filling.start.addAll form (literals.map (.positional ·.value)) = .ok f) ∧
      (form.parameters.length < literals.length →
        Filling.start.addAll form (literals.map (.positional ·.value))
          = .error (.tooManyParameters form.name form.parameters.length)) := by
  have hadd := Filling.addAll_positional [] (Nat.zero_le form.parameters.length) (literals.map Literal.value)
  rw [List.map_map, List.length_map, Nat.zero_add] at hadd
  constructor
  · intro hle
    rw [if_pos hle] at hadd
    exact ⟨_, hadd⟩
  · intro hlt
    rw [if_neg (Nat.not_le.2 hlt)] at hadd
    exact hadd

theorem bindArguments_literals_ne (hform : form ∈ all) (literals : List Literal) (body text : String) :
    form.bindArguments (literals.map (.positional ·.value)) body ≠ .error (.unexpectedToken text) := by
  obtain ⟨hfits, hmany⟩ := addAll_literals form literals
  by_cases hle : literals.length ≤ form.parameters.length
  · obtain ⟨f, hf⟩ := hfits hle
    exact bindArguments_ne_unexpected hform hf body text
  · rw [bindArguments, hmany (Nat.not_le.1 hle)]
    intro heq
    cases heq

/-- **Values with a minus sign behind them** are refused for the sign, if they are not too many. -/
theorem bindArguments_minus (form : CommandForm) (literals : List Literal) (body : String) :
    form.bindArguments (literals.map (.positional ·.value) ++ [.unexpected "-"]) body =
      .error (if literals.length ≤ form.parameters.length then .unexpectedToken "-"
        else .tooManyParameters form.name form.parameters.length) := by
  obtain ⟨hfits, hmany⟩ := addAll_literals form literals
  rw [bindArguments, Filling.addAll_append]
  by_cases hle : literals.length ≤ form.parameters.length
  · obtain ⟨f, hf⟩ := hfits hle
    rw [hf, if_pos hle]
    rfl
  · rw [hmany (Nat.not_le.1 hle), if_neg hle]

/-- **A minus sign and a value** are alike only behind too many values. -/
theorem bindArguments_minus_eq_iff (hform : form ∈ all) (front : List Literal) (l : Literal) (rest : List Literal)
    (body : String) :
    form.bindArguments (front.map (.positional ·.value) ++ [.unexpected "-"]) body
        = form.bindArguments ((front ++ l :: rest).map (.positional ·.value)) body ↔
      form.parameters.length < front.length := by
  rw [bindArguments_minus]
  by_cases hle : front.length ≤ form.parameters.length
  · rw [if_pos hle]
    have hne := bindArguments_literals_ne hform (front ++ l :: rest) body "-"
    exact ⟨fun heq => absurd heq.symm hne, fun hlt => absurd hle (Nat.not_le.2 hlt)⟩
  · have hmany := (addAll_literals form (front ++ l :: rest)).2 (by rw [List.length_append]; omega)
    rw [if_neg hle, bindArguments, hmany]
    exact ⟨fun _ => Nat.not_le.1 hle, fun _ => rfl⟩

end CommandForm

/-! ## Lines of values -/

/-- What becomes of values alone with commas between them. -/
theorem CommandForm.bind_commas_places {form : CommandForm} (hform : form ∈ all) (h : form.Heading)
    (literals : List Literal) (body : String) :
    BinaryPatching.bind (h.line "," (literals.map Literal.source)) body =
      form.bindArguments
        (if literals.head?.any Literal.isNegative then [.unexpected "-"] else literals.map (.positional ·.value))
        body := by
  have hsources : literals.map Literal.source = (literals.map Phrase.place).map Phrase.source := by
    rw [List.map_map]
    rfl
  have harguments : commaArguments (literals.map .place) =
      if literals.head?.any Literal.isNegative then [.unexpected "-"] else literals.map (.positional ·.value) := by
    cases literals with
    | nil => rfl
    | cons l literals =>
      rw [List.map_cons, commaArguments_cons, List.map_map]
      rfl
  rw [hsources, bind_commas hform, harguments]

/-- The values before the first negative number. -/
theorem exists_eq_append_of_isNegative {literals : List Literal} (h : ¬∀ l ∈ literals, l.isNegative = false) :
    ∃ front l rest, literals = front ++ l :: rest ∧ l.isNegative = true ∧ ∀ k ∈ front, k.isNegative = false := by
  cases hfound : literals.find? Literal.isNegative with
  | none => exact absurd (fun l hl => eq_false_of_ne_true (List.find?_eq_none.1 hfound l hl)) h
  | some l =>
    obtain ⟨hl, front, rest, heq, hfront⟩ := List.find?_eq_some_iff_append.1 hfound
    exact ⟨front, l, rest, heq, hl, fun k hk => by simpa using hfront k hk⟩

/-- The first negative number is among the first values if not too many are before it. -/
theorem forall_mem_take_iff {front : List Literal} (hfront : ∀ k ∈ front, k.isNegative = false) {l : Literal}
    (hl : l.isNegative = true) (rest : List Literal) (n : Nat) :
    (∀ k ∈ (front ++ l :: rest).take (n + 1), k.isNegative = false) ↔ n < front.length := by
  constructor
  · intro hnone
    by_contra hle
    have hmem : l ∈ (front ++ l :: rest).take (n + 1) := by
      rw [List.take_append, Nat.succ_sub (Nat.not_lt.1 hle)]
      exact List.mem_append_right _ List.mem_cons_self
    rw [hnone l hmem] at hl
    cases hl
  · intro hlt k hk
    rw [List.take_append_of_le_length hlt] at hk
    exact hfront k (List.mem_of_mem_take hk)

/-- **Commas and blanks are alike** exactly if the first value is a negative number, or none of the first values is, up
to one more than there are parameters. Where they differ the line with blanks is refused for a minus sign. -/
theorem separators_alike_iff {form : CommandForm} (hform : form ∈ CommandForm.all) (h : form.Heading)
    (literals : List Literal) (body : String) :
    (bind (h.line " " (literals.map Literal.source)) body = bind (h.line "," (literals.map Literal.source)) body ↔
        literals.head?.any Literal.isNegative = true ∨
          ∀ l ∈ literals.take (form.parameters.length + 1), l.isNegative = false) ∧
      (bind (h.line " " (literals.map Literal.source)) body = bind (h.line "," (literals.map Literal.source)) body ∨
        bind (h.line " " (literals.map Literal.source)) body = .error (.unexpectedToken "-")) := by
  rw [CommandForm.bind_blanks hform, CommandForm.bind_commas_places hform]
  by_cases hclear : ∀ l ∈ literals, l.isNegative = false
  · -- No value begins with a sign, so that both lines are read alike.
    have hhead : literals.head?.any Literal.isNegative = false := by
      cases literals with
      | nil => rfl
      | cons l literals => exact hclear l List.mem_cons_self
    have hblanks := blankArguments_append hclear []
    rw [List.append_nil, blankArguments, List.append_nil] at hblanks
    rw [hhead, hblanks, if_neg Bool.false_ne_true]
    exact ⟨⟨fun _ => .inr fun l hl => hclear l (List.mem_of_mem_take hl), fun _ => rfl⟩, .inl rfl⟩
  · obtain ⟨front, l, rest, rfl, hl, hfront⟩ := exists_eq_append_of_isNegative hclear
    have hblanks : blankArguments (front ++ l :: rest) = front.map (.positional ·.value) ++ [.unexpected "-"] := by
      rw [blankArguments_append hfront, blankArguments, if_pos hl]
    rw [hblanks]
    cases front with
    | nil =>
      have hhead : ([] ++ l :: rest).head?.any Literal.isNegative = true := hl
      rw [hhead]
      exact ⟨⟨fun _ => .inl rfl, fun _ => rfl⟩, .inl rfl⟩
    | cons k front =>
      have hhead : (k :: front ++ l :: rest).head?.any Literal.isNegative = false := hfront k List.mem_cons_self
      have halike := CommandForm.bindArguments_minus_eq_iff hform (k :: front) l rest body
      rw [hhead, if_neg Bool.false_ne_true, halike, forall_mem_take_iff hfront hl]
      refine ⟨⟨.inr, fun hor => hor.resolve_left Bool.false_ne_true⟩, ?_⟩
      rw [CommandForm.bindArguments_minus]
      by_cases hle : (k :: front).length ≤ form.parameters.length
      · exact .inr (by rw [if_pos hle])
      · exact .inl (Nat.not_le.1 hle)

/-- The form of the commands that look for instructions from the start on. -/
def instructionForm : CommandForm :=
  ⟨"FindFirstInstructionPattern", CommandForm.patternParameters, CommandForm.findInstructions .first⟩

/-- The name of such a command. -/
def instructionHeading : instructionForm.Heading :=
  .ofName "FindFirstInstructionPattern" (by decide) (by decide)

/-- A pattern. -/
def callPattern : Literal := .ofString "bl ?" (by decide)

/-- A negative index. -/
def minusOne : Literal := .ofNumber "-1" (-1) (by decide) (by decide)

/-- Commas and blanks are alike before an index that is not negative. -/
theorem separators_alike_iff_index :
    instructionForm ∈ CommandForm.all ∧
      bind "FindFirstInstructionPattern \"bl ?\" 1" "" = bind "FindFirstInstructionPattern \"bl ?\",1" "" := by
  have hform : instructionForm ∈ CommandForm.all := by simp [CommandForm.all, instructionForm]
  have halike := separators_alike_iff hform instructionHeading
    [callPattern, .ofNumber "1" 1 (by decide) (by decide)] ""
  exact ⟨hform, halike.1.2 (.inr (by decide))⟩

/-- **Separators that differ**: the line with a comma looks one instruction before the pattern, and the line with a
blank is refused. -/
theorem exists_separators_ne :
    ¬∀ form ∈ CommandForm.all, ∀ (h : form.Heading) (literals : List Literal) (body : String),
      bind (h.line " " (literals.map Literal.source)) body = bind (h.line "," (literals.map Literal.source)) body := by
  intro hall
  have hform : instructionForm ∈ CommandForm.all := by simp [CommandForm.all, instructionForm]
  have hsame := hall instructionForm hform instructionHeading [callPattern, minusOne] ""
  have hblanks : blankArguments [callPattern, minusOne]
      = [callPattern].map (.positional ·.value) ++ [.unexpected "-"] := by cbv
  have hhead : [callPattern, minusOne].head?.any Literal.isNegative = false := rfl
  rw [CommandForm.bind_blanks hform, CommandForm.bind_commas_places hform, hblanks, hhead,
    if_neg Bool.false_ne_true] at hsame
  exact absurd ((CommandForm.bindArguments_minus_eq_iff hform [callPattern] minusOne [] "").1 hsame) (by decide)

end BinaryPatching
