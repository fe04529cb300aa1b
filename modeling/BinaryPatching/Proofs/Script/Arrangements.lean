import BinaryPatching.Proofs.Script.Phrases

/-!
# `BinaryPatching.Proofs.Script.Arrangements` — the ways to give the values of a command

The values of a command can be arranged in many ways: some by their places, others by any name of their parameter and in
any order, and those that are standard not at all. Separated by commas, all arrangements make the same command, or find
the same fault with a value. Only where the first value stands alone and is a negative number is its sign taken for an
operator, and the line is refused.

## Contents
- `Arrangement`, `Arrangement.line`: the ways to give values, and the lines they make.
- `BindError.isAboutParameters`: the errors that blame the arrangement.
- `Arrangement.bind_line`: what becomes of a line.
- `arrangements_agree`: all arrangements are alike, and which are not.
-/

namespace BinaryPatching

open Text

/-- **An arrangement of values** that are assigned to the parameters of a command. -/
structure Arrangement (form : CommandForm) (assigned : Parameter → String) where
  /-- The values that are told by their places. -/
  places : List Literal
  /-- The values that are told by names, with their parameters. -/
  named : List (Parameter × Assignment)
  /-- The first parameters have their values by places. -/
  value_places : places.map Literal.value = (form.parameters.take places.length).map assigned
  /-- The names are names of the others. -/
  isNamed : ∀ x ∈ named, x.1 ∈ form.parameters.drop places.length ∧ x.1.isNamed x.2.name = true
  /-- Those have their values by names. -/
  value_named : ∀ x ∈ named, x.2.literal.value = assigned x.1
  /-- Each of them has only one. -/
  nodup : (named.map Prod.fst).Nodup
  /-- Whatever is left out has its standard value. -/
  omitted : ∀ p ∈ form.parameters.drop places.length, p ∉ named.map Prod.fst → p.standard = some (assigned p)

namespace Arrangement

variable {form : CommandForm} {assigned : Parameter → String}

/-- What is written. -/
def phrases (a : Arrangement form assigned) : List Phrase := a.places.map .place ++ a.named.map (.assignment ·.2)

/-- **The line** of an arrangement, with commas. -/
def line (a : Arrangement form assigned) (h : form.Heading) : String := h.line "," (a.phrases.map Phrase.source)

/-- Whether the first value stands alone and is a negative number. -/
def beginsNegative (a : Arrangement form assigned) : Bool := a.places.head?.any Literal.isNegative

theorem any_isNegative_phrases (a : Arrangement form assigned) :
    a.phrases.head?.any Phrase.isNegative = a.beginsNegative := by
  unfold phrases beginsNegative
  cases a.places with
  | cons l places => rfl
  | nil =>
    cases a.named with
    | nil => rfl
    | cons x named => rfl

/-- What is read of a line has the assigned values. -/
theorem argument_phrases (a : Arrangement form assigned) :
    a.phrases.map Phrase.argument =
      (form.parameters.take a.places.length).map (fun p => .positional (assigned p))
        ++ (a.named.map fun x => (x.1, x.2.name)).map fun x => .named x.2 (assigned x.1) := by
  have hplaces : a.places.map (fun l => Argument.positional l.value)
      = (form.parameters.take a.places.length).map fun p => .positional (assigned p) := by
    have hvalues := congrArg (List.map Argument.positional) a.value_places
    rwa [List.map_map, List.map_map] at hvalues
  have hnamed : a.named.map (fun x => Argument.named x.2.name x.2.literal.value)
      = a.named.map fun x => .named x.2.name (assigned x.1) :=
    List.map_congr_left fun x hx => by rw [a.value_named x hx]
  rw [phrases, List.map_append, List.map_map, List.map_map, List.map_map]
  exact congrArg₂ (· ++ ·) hplaces hnamed

end Arrangement

/-- Whether an error is about the parameters that are given, and not about a token or a value. -/
def BindError.isAboutParameters : BindError → Bool
  | .unknownParameter _ _ => true
  | .tooManyParameters _ _ => true
  | .missingParameter _ _ => true
  | .duplicateParameter _ _ => true
  | .positionalAfterNamed _ => true
  | _ => false

namespace Arrangement

variable {form : CommandForm} {assigned : Parameter → String}

/-- **What becomes of a line**: the command that the assigned values make, unless it begins with a minus sign. -/
theorem bind_line (hform : form ∈ CommandForm.all) (a : Arrangement form assigned) (h : form.Heading) (body : String) :
    bind (a.line h) body =
      if a.beginsNegative then .error (.unexpectedToken "-")
      else form.build ⟨form.parameters.map fun p => (p.name, assigned p), body⟩ := by
  rw [line, CommandForm.bind_commas hform, commaArguments, any_isNegative_phrases]
  split
  · rfl
  · have hnamed : ∀ x ∈ a.named.map fun x => (x.1, x.2.name),
        x.1 ∈ form.parameters.drop a.places.length ∧ x.1.isNamed x.2 = true := by
      intro x hx
      obtain ⟨y, hy, rfl⟩ := List.mem_map.1 hx
      exact a.isNamed y hy
    have hparameters : (a.named.map fun x => (x.1, x.2.name)).map Prod.fst = a.named.map Prod.fst := List.map_map
    rw [argument_phrases]
    exact CommandForm.bindArguments_arranged hform hnamed (hparameters ▸ a.nodup)
      (fun p hp hnot => a.omitted p hp (hparameters ▸ hnot)) body

end Arrangement

/-- **All arrangements are alike.** Two arrangements of the same values, under the name of the command in any case, have
the same result exactly if both or none of them begin with a negative number that stands alone. If one does, its sign is
unexpected. Otherwise the result is what the command makes of the values, and no error is about the parameters given. -/
theorem arrangements_agree {form : CommandForm} (hform : form ∈ CommandForm.all) {assigned : Parameter → String}
    (a b : Arrangement form assigned) (g h : form.Heading) (body : String) :
    (bind (a.line g) body = bind (b.line h) body ↔ a.beginsNegative = b.beginsNegative) ∧
      (a.beginsNegative = true → bind (a.line g) body = .error (.unexpectedToken "-")) ∧
      (a.beginsNegative = false →
        bind (a.line g) body = form.build ⟨form.parameters.map fun p => (p.name, assigned p), body⟩) ∧
      ∀ e, bind (a.line g) body = .error e → e.isAboutParameters = false := by
  have hbuilds := CommandForm.builds hform ⟨form.parameters.map fun p => (p.name, assigned p), body⟩
  rw [a.bind_line hform, b.bind_line hform]
  generalize form.build ⟨form.parameters.map fun p => (p.name, assigned p), body⟩ = result at hbuilds
  have hne : result ≠ .error (.unexpectedToken "-") := by
    rintro rfl
    obtain ⟨name, value, fault, he⟩ := hbuilds
    cases he
  refine ⟨?_, fun hsign => if_pos hsign, fun hsign => if_neg (ne_true_of_eq_false hsign), fun e he => ?_⟩
  · cases a.beginsNegative <;> cases b.beginsNegative <;> simp [hne, hne.symm]
  · split at he
    · cases he
      rfl
    · subst he
      obtain ⟨name, value, fault, rfl⟩ := hbuilds
      rfl

/-- The form of the commands that begin a definition. -/
def definitionForm : CommandForm :=
  ⟨"PatchDefinition",
    [.required "Name", ⟨"Version", ["VersionFrom"], none⟩, .optional "RelativePath" "",
      .optional "RelativeOutputPath" ""],
    fun a => .ok (.fileUnder ⟨a.text "Name", a.text "Version", a.text "RelativePath", a.text "RelativeOutputPath"⟩)⟩

/-- Values for its parameters. -/
def definitionValues (p : Parameter) : String :=
  ([("Name", "Unlock"), ("Version", "8.10"), ("RelativeOutputPath", "out")].lookup p.name).getD ""

/-- The first two by their places, and one left out. -/
def definitionByPlaces : Arrangement definitionForm definitionValues where
  places := [.ofString "Unlock" (by decide), .ofString "8.10" (by decide)]
  named := [(.optional "RelativeOutputPath" "",
    .ofName "RelativeOutputPath" (by decide) (.ofName "out" (by decide)))]
  value_places := by decide
  isNamed := by decide
  value_named := by decide
  nodup := by decide
  omitted := by decide

/-- All by names in another order, one of them an alias. -/
def definitionByNames : Arrangement definitionForm definitionValues where
  places := []
  named := [
    (.optional "RelativePath" "", .ofName "relativepath" (by decide) (.ofString "" (by decide))),
    (⟨"Version", ["VersionFrom"], none⟩, .ofName "VERSIONFROM" (by decide) (.ofString "8.10" (by decide))),
    (.optional "RelativeOutputPath" "", .ofName "RelativeOutputPath" (by decide) (.ofString "out" (by decide))),
    (.required "Name", .ofName "Name" (by decide) (.ofName "Unlock" (by decide)))]
  value_places := by decide
  isNamed := by decide
  value_named := by decide
  nodup := by decide
  omitted := by decide

/-- Both give the same definition. -/
theorem arrangements_agree_definition :
    definitionForm ∈ CommandForm.all ∧
      bind "PatchDefinition \"Unlock\",\"8.10\",RelativeOutputPath=out" ""
        = bind "patchdefinition relativepath=\"\",VERSIONFROM=\"8.10\",RelativeOutputPath=\"out\",Name=Unlock" "" := by
  have hform : definitionForm ∈ CommandForm.all := List.mem_cons_self
  have hagree := arrangements_agree hform definitionByPlaces definitionByNames
    (.ofName "PatchDefinition" (by decide) (by decide)) (.ofName "patchdefinition" (by decide) (by decide)) ""
  exact ⟨hform, hagree.1.2 rfl⟩

/-- The form of the commands that look for a literal from the start on. -/
def valueForm : CommandForm := ⟨"FindValue", [.required "Value"], CommandForm.findValue .first⟩

/-- A negative number. -/
def minusFive : Literal := .ofNumber "-5" (-5) (by decide) (by decide)

/-- The number by its place. -/
def valueByPlace : Arrangement valueForm (fun _ => "-5") where
  places := [minusFive]
  named := []
  value_places := by decide
  isNamed := by decide
  value_named := by decide
  nodup := by decide
  omitted := by decide

/-- The number by the name of its parameter. -/
def valueByName : Arrangement valueForm (fun _ => "-5") where
  places := []
  named := [(.required "Value", .ofName "Value" (by decide) minusFive)]
  value_places := by decide
  isNamed := by decide
  value_named := by decide
  nodup := by decide
  omitted := by decide

/-- The name of the command. -/
def valueHeading : valueForm.Heading := .ofName "FindValue" (by decide) (by decide)

/-- **Arrangements that differ**: `FindValue -5` is refused, `FindValue Value=-5` is not. -/
theorem exists_arrangements_ne :
    ¬∀ form ∈ CommandForm.all, ∀ (assigned : Parameter → String) (a b : Arrangement form assigned)
      (g h : form.Heading) (body : String), bind (a.line g) body = bind (b.line h) body := by
  intro hall
  have hform : valueForm ∈ CommandForm.all := by simp [CommandForm.all, valueForm]
  have hsame := hall valueForm hform (fun _ => "-5") valueByPlace valueByName valueHeading valueHeading ""
  rw [Arrangement.bind_line hform, Arrangement.bind_line hform] at hsame
  have hrefused : .error (.unexpectedToken "-")
      = valueForm.build ⟨valueForm.parameters.map fun p => (p.name, "-5"), ""⟩ := hsame
  have hbuilds := CommandForm.builds hform ⟨valueForm.parameters.map fun p => (p.name, "-5"), ""⟩
  rw [← hrefused] at hbuilds
  obtain ⟨name, value, fault, he⟩ := hbuilds
  cases he

end BinaryPatching
