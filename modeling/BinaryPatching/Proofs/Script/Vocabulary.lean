import BinaryPatching.Proofs.Pattern.Concatenation
import BinaryPatching.Proofs.Text.Case
import BinaryPatching.Script.Binding
import Mathlib.Data.List.Nodup

/-!
# `BinaryPatching.Proofs.Script.Vocabulary` — what the forms of commands have in common

The forms of commands are many, but what binding relies on holds of all of them. Their names consist of letters and
differ in more than case, and so do the names of the parameters of each. With the values of all its parameters a form
makes a command, or complains about one of the values and about nothing else; and only one form makes commands for code.

## Contents
- `CommandForm.all_regular`: what all forms are checked for.
- `CommandForm.named?_eq_some_iff`, `commandName_of_tokenize`: a form is found by its name, wherever that is read.
- `CommandForm.find?_isNamed_iff`: a parameter is found by each of its names.
- `Builds`: what comes of values, with `CommandForm.builds`.
- `code?_of_bind`: the lines that become commands for code.
-/

namespace BinaryPatching

open Text

/-! ## What the forms are checked for -/

namespace Parameter

/-- All names of a parameter. -/
def names (p : Parameter) : List String := p.name :: p.aliases

theorem isNamed_iff {p : Parameter} {name : String} :
    p.isNamed name = true ↔ ∃ own ∈ p.names, equalIgnoringCase own name = true := by
  rw [isNamed, Bool.or_eq_true, List.any_eq_true]
  simp only [names, List.mem_cons, exists_eq_or_imp]

end Parameter

namespace CommandForm

/-- The name of a form in small letters. -/
def lowerName (form : CommandForm) : List Char := form.name.toList.map Char.toLower

/-- **What the parameters of a form are checked for**: they are different, and no two share a name. -/
def isRegular (form : CommandForm) : Bool :=
  decide form.parameters.Nodup && form.parameters.all fun p => form.parameters.all fun q =>
    !(p.names.any fun a => q.names.any fun b => equalIgnoringCase a b) || decide (p = q)

/-- **All forms are in order**: their names consist of letters and differ in more than case, and their parameters are
regular. -/
theorem all_regular :
    ((all.map lowerName).all (fun name => name.all fun c => decide (IsLetter c.toNat)) &&
      decide (all.map lowerName).Nodup && all.all isRegular) = true := by
  decide +kernel

theorem isLetter_of_mem_lowerName {form : CommandForm} (h : form ∈ all) {c : Char} (hc : c ∈ form.lowerName) :
    IsLetter c.toNat := by
  have hnames := (Bool.and_eq_true_iff.1 (Bool.and_eq_true_iff.1 all_regular).1).1
  have hname := List.all_eq_true.1 hnames form.lowerName (List.mem_map_of_mem h)
  exact of_decide_eq_true (List.all_eq_true.1 hname c hc)

/-- No two forms have the same name but for case. -/
theorem nodup_names : (all.map lowerName).Nodup :=
  of_decide_eq_true (Bool.and_eq_true_iff.1 (Bool.and_eq_true_iff.1 all_regular).1).2

theorem isRegular_of_mem {form : CommandForm} (h : form ∈ all) :
    form.parameters.Nodup ∧ ∀ p ∈ form.parameters, ∀ q ∈ form.parameters,
      (p.names.any fun a => q.names.any fun b => equalIgnoringCase a b) = true → p = q := by
  have hform := List.all_eq_true.1 (Bool.and_eq_true_iff.1 all_regular).2 form h
  simpa [isRegular, List.all_eq_true, or_iff_not_imp_left] using hform

/-! ## The names of commands -/

/-- **A form is found by its name** in any case. -/
theorem named?_eq_some_iff {name : String} {form : CommandForm} :
    named? name = some form ↔ form ∈ all ∧ equalIgnoringCase form.name name = true := by
  constructor
  · intro h
    have hname := List.find?_some h
    exact ⟨List.mem_of_find?_eq_some h, hname⟩
  · rintro ⟨hmem, hname⟩
    cases hfound : named? name with
    | none => exact absurd hname (List.find?_eq_none.1 hfound form hmem)
    | some other =>
      have hother := List.find?_some hfound
      have hsame := (equalIgnoringCase_iff.1 hother).trans (equalIgnoringCase_iff.1 hname).symm
      rw [List.inj_on_of_nodup_map nodup_names (List.mem_of_find?_eq_some hfound) hmem hsame]

/-- The names of forms consist of letters, in whatever case. -/
theorem isLetter_of_name {form : CommandForm} (h : form ∈ all) {name : String}
    (hname : equalIgnoringCase form.name name = true) : ∀ c ∈ name.toList, IsLetter c.toNat := by
  intro c hc
  have hlower : form.lowerName = name.toList.map Char.toLower := equalIgnoringCase_iff.1 hname
  have hletter := isLetter_of_mem_lowerName h (hlower ▸ List.mem_map_of_mem hc)
  unfold IsLetter at hletter ⊢
  rw [toNat_toLower] at hletter
  split at hletter <;> omega

/-- One form alone has the name of the commands for code. -/
theorem name_eq_patchCode_iff {form : CommandForm} (h : form ∈ all) {name : String}
    (hname : equalIgnoringCase form.name name = true) :
    form.name = "PatchCode" ↔ equalIgnoringCase name "PatchCode" = true := by
  constructor
  · exact fun heq => equalIgnoringCase_symm (heq ▸ hname)
  · intro hcode
    obtain ⟨code, hmem, hcodeName⟩ : ∃ code ∈ all, code.name = "PatchCode" := by simp [all, plain, textual]
    have hfound : named? "PatchCode" = some code :=
      named?_eq_some_iff.2 ⟨hmem, hcodeName ▸ equalIgnoringCase_refl code.name⟩
    have hsame := named?_eq_some_iff.2 ⟨h, equalIgnoringCase_trans hname hcode⟩
    rw [hfound] at hsame
    rw [← Option.some.inj hsame, hcodeName]

end CommandForm

/-! ## The name at the start of a line -/

theorem isAlphanum_of_isLetter {c : Char} (h : IsLetter c.toNat) : c.isAlphanum = true := by
  have hall : ∀ n < 123, IsLetter n → (Char.ofNat n).isAlphanum = true := by decide
  have hc := hall c.toNat (by unfold IsLetter at h; omega) h
  rwa [Char.ofNat_toNat] at hc

theorem isBlank_of_isLetter {c : Char} (h : IsLetter c.toNat) : isBlank c = false := by
  unfold IsLetter at h
  simp only [isBlank, Bool.or_eq_false_iff, Bool.and_eq_false_iff, decide_eq_false_iff_not, beq_eq_false_iff_ne]
  omega

/-- **A text whose first token is a name** begins with it, behind its blanks. -/
theorem Token.Lexes.exists_of_name {previous : Option Token} {cs : List Char} {name : String} {rest : List Token}
    (h : Lexes previous cs (.name name :: rest)) :
    ∃ behind, trimStart cs = name.toList ++ behind ∧ stops continuesName behind = true := by
  generalize htokens : Token.name name :: rest = tokens at h
  induction h with
  | nil => cases htokens
  | blank hblank _ ih =>
    rw [trimStart, List.dropWhile_cons_of_pos hblank]
    exact ih htokens
  | @name _ c word behind _ hblank _ _ hend _ =>
    cases htokens
    exact ⟨behind, by rw [trimStart_of_not_blank _ hblank, String.toList_ofList]; rfl, hend⟩
  | number => cases htokens
  | string => cases htokens
  | symbol _ _ _ _ hsymbol _ =>
    cases htokens
    unfold ofSymbol? at hsymbol
    repeat' split at hsymbol
    all_goals cases hsymbol

/-- The name of a command is read alike with all tokens of its line, and alone. -/
theorem commandName_of_tokenize {text : List Char} {name : String} {rest : List Token}
    (h : tokenize (String.ofList text) = .ok (.name name :: rest)) (hletters : ∀ c ∈ name.toList, IsLetter c.toNat) :
    commandName text = name.toList := by
  rw [Token.tokenize_eq_ok_iff, String.toList_ofList] at h
  obtain ⟨behind, htext, hend⟩ := h.exists_of_name
  rw [commandName, firstWord, htext]
  rw [List.takeWhile_append_of_pos fun c hc => by rw [isBlank_of_isLetter (hletters c hc)]; rfl,
    List.takeWhile_append_of_pos fun c hc => by rw [isAlphanum_of_isLetter (hletters c hc)]; rfl]
  -- Behind the name comes nothing that would go on with it.
  have hnone : (behind.takeWhile fun c => !isBlank c).takeWhile (fun c => c.isAlphanum || c == '_') = [] := by
    cases behind with
    | nil => rfl
    | cons c behind =>
      have hc : (c.isAlphanum || c == '_') = false := by
        have hstop : (!Token.continuesName c) = true := hend
        unfold Token.continuesName at hstop
        rw [Bool.not_eq_true', Bool.or_eq_false_iff] at hstop
        exact hstop.1
      rw [List.takeWhile_cons]
      split
      · rw [List.takeWhile_cons, hc]
        rfl
      · rfl
  rw [hnone, List.append_nil]

/-! ## The names of parameters -/

namespace CommandForm

/-- **No name belongs to two parameters** of a command. -/
theorem eq_of_isNamed {form : CommandForm} (h : form ∈ all) {p q : Parameter} (hp : p ∈ form.parameters)
    (hq : q ∈ form.parameters) {name : String} (hpn : p.isNamed name = true) (hqn : q.isNamed name = true) : p = q := by
  obtain ⟨a, ha, han⟩ := Parameter.isNamed_iff.1 hpn
  obtain ⟨b, hb, hbn⟩ := Parameter.isNamed_iff.1 hqn
  refine (isRegular_of_mem h).2 p hp q hq (List.any_eq_true.2 ⟨a, ha, List.any_eq_true.2 ⟨b, hb, ?_⟩⟩)
  exact equalIgnoringCase_trans han (equalIgnoringCase_symm hbn)

/-- **A parameter is found by each of its names** in any case. -/
theorem find?_isNamed_iff {form : CommandForm} (h : form ∈ all) {p : Parameter} {name : String} :
    form.parameters.find? (·.isNamed name) = some p ↔ p ∈ form.parameters ∧ p.isNamed name = true := by
  constructor
  · intro hfound
    have hname := List.find?_some hfound
    exact ⟨List.mem_of_find?_eq_some hfound, hname⟩
  · rintro ⟨hp, hname⟩
    cases hfound : form.parameters.find? (·.isNamed name) with
    | none => exact absurd hname (List.find?_eq_none.1 hfound p hp)
    | some q =>
      have hq := List.find?_some hfound
      rw [eq_of_isNamed h (List.mem_of_find?_eq_some hfound) hp hq hname]

theorem eq_of_name_eq {form : CommandForm} (h : form ∈ all) {p q : Parameter} (hp : p ∈ form.parameters)
    (hq : q ∈ form.parameters) (hname : p.name = q.name) : p = q := by
  have hown (r : Parameter) : r.isNamed r.name = true :=
    Parameter.isNamed_iff.2 ⟨r.name, List.mem_cons_self, equalIgnoringCase_refl r.name⟩
  exact eq_of_isNamed h hp hq (hown p) (hname ▸ hown q)

/-- The parameters of a command are all different. -/
theorem nodup_parameters {form : CommandForm} (h : form ∈ all) : form.parameters.Nodup := (isRegular_of_mem h).1

end CommandForm

/-! ## What comes of values -/

/-- **What comes of values**: something with a property, or the complaint that one of the values does not serve. -/
def Builds {α : Type} (P : α → Prop) : Except BindError α → Prop
  | .ok x => P x
  | .error e => ∃ name value fault, e = .invalidValue name value fault

@[simp] theorem builds_ok {α : Type} {P : α → Prop} {x : α} : Builds P (.ok x) ↔ P x := Iff.rfl

@[simp] theorem builds_map {α β : Type} {P : β → Prop} {r : Except BindError α} {f : α → β} :
    Builds P (r.map f) ↔ Builds (fun x => P (f x)) r := by
  cases r <;> rfl

namespace Arguments

variable (a : Arguments) (name : String)

@[simp] theorem builds_number : Builds (fun _ => True) (a.number name) := by
  unfold number
  split
  · trivial
  · exact ⟨_, _, _, rfl⟩

@[simp] theorem builds_address : Builds (fun _ => True) (a.address name) := by
  have hnumber := a.builds_number name
  unfold address
  split
  · rename_i e he
    rwa [he] at hnumber
  · split
    · trivial
    · exact ⟨_, _, _, rfl⟩

@[simp] theorem builds_bytes : Builds (fun _ => True) (a.bytes name) := by
  unfold bytes
  split
  · trivial
  · exact ⟨_, _, _, rfl⟩

@[simp] theorem builds_bytePattern : Builds (fun _ => True) (a.bytePattern name) := by
  unfold bytePattern
  split
  · trivial
  · exact ⟨_, _, _, rfl⟩

@[simp] theorem builds_instructionPattern : Builds (fun _ => True) (a.instructionPattern name) := by
  unfold instructionPattern
  split
  · trivial
  · exact ⟨_, _, _, rfl⟩

@[simp] theorem builds_codeType : Builds (fun _ => True) (a.codeType name) := by
  unfold codeType
  split
  · trivial
  · exact ⟨_, _, _, rfl⟩

theorem builds_constraint (pattern : String) : Builds (fun _ => True) (a.constraint name pattern) := by
  unfold constraint
  dsimp only
  split
  · trivial
  · split
    · trivial
    · exact builds_map.2 (a.builds_instructionPattern pattern)

@[simp] theorem builds_constraints : Builds (fun _ => True) a.constraints := by
  have hwriter := a.builds_constraint "PreRegister" "PrePattern"
  unfold constraints
  split
  · rename_i e he
    rwa [he] at hwriter
  · exact builds_map.2 (a.builds_constraint "PostRegister" "PostPattern")

end Arguments

/-- The block of a command for code. -/
def Command.code? : Command → Option String
  | patchCode _ body => some body
  | _ => none

namespace CommandForm

@[simp] theorem builds_findText (scope : Scope) (pattern : String → BytePattern) (a : Arguments) :
    Builds (·.code? = none) (findText scope pattern a) := by
  unfold findText
  dsimp only
  split
  · exact ⟨_, _, _, rfl⟩
  · rfl

@[simp] theorem builds_findInstructions (scope : Scope) (a : Arguments) :
    Builds (·.code? = none) (findInstructions scope a) := by
  have hpattern := a.builds_instructionPattern "Pattern"
  unfold findInstructions
  split
  · rename_i e he
    rwa [he] at hpattern
  · simp [Command.code?]

/-- **What comes of the values of a form**: the block goes into a command for code, and no other form makes one. -/
theorem builds {form : CommandForm} (h : form ∈ all) (a : Arguments) :
    Builds (·.code? = if form.name = "PatchCode" then some a.body else none) (form.build a) := by
  revert form
  simp only [all, plain, textual, findBytes, findValue, findCall, List.forall_mem_cons, builds_ok, builds_map,
    builds_findText, builds_findInstructions, String.reduceEq, if_false, if_true]
  simp [Command.code?]

end CommandForm

theorem CommandForm.exists_of_bind {form : CommandForm} {tokens : List Token} {body : String} {command : Command}
    (h : form.bind tokens body = .ok command) : ∃ values, form.build ⟨values, body⟩ = .ok command := by
  unfold CommandForm.bind at h
  split at h
  · cases h
  · split at h
    · cases h
    · exact ⟨_, h⟩

/-- **The lines that become commands for code** are those with their name, and the block goes into them. -/
theorem code?_of_bind {text : List Char} {body : String} {command : Command}
    (h : bind (String.ofList text) body = .ok command) :
    command.code? = if equalIgnoringCase (String.ofList (commandName text)) "PatchCode" then some body else none := by
  unfold bind at h
  cases htokens : tokenize (String.ofList text) with
  | error e => rw [htokens] at h; cases h
  | ok tokens =>
    rw [htokens] at h
    match tokens with
    | [] => cases h
    | .name name :: rest =>
      dsimp only at h
      cases hform : CommandForm.named? name with
      | none => rw [hform] at h; cases h
      | some form =>
        rw [hform] at h
        obtain ⟨hmem, hname⟩ := CommandForm.named?_eq_some_iff.1 hform
        obtain ⟨values, hbuild⟩ := CommandForm.exists_of_bind h
        have hbuilds := CommandForm.builds hmem ⟨values, body⟩
        rw [hbuild] at hbuilds
        rw [commandName_of_tokenize htokens (CommandForm.isLetter_of_name hmem hname), String.ofList_toList]
        exact hbuilds.trans (if_congr (CommandForm.name_eq_patchCode_iff hmem hname) rfl rfl)

end BinaryPatching
