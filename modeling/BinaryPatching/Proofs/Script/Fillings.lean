import BinaryPatching.Proofs.Script.Vocabulary

/-!
# `BinaryPatching.Proofs.Script.Fillings` — how the parameters of a command are filled

The values told by their places go to the first parameters in order, as many as there are, and each value told by a name
goes to the parameter of the name, if it has none. When every parameter has its value or is left with the standard one,
the values are complete, in the order of the parameters and not of the line.

## Contents
- `CommandForm.bindArguments`: the command of values in order.
- `Filling.addAll_positional`: the values told by their places.
- `Filling.Gives`, `Filling.Gives.addAll_named`: the values told by names.
- `Filling.Gives.complete`, `CommandForm.bindArguments_arranged`: all values, and the command of them.
-/

namespace BinaryPatching

open Text

/-- The command of a form with some values in order. -/
def CommandForm.bindArguments (form : CommandForm) (arguments : List Argument) (body : String) :
    Except BindError Command :=
  match Filling.start.addAll form arguments with
  | .error e => .error e
  | .ok f =>
    match f.complete form.name form.parameters with
    | .error e => .error e
    | .ok values => form.build ⟨values, body⟩

theorem CommandForm.bind_eq (form : CommandForm) (tokens : List Token) (body : String) :
    form.bind tokens body = form.bindArguments (Argument.read tokens) body := rfl

namespace Filling

variable {form : CommandForm}

/-! ## Values in order -/

/-- Values are filled in one after the other. -/
theorem addAll_append (f : Filling) (front rest : List Argument) :
    f.addAll form (front ++ rest) =
      match f.addAll form front with
      | .error e => .error e
      | .ok g => g.addAll form rest := by
  induction front generalizing f with
  | nil => rfl
  | cons a front ih =>
    rw [List.cons_append, addAll, addAll]
    cases f.add form a with
    | error e => rfl
    | ok g => exact ih g

/-- **The values told by their places** go to the parameters in order, and there are no more of them. -/
theorem addAll_positional (given : List (String × String)) {places : Nat} (hplaces : places ≤ form.parameters.length)
    (values : List String) :
    (Filling.mk given places false).addAll form (values.map .positional) =
      if places + values.length ≤ form.parameters.length then
        .ok ⟨given ++ List.zipWith (fun p v => (p.name, v)) (form.parameters.drop places) values,
          places + values.length, false⟩
      else .error (.tooManyParameters form.name form.parameters.length) := by
  induction values generalizing given places with
  | nil =>
    rw [List.zipWith_nil_right, List.append_nil, List.length_nil, Nat.add_zero, if_pos hplaces]
    rfl
  | cons v values ih =>
    rw [List.map_cons, addAll, add, if_neg Bool.false_ne_true]
    dsimp only
    by_cases hlt : places < form.parameters.length
    · rw [List.getElem?_eq_getElem hlt]
      dsimp only
      rw [ih _ hlt, List.drop_eq_getElem_cons hlt, List.zipWith_cons_cons, List.append_assoc, List.singleton_append,
        List.length_cons, Nat.add_right_comm places 1, Nat.add_assoc]
    · rw [List.getElem?_eq_none (Nat.not_lt.1 hlt), if_neg (by rw [List.length_cons]; omega)]

/-! ## Values by name -/

section Named

variable {assigned : Parameter → String}

/-- **What is given** are the assigned values of some parameters. -/
def Gives (assigned : Parameter → String) (ps : List Parameter) (f : Filling) : Prop :=
  f.given = ps.map fun p => (p.name, assigned p)

/-- A parameter of a form has its value if it is one of those that are given. -/
theorem Gives.lookup (hform : form ∈ CommandForm.all) {ps : List Parameter} (hps : ∀ p ∈ ps, p ∈ form.parameters)
    {f : Filling} (hf : f.Gives assigned ps) {p : Parameter} (hp : p ∈ form.parameters) :
    f.given.lookup p.name = if p ∈ ps then some (assigned p) else none := by
  rw [hf]
  clear hf
  induction ps with
  | nil => rfl
  | cons q ps ih =>
    have hrest := ih fun r hr => hps r (List.mem_cons_of_mem q hr)
    rw [List.map_cons, List.lookup_cons]
    by_cases hpq : p = q
    · subst hpq
      rw [beq_self_eq_true, if_pos List.mem_cons_self]
    · have hname : ¬p.name = q.name := fun hname =>
        hpq (CommandForm.eq_of_name_eq hform hp (hps q List.mem_cons_self) hname)
      rw [beq_false_of_ne hname, hrest]
      simp [hpq]

theorem zipWith_assigned (assigned : Parameter → String) (ps : List Parameter) (k : Nat) :
    List.zipWith (fun p v => (p.name, v)) ps ((ps.take k).map assigned)
      = (ps.take k).map fun p => (p.name, assigned p) := by
  induction ps generalizing k with
  | nil =>
    rw [List.take_nil]
    rfl
  | cons p ps ih =>
    cases k with
    | zero => rfl
    | succ k => exact congrArg ((p.name, assigned p) :: ·) (ih k)

/-- The first parameters are given by their places. -/
theorem exists_gives_take (form : CommandForm) (assigned : Parameter → String) (k : Nat) :
    ∃ f, start.addAll form ((form.parameters.take k).map fun p => .positional (assigned p)) = .ok f ∧
      f.Gives assigned (form.parameters.take k) := by
  have hlength : 0 + ((form.parameters.take k).map assigned).length ≤ form.parameters.length := by
    rw [Nat.zero_add, List.length_map]
    exact List.length_take_le' _ _
  have hadd := addAll_positional [] (Nat.zero_le form.parameters.length) ((form.parameters.take k).map assigned)
  rw [if_pos hlength, List.map_map, List.nil_append, List.drop_zero] at hadd
  exact ⟨_, hadd, zipWith_assigned assigned form.parameters k⟩

/-- **A value told by a name** goes to the parameter of that name, where nothing is yet. -/
theorem Gives.add (hform : form ∈ CommandForm.all) {ps : List Parameter} (hps : ∀ p ∈ ps, p ∈ form.parameters)
    {f : Filling} (hf : f.Gives assigned ps) {p : Parameter} (hp : p ∈ form.parameters) (hfresh : p ∉ ps)
    {name : String} (hname : p.isNamed name = true) :
    ∃ g, f.add form (.named name (assigned p)) = .ok g ∧ g.Gives assigned (ps ++ [p]) := by
  rw [Filling.add, (CommandForm.find?_isNamed_iff hform).2 ⟨hp, hname⟩]
  dsimp only
  rw [hf.lookup hform hps hp, if_neg hfresh]
  refine ⟨_, rfl, ?_⟩
  show f.given ++ [(p.name, assigned p)] = _
  rw [hf, List.map_append]
  rfl

/-- **The values told by names** go to different parameters, in any order. -/
theorem Gives.addAll_named (hform : form ∈ CommandForm.all) {named : List (Parameter × String)} {ps : List Parameter}
    (hps : ∀ p ∈ ps ++ named.map Prod.fst, p ∈ form.parameters) (hnodup : (ps ++ named.map Prod.fst).Nodup)
    (hnames : ∀ x ∈ named, x.1.isNamed x.2 = true) {f : Filling} (hf : f.Gives assigned ps) :
    ∃ g, f.addAll form (named.map fun x => .named x.2 (assigned x.1)) = .ok g ∧
      g.Gives assigned (ps ++ named.map Prod.fst) := by
  induction named generalizing ps f with
  | nil => exact ⟨f, rfl, by rwa [List.map_nil, List.append_nil]⟩
  | cons x named ih =>
    rw [List.map_cons (f := Prod.fst), List.append_cons] at hps hnodup ⊢
    have hfront : ∀ p ∈ ps ++ [x.1], p ∈ form.parameters := fun p hp => hps p (List.mem_append_left _ hp)
    have hfresh : x.1 ∉ ps := by
      have hdisjoint := (List.nodup_append.1 (List.nodup_append.1 hnodup).1).2.2
      exact fun hmem => hdisjoint x.1 hmem x.1 List.mem_cons_self rfl
    obtain ⟨g, hadd, hg⟩ := hf.add hform (fun p hp => hfront p (List.mem_append_left _ hp))
      (hfront x.1 (List.mem_append_right _ List.mem_cons_self)) hfresh (hnames x List.mem_cons_self)
    obtain ⟨e, hall, he⟩ := ih hps hnodup (fun y hy => hnames y (List.mem_cons_of_mem x hy)) hg
    refine ⟨e, ?_, he⟩
    rw [List.map_cons, addAll, hadd]
    exact hall

/-- **All values**: a parameter that is not given is left with its standard value. -/
theorem Gives.complete (hform : form ∈ CommandForm.all) {ps : List Parameter} (hps : ∀ p ∈ ps, p ∈ form.parameters)
    {f : Filling} (hf : f.Gives assigned ps)
    (hstandard : ∀ p ∈ form.parameters, p ∉ ps → p.standard = some (assigned p)) :
    f.complete form.name form.parameters = .ok (form.parameters.map fun p => (p.name, assigned p)) := by
  have hsuffix : ∀ qs, (∀ q ∈ qs, q ∈ form.parameters) →
      f.complete form.name qs = .ok (qs.map fun p => (p.name, assigned p)) := by
    intro qs hqs
    induction qs with
    | nil => rfl
    | cons q qs ih =>
      have hq := hqs q List.mem_cons_self
      have hvalue : (f.given.lookup q.name).or q.standard = some (assigned q) := by
        rw [hf.lookup hform hps hq]
        by_cases hmem : q ∈ ps
        · rw [if_pos hmem]
          rfl
        · rw [if_neg hmem, hstandard q hq hmem]
          rfl
      rw [Filling.complete, hvalue]
      dsimp only
      rw [ih fun r hr => hqs r (List.mem_cons_of_mem q hr)]
      rfl
  exact hsuffix form.parameters fun _ => id

end Named

end Filling

/-- **However the values are arranged**, the parameters have those that are assigned to them: the first of them by their
places, others by their names in any order, and the rest left out where the standard value is the assigned one. -/
theorem CommandForm.bindArguments_arranged {form : CommandForm} (hform : form ∈ all) {assigned : Parameter → String}
    {k : Nat} {named : List (Parameter × String)}
    (hnamed : ∀ x ∈ named, x.1 ∈ form.parameters.drop k ∧ x.1.isNamed x.2 = true)
    (hnodup : (named.map Prod.fst).Nodup)
    (homitted : ∀ p ∈ form.parameters.drop k, p ∉ named.map Prod.fst → p.standard = some (assigned p)) (body : String) :
    form.bindArguments
        ((form.parameters.take k).map (fun p => .positional (assigned p))
          ++ named.map fun x => .named x.2 (assigned x.1)) body
      = form.build ⟨form.parameters.map fun p => (p.name, assigned p), body⟩ := by
  have hmem : ∀ p ∈ named.map Prod.fst, p ∈ form.parameters.drop k := by
    intro p hp
    obtain ⟨x, hx, rfl⟩ := List.mem_map.1 hp
    exact (hnamed x hx).1
  have hparameters : ∀ p ∈ form.parameters.take k ++ named.map Prod.fst, p ∈ form.parameters := by
    intro p hp
    rcases List.mem_append.1 hp with hp | hp
    · exact List.mem_of_mem_take hp
    · exact List.mem_of_mem_drop (hmem p hp)
  have hall := nodup_parameters hform
  rw [← List.take_append_drop k form.parameters, List.nodup_append] at hall
  have hdifferent : (form.parameters.take k ++ named.map Prod.fst).Nodup :=
    List.nodup_append.2 ⟨hall.1, hnodup, fun p hp q hq => hall.2.2 p hp q (hmem q hq)⟩
  obtain ⟨f, hplaces, hf⟩ := Filling.exists_gives_take form assigned k
  obtain ⟨g, hrest, hg⟩ := hf.addAll_named hform hparameters hdifferent fun x hx => (hnamed x hx).2
  have hstandard : ∀ p ∈ form.parameters, p ∉ form.parameters.take k ++ named.map Prod.fst →
      p.standard = some (assigned p) := by
    intro p hp hnot
    rw [List.mem_append, not_or] at hnot
    rw [← List.take_append_drop k form.parameters] at hp
    exact homitted p ((List.mem_append.1 hp).resolve_left hnot.1) hnot.2
  rw [bindArguments, Filling.addAll_append, hplaces]
  dsimp only
  rw [hrest]
  dsimp only
  rw [hg.complete hform hparameters hstandard]

end BinaryPatching
