import BinaryPatching.Patch.Basic

/-!
# `BinaryPatching.Patch.Validity` — what a store must not hold

Nothing is there twice: no definition, no version of a definition and no file of a version, names being compared
in small letters, and no patch address of a file. A patch does not change the size of its file.

## Contents
- `TargetFile.validate`, `TargetVersion.validate`, `PatchDefinition.validate`, `PatchStore.validate`: the first
  fault in the order of the store, if there is one.
-/

namespace BinaryPatching

open Text

/-- The first fault in a list: a member whose key was seen before, or a fault within a member. -/
def validateEach {α κ : Type} [BEq κ] (key : α → κ) (duplicate : α → PatchError)
    (validate : α → Except PatchError Unit) (seen : List κ) : List α → Except PatchError Unit
  | [] => .ok ()
  | x :: rest =>
    if seen.contains (key x) then .error (duplicate x)
    else
      match validate x with
      | .error e => .error e
      | .ok _ => validateEach key duplicate validate (key x :: seen) rest

/-- A list without faults has members with distinct keys, none of which was seen before, and no member has a fault
    within. -/
theorem validateEach_eq_ok {α κ : Type} [BEq κ] [LawfulBEq κ] {key : α → κ} {duplicate : α → PatchError}
    {validate : α → Except PatchError Unit} {seen : List κ} {xs : List α} :
    validateEach key duplicate validate seen xs = .ok () ↔
      (xs.map key).Nodup ∧ (∀ x ∈ xs, key x ∉ seen) ∧ ∀ x ∈ xs, validate x = .ok () := by
  induction xs generalizing seen with
  | nil => simp [validateEach]
  | cons x rest ih =>
    unfold validateEach
    by_cases hs : key x ∈ seen
    · simp [hs]
    · have hs' : seen.contains (key x) = false := by simp [hs]
      simp only [hs', Bool.false_eq_true, if_false]
      cases hv : validate x with
      | error e => simp [hv]
      | ok u =>
        simp only [ih, List.map_cons, List.nodup_cons, List.mem_map, List.mem_cons, not_exists, not_and,
          forall_eq_or_imp, hv, not_or]
        constructor
        · rintro ⟨hd, hn, ha⟩
          exact ⟨⟨fun y hy he => (hn y hy).1 he, hd⟩, ⟨hs, fun y hy => (hn y hy).2⟩, trivial, ha⟩
        · rintro ⟨⟨hx, hd⟩, ⟨_, hn⟩, _, ha⟩
          exact ⟨hd, fun y hy => ⟨fun he => hx y hy he, hn y hy⟩, ha⟩

/-- A patch must not change the size of its file. -/
def Patch.validate (patch : Patch) : Except PatchError Unit :=
  if patch.unpatched.length = patch.patched.length then .ok ()
  else .error (.lengthMismatch patch.address patch.unpatched.length patch.patched.length)

/-- The first fault of the patches of a file, of which those at `seen` have been looked at. The size of a patch is
    looked at before its address. -/
def TargetFile.validatePatches (path : String) (seen : List UInt32) : List Patch → Except PatchError Unit
  | [] => .ok ()
  | patch :: rest =>
    match patch.validate with
    | .error e => .error e
    | .ok _ =>
      if seen.contains patch.address then .error (.duplicate (.address path patch.address))
      else validatePatches path (patch.address :: seen) rest

/-- The first fault of a file. -/
def TargetFile.validate (file : TargetFile) : Except PatchError Unit :=
  TargetFile.validatePatches file.path [] file.patches

/-- The first fault of a version. -/
def TargetVersion.validate (version : TargetVersion) : Except PatchError Unit :=
  validateEach (fun f : TargetFile => lowercase f.path.toList) (fun f => .duplicate (.file f.path))
    TargetFile.validate [] version.files

/-- The first fault of a definition. -/
def PatchDefinition.validate (definition : PatchDefinition) : Except PatchError Unit :=
  validateEach (fun v : TargetVersion => lowercase v.description.toList)
    (fun v => .duplicate (.version definition.name v.description)) TargetVersion.validate [] definition.versions

/-- The first fault of a store. -/
def PatchStore.validate (store : PatchStore) : Except PatchError Unit :=
  validateEach (fun d : PatchDefinition => d.name) (fun d => .duplicate (.definition d.name))
    PatchDefinition.validate [] store.definitions

end BinaryPatching
