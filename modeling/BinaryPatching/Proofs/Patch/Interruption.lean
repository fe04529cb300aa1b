import BinaryPatching.Proofs.Patch.Application
import BinaryPatching.Proofs.Patch.Materialize

/-!
# `BinaryPatching.Proofs.Patch.Interruption` — patches that end in the middle

The patches of a file are put into its data one after the other, and whether a patch lies inside the data is only
looked at when its turn comes. One that does not ends it there, with those in front of it put in. Data of another digest
is left as it is. A definition is applied to copies of its files, and no copy is written back when an error comes up.

## Contents
- `TargetFile.applyPatches_append`: patches put in after others.
- `TargetFile.Halted`, `TargetFile.applyPatches_eq_error_iff`: patches that end in the middle.
- `TargetFile.apply_halted`: what is left of the data of a file, with a file whose second patch lies outside.
-/

namespace BinaryPatching

namespace TargetFile

/-- Patches are put in after those in front of them. -/
theorem applyPatches_append {data middle : Bytes} {before : List Patch}
    (h : applyPatches data before = (.ok (), middle)) (rest : List Patch) :
    applyPatches data (before ++ rest) = applyPatches middle rest := by
  induction before generalizing data with
  | nil =>
    cases h
    rfl
  | cons q before ih =>
    rw [applyPatches] at h
    rw [List.cons_append, applyPatches]
    by_cases hout : data.length < q.stop
    · rw [if_pos hout] at h
      cases h
    · rw [if_neg hout] at h ⊢
      exact ih h

/-- **Patches that end in the middle** of the list, at the first one that does not lie inside the data. -/
structure Halted (data : Bytes) (patches before : List Patch) (p : Patch) (after : Bytes) : Prop where
  /-- Where it ends. -/
  split : ∃ rest, patches = before ++ p :: rest
  /-- The patches in front of it lie inside the data. -/
  inside : ∀ q ∈ before, q.stop ≤ data.length
  /-- It does not. -/
  outside : data.length < p.stop
  /-- The data is as long as it was. -/
  length_eq : after.length = data.length
  /-- A byte is the one that the patches in front show there, or else the one that was there. -/
  byte_eq : ∀ x, after[x]? = ((topByte? before x).map Prod.snd).or data[x]?

section

variable {data after : Bytes} {patches before : List Patch} {p : Patch}

/-- What is left is determined by where it ends. -/
theorem Halted.unique {other : Bytes} (h : Halted data patches before p after)
    (hother : Halted data patches before p other) : after = other :=
  List.ext_getElem? fun x => (h.byte_eq x).trans (hother.byte_eq x).symm

/-- The data is left as it was just when the patches in front show what was there. -/
theorem Halted.eq_iff (h : Halted data patches before p after) :
    after = data ↔ ∀ x shown, topByte? before x = some shown → data[x]? = some shown.2 := by
  constructor
  · rintro rfl x shown hshown
    rw [h.byte_eq x, hshown]
    rfl
  · intro hshows
    refine List.ext_getElem? fun x => ?_
    rw [h.byte_eq x]
    cases hshown : topByte? before x with
    | none => rfl
    | some shown => exact (hshows x shown hshown).symm

/-- **A patch outside the data** is an error, which leaves the patches in front of it put in. -/
theorem exists_halted (hinside : ∀ q ∈ before, q.stop ≤ data.length) (houtside : data.length < p.stop)
    (rest : List Patch) : ∃ after,
      applyPatches data (before ++ p :: rest) = (.error (.outOfBounds p.address p.size), after) ∧
        Halted data (before ++ p :: rest) before p after := by
  obtain ⟨middle, hmiddle, hbyte⟩ := applyPatches_eq hinside
  have hlength : middle.length = data.length := by
    have hkept := length_applyPatches data before
    rwa [hmiddle] at hkept
  refine ⟨middle, ?_, ⟨rest, rfl⟩, hinside, houtside, hlength, hbyte⟩
  rw [applyPatches_append hmiddle, applyPatches, if_pos (hlength.symm ▸ houtside)]

/-- **Patches end with an error** just when one of them lies outside the data, and it is about the first such. -/
theorem applyPatches_eq_error_iff {e : PatchError} :
    applyPatches data patches = (.error e, after) ↔
      ∃ before p, Halted data patches before p after ∧ e = .outOfBounds p.address p.size := by
  constructor
  · intro h
    cases hfirst : patches.find? (fun p => decide (data.length < p.stop)) with
    | none =>
      have hinside : ∀ p ∈ patches, p.stop ≤ data.length := by simpa using hfirst
      obtain ⟨_, hok, _⟩ := applyPatches_eq hinside
      cases hok.symm.trans h
    | some p =>
      obtain ⟨houtside, before, rest, rfl, hbefore⟩ := List.find?_eq_some_iff_append.1 hfirst
      obtain ⟨left, herror, hhalted⟩ :=
        exists_halted (by simpa using hbefore) (of_decide_eq_true houtside) rest
      cases herror.symm.trans h
      exact ⟨before, p, hhalted, rfl⟩
  · rintro ⟨before, p, hhalted, rfl⟩
    obtain ⟨rest, rfl⟩ := hhalted.split
    obtain ⟨left, herror, hleft⟩ := exists_halted hhalted.inside hhalted.outside rest
    rw [herror, hleft.unique hhalted]

/-- The application to a file ends with an error just when it gets to the patches and these do. -/
theorem apply_eq_error_iff {file : TargetFile} {e : PatchError} :
    file.apply data = (.error e, after) ↔
      Bytes.sha1 data = file.unpatchedHash ∧ applyPatches data file.patches = (.error e, after) := by
  by_cases hhash : Bytes.sha1 data = file.unpatchedHash
  · have houtcome : file.outcome data = .patched := if_pos hhash
    unfold apply
    rw [houtcome]
    dsimp only
    cases applyPatches data file.patches with
    | mk result left => cases result <;> simp [hhash]
  · -- Whatever else the digest means for the file, it is no error.
    have hok : file.apply data = (.ok (file.outcome data), data) := by
      refine apply_eq_ok_iff.2 ⟨rfl, ?_⟩
      rw [if_neg hhash]
    simp [hok, hhash]

end

/-- **What is left of the data of a file.** It is as it was if its digest is not the one that the patches are for. If it
has that digest and some patch lies outside, there is an error about the first such patch, and all in front of it have
been put in. That leaves the data as it was only if these show nothing new. -/
theorem apply_halted (file : TargetFile) (data : Bytes) :
    (∀ outcome after, file.apply data = (.ok outcome, after) → outcome ≠ .patched → after = data) ∧
      (∀ e after, file.apply data = (.error e, after) ↔ Bytes.sha1 data = file.unpatchedHash ∧
        ∃ before p, Halted data file.patches before p after ∧ e = .outOfBounds p.address p.size) ∧
      ∀ before p after, Halted data file.patches before p after →
        (after = data ↔ ∀ x shown, topByte? before x = some shown → data[x]? = some shown.2) := by
  refine ⟨fun outcome after h hne => data_of_apply h hne, ?_, fun before p after h => h.eq_iff⟩
  intro e after
  rw [apply_eq_error_iff, applyPatches_eq_error_iff]

/-- A file of two bytes with a patch for the first of them, and one for a third. -/
def overreaching : TargetFile :=
  ⟨"a", Bytes.sha1 [0, 0], Bytes.sha1 [1, 0], [⟨0, [0], [1]⟩, ⟨2, [0], [1]⟩], []⟩

/-- The first patch is put in, and the second is an error. -/
theorem overreaching_apply : overreaching.apply [0, 0] = (.error (.outOfBounds 2 1), [1, 0]) :=
  apply_eq_error_iff.2 ⟨rfl, rfl⟩

/-- It ends at the second patch. -/
theorem apply_halted_overreaching :
    overreaching.apply [0, 0] = (.error (.outOfBounds 2 1), [1, 0]) ∧
      ∃ before p, Halted [0, 0] overreaching.patches before p [1, 0] ∧ p.address = 2 := by
  obtain ⟨_, before, p, hhalted, herror⟩ := ((apply_halted overreaching [0, 0]).2.1 _ _).1 overreaching_apply
  exact ⟨overreaching_apply, before, p, hhalted, (PatchError.outOfBounds.inj herror).1.symm⟩

/-- **Data is not left alone by an error.** -/
theorem not_apply_keeps :
    ¬(∀ (file : TargetFile) (data after : Bytes) (result : Except PatchError Outcome),
      file.apply data = (result, after) → result ≠ .ok .patched → after = data) := by
  intro h
  have hsame := h _ _ _ _ overreaching_apply (by simp)
  cases hsame

end TargetFile

end BinaryPatching
