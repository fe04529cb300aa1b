import BinaryPatching.Proofs.Lists
import BinaryPatching.Proofs.Patch.Uniqueness

/-!
# `BinaryPatching.Proofs.Patch.KeyedUpdates` — a patch set at an address

A patch that is set takes the place of the one at its address. Its place is found by halving, which presumes that the
patches are kept in ascending order. A file is valid in any order, however, as long as no address is there twice. Where
the order is another one, the search passes over some patch, and a patch set at that address comes beside it.

## Contents
- `lastNotBehind_mem`, `lastNotBehind_parts`, `lt_of_lastNotBehind`: where the search ends.
- `Finds`, `ascending_iff_finds`: the addresses at which it finds a patch.
- `exists_insertPatch_of_finds`, `exists_insertPatch_of_not_finds`, `ascending_insertPatch`: what is made of the list.
- `KeyedUpdate`, `DoubledUpdate`, `keyedUpdate_iff`, `forall_keyedUpdate_iff`: what is made of the file.
- `InOrder.keyedUpdate`: patches set one after the other.
- `TargetFile.setPatch_keyed`: the order decides, with a file that is in disorder.
-/

namespace BinaryPatching

namespace TargetFile

/-! ## The search -/

section

variable {patches : List Patch} {address : UInt32} {base size : Nat}

theorem lastNotBehind_of_le_one (h : size ≤ 1) : lastNotBehind patches address base size = base := by
  rw [lastNotBehind]
  exact dif_pos h

/-- **One step** halves the positions at the patch in their middle. -/
theorem lastNotBehind_of_one_lt (h : 1 < size) {p : Patch} (hp : patches[base + size / 2]? = some p) :
    lastNotBehind patches address base size =
      lastNotBehind patches address (if address < p.address then base else base + size / 2) (size - size / 2) := by
  rw [lastNotBehind, dif_neg (by omega)]
  simp [hp]

/-- The search ends at one of the positions. -/
theorem lastNotBehind_mem (address : UInt32) (hin : base + size ≤ patches.length) (hpos : 0 < size) :
    base ≤ lastNotBehind patches address base size ∧ lastNotBehind patches address base size < base + size := by
  induction size using Nat.strongRecOn generalizing base with
  | ind size ih =>
    by_cases hone : size ≤ 1
    · rw [lastNotBehind_of_le_one hone]
      omega
    · have hmiddle : base + size / 2 < patches.length := by omega
      rw [lastNotBehind_of_one_lt (by omega) (List.getElem?_eq_getElem hmiddle)]
      split
      · have hfront := ih _ (by omega) (show base + (size - size / 2) ≤ patches.length by omega) (by omega)
        omega
      · have hback := ih _ (by omega) (show base + size / 2 + (size - size / 2) ≤ patches.length by omega) (by omega)
        omega

theorem lastNotBehind_lt (address : UInt32) (hpos : 0 < patches.length) :
    lastNotBehind patches address 0 patches.length < patches.length := by
  have hmem := lastNotBehind_mem address (show 0 + patches.length ≤ patches.length by omega) hpos
  omega

/-- Ascending patches are in the order of their addresses. -/
theorem address_lt_iff (hascending : patches.Pairwise fun p q => p.address < q.address) {i j : Nat}
    (hi : i < patches.length) (hj : j < patches.length) : patches[i].address < patches[j].address ↔ i < j := by
  have hlt := List.pairwise_iff_getElem.1 hascending
  constructor
  · intro haddress
    by_contra hnot
    rcases Nat.lt_or_eq_of_le (Nat.le_of_not_lt hnot) with hji | rfl
    · exact UInt32.lt_asymm haddress (hlt j i hj hi hji)
    · exact UInt32.lt_irrefl _ haddress
  · exact hlt i j hi hj

/-- **The search in ascending patches** ends between those that are not behind the address and those that are, except
that it ends at the first one where all are. -/
theorem lastNotBehind_parts (hascending : patches.Pairwise fun p q => p.address < q.address)
    (hin : base + size ≤ patches.length) (hpos : 0 < size)
    (hfront : ∀ i (hi : i < patches.length), 0 < i → i ≤ base → patches[i].address ≤ address)
    (hback : ∀ i (hi : i < patches.length), base + size ≤ i → address < patches[i].address) :
    (∀ i (hi : i < patches.length), 0 < i → i ≤ lastNotBehind patches address base size →
        patches[i].address ≤ address) ∧
      ∀ i (hi : i < patches.length), lastNotBehind patches address base size < i → address < patches[i].address := by
  have hle : ∀ {i j : Nat} (hi : i < patches.length) (hj : j < patches.length), i ≤ j →
      patches[i].address ≤ patches[j].address := by
    intro i j hi hj hij
    exact UInt32.not_lt.1 fun hlt => absurd ((address_lt_iff hascending hj hi).1 hlt) (Nat.not_lt.2 hij)
  induction size using Nat.strongRecOn generalizing base with
  | ind size ih =>
    by_cases hone : size ≤ 1
    · rw [lastNotBehind_of_le_one hone]
      exact ⟨hfront, fun i hi hlt => hback i hi (by omega)⟩
    · have hmiddle : base + size / 2 < patches.length := by omega
      rw [lastNotBehind_of_one_lt (by omega) (List.getElem?_eq_getElem hmiddle)]
      by_cases hbehind : address < patches[base + size / 2].address
      · rw [if_pos hbehind]
        refine ih _ (by omega) (by omega) (by omega) hfront ?_
        intro i hi hend
        exact UInt32.lt_of_lt_of_le hbehind (hle hmiddle hi (by omega))
      · rw [if_neg hbehind]
        refine ih _ (by omega) (by omega) (by omega) ?_ fun i hi hend => hback i hi (by omega)
        intro i hi _ hstart
        exact UInt32.le_trans (hle hi hmiddle hstart) (UInt32.not_lt.1 hbehind)

/-- In particular when it goes over all of them. -/
theorem lastNotBehind_parts_all (hascending : patches.Pairwise fun p q => p.address < q.address) (address : UInt32)
    (hpos : 0 < patches.length) :
    (∀ i (hi : i < patches.length), 0 < i → i ≤ lastNotBehind patches address 0 patches.length →
        patches[i].address ≤ address) ∧
      ∀ i (hi : i < patches.length), lastNotBehind patches address 0 patches.length < i →
        address < patches[i].address := by
  refine lastNotBehind_parts hascending (by omega) hpos ?_ ?_
  · intro i _ hi hzero
    omega
  · intro i hi hpast
    omega

/-- The address of an ascending patch is found at that patch. -/
theorem lastNotBehind_of_ascending (hascending : patches.Pairwise fun p q => p.address < q.address) {i : Nat}
    (hi : i < patches.length) : lastNotBehind patches patches[i].address 0 patches.length = i := by
  have hend := lastNotBehind_lt patches[i].address (Nat.zero_lt_of_lt hi)
  obtain ⟨hfront, hback⟩ := lastNotBehind_parts_all hascending patches[i].address (by omega)
  rcases Nat.lt_trichotomy (lastNotBehind patches patches[i].address 0 patches.length) i with hlt | heq | hgt
  · exact absurd (hback i hi hlt) (UInt32.lt_irrefl _)
  · exact heq
  · have hle := hfront _ (by omega) (by omega) (Nat.le_refl _)
    exact absurd ((address_lt_iff hascending hi (by omega)).2 hgt) (UInt32.not_lt.2 hle)

/-- **Two patches that the search finds are in order.** At some step it parts them, for it ends at different positions.
The patch in the middle is then behind the address of the first and not behind that of the second. -/
theorem lt_of_lastNotBehind (hin : base + size ≤ patches.length) {i j : Nat} (hij : i < j) (hlo : base ≤ i)
    (hhi : j < base + size) {a b : UInt32} (ha : lastNotBehind patches a base size = i)
    (hb : lastNotBehind patches b base size = j) : a < b := by
  induction size using Nat.strongRecOn generalizing base with
  | ind size ih =>
    have hone : 1 < size := by omega
    have hmiddle : base + size / 2 < patches.length := by omega
    rw [lastNotBehind_of_one_lt hone (List.getElem?_eq_getElem hmiddle)] at ha hb
    by_cases hbehinda : a < patches[base + size / 2].address
    · rw [if_pos hbehinda] at ha
      by_cases hbehindb : b < patches[base + size / 2].address
      · rw [if_pos hbehindb] at hb
        have hjmem := lastNotBehind_mem b (show base + (size - size / 2) ≤ patches.length by omega) (by omega)
        exact ih _ (by omega) (by omega) hlo (hb ▸ hjmem.2) ha hb
      · exact UInt32.lt_of_lt_of_le hbehinda (UInt32.not_lt.1 hbehindb)
    · rw [if_neg hbehinda] at ha
      have himem := lastNotBehind_mem a (show base + size / 2 + (size - size / 2) ≤ patches.length by omega) (by omega)
      rw [ha] at himem
      by_cases hbehindb : b < patches[base + size / 2].address
      · -- The first would end behind the middle and the second in front of it.
        rw [if_pos hbehindb] at hb
        have hjmem := lastNotBehind_mem b (show base + (size - size / 2) ≤ patches.length by omega) (by omega)
        omega
      · rw [if_neg hbehindb] at hb
        exact ih _ (by omega) (by omega) himem.1 (by omega) ha hb

end

/-- **The search finds a patch** at an address. -/
def Finds (patches : List Patch) (address : UInt32) : Prop :=
  ∃ q, patches[lastNotBehind patches address 0 patches.length]? = some q ∧ q.address = address

/-- **Patches are found where they are in order.** -/
theorem ascending_iff_finds {patches : List Patch} (hnodup : (patches.map (·.address)).Nodup) :
    (patches.Pairwise fun p q => p.address < q.address) ↔ ∀ p ∈ patches, Finds patches p.address := by
  constructor
  · intro hascending p hp
    obtain ⟨i, hi, rfl⟩ := List.mem_iff_getElem.1 hp
    refine ⟨patches[i], ?_, rfl⟩
    rw [lastNotBehind_of_ascending hascending hi, List.getElem?_eq_getElem hi]
  · intro hfinds
    -- What is found at the address of a patch is the patch itself.
    have hplace : ∀ i (hi : i < patches.length),
        lastNotBehind patches patches[i].address 0 patches.length = i := by
      intro i hi
      obtain ⟨q, hq, haddress⟩ := hfinds _ (List.getElem_mem hi)
      obtain ⟨hlt, rfl⟩ := List.getElem?_eq_some_iff.1 hq
      have hsame := List.inj_on_of_nodup_map hnodup (List.getElem_mem hlt) (List.getElem_mem hi) haddress
      exact hnodup.of_map.getElem_inj_iff.1 hsame
    rw [List.pairwise_iff_getElem]
    intro i j hi hj hij
    exact lt_of_lastNotBehind (by omega) hij (Nat.zero_le i) (by omega) (hplace i hi) (hplace j hj)

/-! ## The list -/

/-- A patch that is found is replaced. -/
theorem exists_insertPatch_of_finds {patches : List Patch} {p : Patch} (h : Finds patches p.address) :
    ∃ before q behind, patches = before ++ q :: behind ∧ q.address = p.address ∧
      insertPatch p patches = before ++ p :: behind := by
  obtain ⟨q, hq, haddress⟩ := h
  obtain ⟨hlt, hget⟩ := List.getElem?_eq_some_iff.1 hq
  have hset : insertPatch p patches = patches.set (lastNotBehind patches p.address 0 patches.length) p := by
    unfold insertPatch
    simp only [hq, haddress, if_true]
  refine ⟨patches.take (lastNotBehind patches p.address 0 patches.length), q,
    patches.drop (lastNotBehind patches p.address 0 patches.length + 1), ?_, haddress, ?_⟩
  · rw [← hget, List.getElem_cons_drop, List.take_append_drop]
  · rw [hset, List.set_eq_take_append_cons_drop, if_pos hlt]

/-- A patch comes in between where none is found. -/
theorem exists_insertPatch_of_not_finds {patches : List Patch} {p : Patch} (h : ¬Finds patches p.address) :
    ∃ before behind, patches = before ++ behind ∧ insertPatch p patches = before ++ p :: behind := by
  have hinsert : ∀ i ≤ patches.length, ∃ before behind, patches = before ++ behind ∧
      patches.insertIdx i p = before ++ p :: behind := by
    intro i hi
    exact ⟨_, _, (List.take_append_drop i patches).symm, insertIdx_eq_append hi p⟩
  unfold insertPatch
  dsimp only
  split
  · -- The search ends at a patch unless there are none.
    rename_i hnone
    have hempty : patches.length = 0 := by
      by_contra hne
      have hlt := lastNotBehind_lt p.address (Nat.pos_of_ne_zero hne)
      rw [List.getElem?_eq_none_iff] at hnone
      omega
    exact ⟨[], [], List.length_eq_zero_iff.1 hempty, rfl⟩
  · rename_i q hq
    obtain ⟨hlt, _⟩ := List.getElem?_eq_some_iff.1 hq
    rw [if_neg fun haddress => h ⟨q, hq, haddress⟩]
    split
    · exact hinsert _ hlt
    · exact hinsert _ (Nat.le_of_lt hlt)

/-- A patch that is inserted between those in front of it and those behind it leaves all in order. -/
theorem ascending_insertIdx {patches : List Patch} (hascending : patches.Pairwise fun p q => p.address < q.address)
    {p : Patch} {i : Nat} (hi : i ≤ patches.length)
    (hfront : ∀ j (hj : j < patches.length), j < i → patches[j].address < p.address)
    (hback : ∀ j (hj : j < patches.length), i ≤ j → p.address < patches[j].address) :
    (patches.insertIdx i p).Pairwise fun p q => p.address < q.address := by
  have htake : ∀ q ∈ patches.take i, q.address < p.address := by
    intro q hq
    obtain ⟨j, hj, rfl⟩ := List.mem_take_iff_getElem.1 hq
    exact hfront j (by omega) (by omega)
  have hdrop : ∀ q ∈ patches.drop i, p.address < q.address := by
    intro q hq
    obtain ⟨j, hj, rfl⟩ := List.mem_drop_iff_getElem.1 hq
    exact hback _ _ (by omega)
  rw [insertIdx_eq_append hi, List.pairwise_append]
  refine ⟨hascending.sublist (List.take_sublist i patches), ?_, ?_⟩
  · exact List.pairwise_cons.2 ⟨hdrop, hascending.sublist (List.drop_sublist i patches)⟩
  · intro q hq r hr
    rcases List.mem_cons.1 hr with rfl | hr
    · exact htake q hq
    · exact UInt32.lt_trans (htake q hq) (hdrop r hr)

/-- **Patches stay in order** when one more is put among them. -/
theorem ascending_insertPatch {patches : List Patch} (hascending : patches.Pairwise fun p q => p.address < q.address)
    (p : Patch) : (insertPatch p patches).Pairwise fun p q => p.address < q.address := by
  by_cases hfinds : Finds patches p.address
  · obtain ⟨before, q, behind, hpatches, haddress, hinsert⟩ := exists_insertPatch_of_finds hfinds
    have hsame : (insertPatch p patches).map (·.address) = patches.map (·.address) := by
      rw [hinsert, hpatches]
      simp [haddress]
    rw [← List.pairwise_map] at hascending ⊢
    exact hsame ▸ hascending
  · unfold insertPatch
    dsimp only
    split
    · exact List.pairwise_singleton _ _
    · rename_i q hq
      obtain ⟨hlt, hget⟩ := List.getElem?_eq_some_iff.1 hq
      obtain ⟨hfront, hback⟩ := lastNotBehind_parts_all hascending p.address (Nat.zero_lt_of_lt hlt)
      have hne : q.address ≠ p.address := fun haddress => hfinds ⟨q, hq, haddress⟩
      rw [if_neg hne]
      by_cases hbelow : q.address < p.address
      · rw [if_pos hbelow]
        refine ascending_insertIdx hascending hlt ?_ hback
        intro j hj hle
        rcases Nat.lt_or_eq_of_le (Nat.le_of_lt_succ hle) with hjlt | rfl
        · exact UInt32.lt_trans ((address_lt_iff hascending hj hlt).2 hjlt) (hget ▸ hbelow)
        · exact hget ▸ hbelow
      · rw [if_neg hbelow]
        have habove : p.address < q.address := UInt32.lt_of_le_of_ne (UInt32.not_lt.1 hbelow) hne.symm
        refine ascending_insertIdx hascending (Nat.le_of_lt hlt) ?_ ?_
        · -- The search ends at a patch behind the address only if it ends at the first one.
          intro j hj hjlt
          have hle := hfront _ hlt (by omega) (Nat.le_refl _)
          rw [hget] at hle
          exact absurd habove (UInt32.not_lt.2 hle)
        · intro j hj hle
          rcases Nat.lt_or_eq_of_le hle with hjlt | rfl
          · exact hback j hj hjlt
          · exact hget ▸ habove

/-! ## The file -/

/-- **A patch in its place**: what becomes of a file when a patch takes the place of the one at its address. -/
structure KeyedUpdate (file : TargetFile) (p : Patch) (after : TargetFile) : Prop where
  /-- The file is valid. -/
  valid : after.validate = .ok ()
  /-- The patch is the one at its address. -/
  own : after.patchAt? p.address = some p
  /-- At every other address is the patch that was there. -/
  others : ∀ address, address ≠ p.address → after.patchAt? address = file.patchAt? address
  /-- There is one patch more just when there was none at the address. -/
  length_eq : after.patches.length = file.patches.length + if (file.patchAt? p.address).isSome then 0 else 1

/-- **A patch beside another**: what becomes of a file when a patch comes beside the one at its address. -/
structure DoubledUpdate (file : TargetFile) (p : Patch) (after : TargetFile) : Prop where
  /-- The address is there twice. -/
  invalid : after.validate = .error (.duplicate (.address file.path p.address))
  /-- At every other address is the patch that was there. -/
  others : ∀ address, address ≠ p.address → after.patchAt? address = file.patchAt? address
  /-- There is one patch more. -/
  length_eq : after.patches.length = file.patches.length + 1

section

variable {file : TargetFile} {p : Patch}

theorem isSome_patchAt?_iff {address : UInt32} :
    (file.patchAt? address).isSome ↔ ∃ q ∈ file.patches, q.address = address := by
  unfold patchAt?
  simp [List.find?_isSome]

/-- At other addresses a patch in the list does not matter. -/
theorem find?_patch_of_ne (before behind : List Patch) {q : Patch} {address : UInt32} (h : q.address ≠ address) :
    (before ++ q :: behind).find? (·.address == address) = (before ++ behind).find? (·.address == address) := by
  rw [List.find?_append, List.find?_append, List.find?_cons_of_neg]
  simpa using h

/-- At its own address it is found when none in front of it is there. -/
theorem find?_patch_self {before behind : List Patch} {q : Patch} (h : ∀ r ∈ before, r.address ≠ q.address) :
    (before ++ q :: behind).find? (·.address == q.address) = some q := by
  rw [List.find?_append, List.find?_eq_none.2 (by simpa using h), Option.none_or, List.find?_cons_of_pos]
  exact beq_self_eq_true _

/-- **Other addresses** keep the patches that they have. -/
theorem patchAt?_setPatch_of_ne (file : TargetFile) {address : UInt32} (h : address ≠ p.address) :
    (file.setPatch p).patchAt? address = file.patchAt? address := by
  show (insertPatch p file.patches).find? _ = file.patches.find? _
  by_cases hfinds : Finds file.patches p.address
  · obtain ⟨before, q, behind, hpatches, haddress, hinsert⟩ := exists_insertPatch_of_finds hfinds
    rw [hinsert, hpatches, find?_patch_of_ne _ _ h.symm, find?_patch_of_ne _ _ (haddress ▸ h.symm)]
  · obtain ⟨before, behind, hpatches, hinsert⟩ := exists_insertPatch_of_not_finds hfinds
    rw [hinsert, hpatches, find?_patch_of_ne _ _ h.symm]

/-- A patch that is not found is added to the others. -/
theorem perm_setPatch (h : ¬Finds file.patches p.address) :
    List.Perm (file.setPatch p).patches (p :: file.patches) := by
  obtain ⟨before, behind, hpatches, hinsert⟩ := exists_insertPatch_of_not_finds h
  show List.Perm (insertPatch p file.patches) _
  rw [hinsert, hpatches]
  exact List.perm_middle

/-- The addresses differ afterwards if they did before and none was that of the patch. -/
theorem nodup_setPatch_iff (h : ¬Finds file.patches p.address) :
    ((file.setPatch p).patches.map (·.address)).Nodup ↔
      (¬∃ q ∈ file.patches, q.address = p.address) ∧ (file.patches.map (·.address)).Nodup := by
  rw [((perm_setPatch h).map _).nodup_iff, List.map_cons, List.nodup_cons, List.mem_map]

/-- A patch that keeps its size is added to others that do. -/
theorem length_eq_of_mem_setPatch (h : ¬Finds file.patches p.address) (hp : p.unpatched.length = p.patched.length)
    (hsizes : ∀ q ∈ file.patches, q.unpatched.length = q.patched.length) :
    ∀ q ∈ (file.setPatch p).patches, q.unpatched.length = q.patched.length := by
  intro q hq
  rcases List.mem_cons.1 ((perm_setPatch h).mem_iff.1 hq) with rfl | hq
  · exact hp
  · exact hsizes q hq

/-- **A patch that is found** is replaced. -/
theorem keyedUpdate_of_finds (hvalid : file.validate = .ok ()) (hp : p.unpatched.length = p.patched.length)
    (hfinds : Finds file.patches p.address) : file.KeyedUpdate p (file.setPatch p) := by
  obtain ⟨before, q, behind, hpatches, haddress, hinsert⟩ := exists_insertPatch_of_finds hfinds
  obtain ⟨hnodup, hsizes⟩ := validate_eq_ok.1 hvalid
  have hafter : (file.setPatch p).patches = before ++ p :: behind := hinsert
  have hsame : (file.setPatch p).patches.map (·.address) = file.patches.map (·.address) := by
    rw [hafter, hpatches]
    simp [haddress]
  refine ⟨validate_eq_ok.2 ⟨hsame ▸ hnodup, ?_⟩, ?_, fun address hne => patchAt?_setPatch_of_ne file hne, ?_⟩
  · intro r hr
    rw [hafter] at hr
    rw [hpatches] at hsizes
    grind
  · -- None in front of it has the address, for the one that was there had it.
    rw [patchAt?, hafter]
    refine find?_patch_self fun r hr heq => ?_
    rw [hpatches, List.map_append, List.nodup_append] at hnodup
    exact hnodup.2.2 _ (List.mem_map_of_mem hr) _ (by simp) (heq.trans haddress.symm)
  · have hheld : (file.patchAt? p.address).isSome := isSome_patchAt?_iff.2 ⟨q, by simp [hpatches], haddress⟩
    rw [if_pos hheld, hafter, hpatches]
    simp

/-- **A patch at a new address** is added. -/
theorem keyedUpdate_of_absent (hvalid : file.validate = .ok ()) (hp : p.unpatched.length = p.patched.length)
    (habsent : ¬∃ q ∈ file.patches, q.address = p.address) : file.KeyedUpdate p (file.setPatch p) := by
  have hnot : ¬Finds file.patches p.address := fun ⟨q, hq, haddress⟩ => habsent ⟨q, List.mem_of_getElem? hq, haddress⟩
  obtain ⟨hnodup, hsizes⟩ := validate_eq_ok.1 hvalid
  have hafter : (file.setPatch p).validate = .ok () :=
    validate_eq_ok.2 ⟨(nodup_setPatch_iff hnot).2 ⟨habsent, hnodup⟩, length_eq_of_mem_setPatch hnot hp hsizes⟩
  refine ⟨hafter, ?_, fun address hne => patchAt?_setPatch_of_ne file hne, ?_⟩
  · obtain ⟨before, behind, hpatches, hinsert⟩ := exists_insertPatch_of_not_finds hnot
    show (insertPatch p file.patches).find? _ = some p
    rw [hinsert]
    exact find?_patch_self fun r hr heq => habsent ⟨r, by simp [hpatches, hr], heq⟩
  · rw [if_neg fun hsome => habsent (isSome_patchAt?_iff.1 hsome), (perm_setPatch hnot).length_eq, List.length_cons]

/-- A fault of patches that keep their sizes is an address that was seen before. -/
theorem exists_of_validatePatches_eq_error {path : String} {patches : List Patch} {seen : List UInt32} {e : PatchError}
    (hsizes : ∀ q ∈ patches, q.unpatched.length = q.patched.length)
    (h : validatePatches path seen patches = .error e) :
    ∃ before q behind, patches = before ++ q :: behind ∧ (q.address ∈ seen ∨ q.address ∈ before.map (·.address)) ∧
      e = .duplicate (.address path q.address) := by
  induction patches generalizing seen with
  | nil => cases h
  | cons r rest ih =>
    unfold validatePatches Patch.validate at h
    rw [if_pos (hsizes r List.mem_cons_self)] at h
    dsimp only at h
    by_cases hseen : seen.contains r.address = true
    · rw [if_pos hseen] at h
      cases h
      exact ⟨[], r, rest, rfl, .inl (List.contains_iff_mem.1 hseen), rfl⟩
    · rw [if_neg hseen] at h
      obtain ⟨before, q, behind, rfl, hbefore, rfl⟩ := ih (fun q hq => hsizes q (List.mem_cons_of_mem r hq)) h
      refine ⟨r :: before, q, behind, rfl, ?_, rfl⟩
      rw [List.map_cons, List.mem_cons]
      rw [List.mem_cons] at hbefore
      tauto

/-- **A patch that is not found** though there is one at its address comes beside that one. -/
theorem doubledUpdate_of_not_finds (hvalid : file.validate = .ok ()) (hp : p.unpatched.length = p.patched.length)
    (hheld : ∃ q ∈ file.patches, q.address = p.address) (hnot : ¬Finds file.patches p.address) :
    file.DoubledUpdate p (file.setPatch p) := by
  have hperm := perm_setPatch hnot
  obtain ⟨hnodup, hsizes⟩ := validate_eq_ok.1 hvalid
  refine ⟨?_, fun address hne => patchAt?_setPatch_of_ne file hne, hperm.length_eq⟩
  cases hafter : (file.setPatch p).validate with
  | ok _ => exact absurd hheld ((nodup_setPatch_iff hnot).1 (validate_eq_ok.1 hafter).1).1
  | error e =>
    obtain ⟨before, q, behind, hpatches, hbefore, rfl⟩ :=
      exists_of_validatePatches_eq_error (length_eq_of_mem_setPatch hnot hp hsizes) hafter
    -- No other address is there twice.
    have haddress : q.address = p.address := by
      by_contra hne
      have hcount := (hperm.map (·.address)).count_eq q.address
      have hone := List.nodup_iff_count_le_one.1 hnodup q.address
      have htwo : 0 < (before.map (·.address)).count q.address :=
        List.count_pos_iff.2 (hbefore.resolve_left List.not_mem_nil)
      rw [hpatches] at hcount
      simp [Ne.symm hne] at hcount
      omega
    rw [haddress]
    rfl

/-- A patch is put in its place just when it is found or there is none at its address. -/
theorem keyedUpdate_iff (hvalid : file.validate = .ok ()) (hp : p.unpatched.length = p.patched.length) :
    file.KeyedUpdate p (file.setPatch p) ↔
      ((∃ q ∈ file.patches, q.address = p.address) → Finds file.patches p.address) := by
  constructor
  · intro hkeyed hheld
    by_contra hnot
    have hinvalid := (doubledUpdate_of_not_finds hvalid hp hheld hnot).invalid
    rw [hkeyed.valid] at hinvalid
    cases hinvalid
  · intro hfinds
    by_cases hheld : ∃ q ∈ file.patches, q.address = p.address
    · exact keyedUpdate_of_finds hvalid hp (hfinds hheld)
    · exact keyedUpdate_of_absent hvalid hp hheld

/-- **The order decides**: every patch can be put in its place just when the patches are in ascending order. -/
theorem forall_keyedUpdate_iff (hvalid : file.validate = .ok ()) :
    (∀ p : Patch, p.unpatched.length = p.patched.length → file.KeyedUpdate p (file.setPatch p)) ↔
      file.patches.Pairwise fun p q => p.address < q.address := by
  obtain ⟨hnodup, hsizes⟩ := validate_eq_ok.1 hvalid
  rw [ascending_iff_finds hnodup]
  constructor
  · intro hkeyed p hp
    have hlength := hsizes p hp
    exact (keyedUpdate_iff hvalid hlength).1 (hkeyed p hlength) ⟨p, hp, rfl⟩
  · intro hfinds p hlength
    refine (keyedUpdate_iff hvalid hlength).2 ?_
    rintro ⟨q, hq, haddress⟩
    exact haddress ▸ hfinds q hq

end

/-- **A file in order**: a valid one whose patches ascend. -/
structure InOrder (file : TargetFile) : Prop where
  /-- The file is valid. -/
  valid : file.validate = .ok ()
  /-- The patches ascend. -/
  ascending : file.patches.Pairwise fun p q => p.address < q.address

theorem inOrder_new (path : String) (hash : Bytes) : (TargetFile.new path hash).InOrder where
  valid := validate_new path hash
  ascending := List.Pairwise.nil

/-- A patch that is set leaves a file in order. -/
theorem InOrder.setPatch {file : TargetFile} (h : file.InOrder) {p : Patch}
    (hp : p.unpatched.length = p.patched.length) : (file.setPatch p).InOrder where
  valid := ((forall_keyedUpdate_iff h.valid).2 h.ascending p hp).valid
  ascending := ascending_insertPatch h.ascending p

/-- **Patches set one after the other**, on a new file or any other that is in order, are each put in their place. -/
theorem InOrder.keyedUpdate {file : TargetFile} (h : file.InOrder) {patches : List Patch}
    (hpatches : ∀ p ∈ patches, p.unpatched.length = p.patched.length) {p : Patch}
    (hp : p.unpatched.length = p.patched.length) :
    (patches.foldl TargetFile.setPatch file).KeyedUpdate p ((patches.foldl TargetFile.setPatch file).setPatch p) := by
  induction patches generalizing file with
  | nil => exact (forall_keyedUpdate_iff h.valid).2 h.ascending p hp
  | cons q rest ih =>
    exact ih (h.setPatch (hpatches q List.mem_cons_self)) fun r hr => hpatches r (List.mem_cons_of_mem q hr)

/-- **Patches set at addresses** of a valid file. A patch is put in its place just when the search finds the one at its
address, if there is one, and comes beside it otherwise. Every patch that can be made is put in its place just when the
patches of the file are in ascending order, and then they stay so. -/
theorem setPatch_keyed {file : TargetFile} (hvalid : file.validate = .ok ()) :
    (∀ address unpatched patched p, Patch.make address unpatched patched = .ok p →
      (file.KeyedUpdate p (file.setPatch p) ↔
        ((∃ q ∈ file.patches, q.address = p.address) → Finds file.patches p.address)) ∧
      ((∃ q ∈ file.patches, q.address = p.address) → ¬Finds file.patches p.address →
        file.DoubledUpdate p (file.setPatch p))) ∧
      ((∀ address unpatched patched p, Patch.make address unpatched patched = .ok p →
        file.KeyedUpdate p (file.setPatch p)) ↔ file.patches.Pairwise fun p q => p.address < q.address) ∧
      ((file.patches.Pairwise fun p q => p.address < q.address) →
        ∀ p, (file.setPatch p).patches.Pairwise fun p q => p.address < q.address) := by
  refine ⟨?_, ?_, ascending_insertPatch⟩
  · intro address unpatched patched p hmade
    have hp := Patch.length_eq_of_make hmade
    exact ⟨keyedUpdate_iff hvalid hp, doubledUpdate_of_not_finds hvalid hp⟩
  · rw [← forall_keyedUpdate_iff hvalid]
    constructor
    · intro hkeyed p hlength
      exact hkeyed p.address p.unpatched p.patched p (if_pos hlength)
    · intro hkeyed address unpatched patched p hmade
      exact hkeyed p (Patch.length_eq_of_make hmade)

/-- A valid file with two patches, of which the first lies behind the second. -/
def misordered : TargetFile := ⟨"a", [], [], [⟨0x20, [0], [1]⟩, ⟨0x10, [0], [1]⟩], []⟩

theorem misordered_setPatch :
    (misordered.setPatch ⟨0x20, [0], [2]⟩).patches = [⟨0x20, [0], [1]⟩, ⟨0x10, [0], [1]⟩, ⟨0x20, [0], [2]⟩] := by
  simp [misordered, setPatch, insertPatch, lastNotBehind]

/-- The patch in front is not found, and not every patch can be put in its place. -/
theorem setPatch_keyed_misordered :
    misordered.validate = .ok () ∧ misordered.DoubledUpdate ⟨0x20, [0], [2]⟩ (misordered.setPatch ⟨0x20, [0], [2]⟩) ∧
      ¬misordered.KeyedUpdate ⟨0x20, [0], [2]⟩ (misordered.setPatch ⟨0x20, [0], [2]⟩) := by
  have hvalid : misordered.validate = .ok () := rfl
  have hmade : Patch.make 0x20 [0] [2] = .ok ⟨0x20, [0], [2]⟩ := rfl
  have hheld : ∃ q ∈ misordered.patches, q.address = 0x20 := ⟨⟨0x20, [0], [1]⟩, List.mem_cons_self, rfl⟩
  have hnot : ¬Finds misordered.patches 0x20 := by simp [Finds, misordered, lastNotBehind]
  obtain ⟨hiff, hdoubled⟩ := (setPatch_keyed hvalid).1 _ _ _ _ hmade
  exact ⟨hvalid, hdoubled hheld hnot, fun hkeyed => hnot (hiff.1 hkeyed hheld)⟩

/-- **Not every patch is put in its place**: a valid file does not stay valid. -/
theorem not_keyedUpdate :
    ¬(∀ (file : TargetFile) (address : UInt32) (unpatched patched : Bytes) (p : Patch), file.validate = .ok () →
      Patch.make address unpatched patched = .ok p → file.KeyedUpdate p (file.setPatch p)) := by
  intro h
  have hkeyed := h misordered 0x20 [0] [2] ⟨0x20, [0], [2]⟩ rfl rfl
  have hlength := hkeyed.length_eq
  rw [misordered_setPatch] at hlength
  cases hlength

end TargetFile

end BinaryPatching
