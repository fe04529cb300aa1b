import BinaryPatching.Patch.Validity
import BinaryPatching.Proofs.Text.Case
import Mathlib.Data.List.Nodup

/-!
# `BinaryPatching.Proofs.Patch.Uniqueness` — what is found by name is there once

Members are looked for, and made where they are missing, without regard to ASCII case; so no two of them differ in
ASCII case only. Whether a store is valid is a question of small letters in every script. What lies between the two
is a clash, and a store whose members were all made on demand is valid exactly if it has none.

## Contents
- `Apart`: names of which no two are equal up to ASCII case, and `nodup_lowercase_iff`.
- `TargetFile.validate_eq_ok`: when the patches of a file have no fault.
- `TargetVersion.Tidy`, `PatchDefinition.Tidy`, `PatchStore.Tidy`: what all changes keep.
- `PatchStore.HasClash`, `PatchStore.validate_iff_of_tidy`: validity of a tidy store.
- `PatchStore.Tidy.updateVersion` and the lemmas before it: the changes.
-/

namespace BinaryPatching

open Text

/-! ## Names -/

/-- No two of the names are equal up to ASCII case. -/
def Apart (names : List String) : Prop := names.Pairwise fun a b => equalIgnoringCase a b = false

/-- **Distinct in small letters** are those names, of any that are apart, of which no two clash. -/
theorem nodup_lowercase_iff {names : List String} (h : Apart names) :
    (names.map fun name => lowercase name.toList).Nodup ↔ ¬∃ a ∈ names, ∃ b ∈ names, Clash a b := by
  constructor
  · rintro hnodup ⟨a, ha, b, hb, hlower, hcase⟩
    have hab : a = b := List.inj_on_of_nodup_map hnodup ha hb hlower
    rw [hab, equalIgnoringCase_refl] at hcase
    cases hcase
  · intro hnone
    rw [List.nodup_iff_pairwise_ne, List.pairwise_map]
    refine h.imp_of_mem fun {a b} ha hb hcase hlower => ?_
    exact hnone ⟨a, ha, b, hb, hlower, hcase⟩

/-- Names that are distinct in small letters are apart. -/
theorem apart_of_nodup_lowercase {names : List String}
    (h : (names.map fun name => lowercase name.toList).Nodup) : Apart names := by
  rw [List.nodup_iff_pairwise_ne, List.pairwise_map] at h
  refine h.imp fun {a b} hne => ?_
  cases hcase : equalIgnoringCase a b with
  | false => rfl
  | true => exact absurd (lowercase_eq_of_equalIgnoringCase hcase) hne

/-! ## Members that are changed or made -/

section UpdateOrAdd

variable {α κ : Type} {isWanted : α → Bool} {fresh : α} {change : α → α}

/-- **The keys of a list after a change** are those before, and that of the fresh member where none was wanted. -/
theorem map_updateOrAdd {key : α → κ} (hc : ∀ x, key (change x) = key x) (xs : List α) :
    (updateOrAdd isWanted fresh change xs).map key
      = if xs.any isWanted then xs.map key else xs.map key ++ [key fresh] := by
  induction xs with
  | nil =>
    show [key (change fresh)] = [key fresh]
    rw [hc]
  | cons x rest ih =>
    unfold updateOrAdd
    cases hx : isWanted x with
    | true =>
      rw [if_pos rfl, List.map_cons, hc, List.any_cons, hx, Bool.true_or, if_pos rfl]
      rfl
    | false =>
      rw [if_neg Bool.false_ne_true, List.map_cons, ih, List.any_cons, hx, Bool.false_or]
      split <;> rfl

/-- What holds of all members and of the fresh one holds of all afterwards, when the change keeps it. -/
theorem forall_mem_updateOrAdd {P : α → Prop} {xs : List α} (hxs : ∀ x ∈ xs, P x) (hfresh : P fresh)
    (hc : ∀ x, P x → P (change x)) : ∀ x ∈ updateOrAdd isWanted fresh change xs, P x := by
  induction xs with
  | nil =>
    intro x hx
    rw [updateOrAdd, List.mem_singleton] at hx
    exact hx ▸ hc fresh hfresh
  | cons y rest ih =>
    have hrest := fun x hx => hxs x (List.mem_cons_of_mem y hx)
    intro x hx
    unfold updateOrAdd at hx
    split at hx
    · rcases List.mem_cons.1 hx with rfl | hx
      · exact hc y (hxs y List.mem_cons_self)
      · exact hrest x hx
    · rcases List.mem_cons.1 hx with rfl | hx
      · exact hxs x List.mem_cons_self
      · exact ih hrest x hx

/-- **Keys stay apart** when a member is made only where none is found. -/
theorem pairwise_updateOrAdd {key : α → κ} {R : κ → κ → Prop} {xs : List α} (hxs : (xs.map key).Pairwise R)
    (hc : ∀ x, key (change x) = key x) (hnew : ∀ x, isWanted x = false → R (key x) (key fresh)) :
    ((updateOrAdd isWanted fresh change xs).map key).Pairwise R := by
  rw [map_updateOrAdd hc]
  cases hany : xs.any isWanted with
  | true => exact hxs
  | false =>
    rw [List.any_eq_false] at hany
    refine List.pairwise_append.2 ⟨hxs, List.pairwise_singleton _ _, fun a ha b hb => ?_⟩
    obtain ⟨x, hx, rfl⟩ := List.mem_map.1 ha
    rw [List.mem_singleton.1 hb]
    exact hnew x (Bool.eq_false_iff.2 (hany x hx))

end UpdateOrAdd

/-! ## Files -/

/-- **A file without faults** has patches at different addresses, none of which changes its size. -/
theorem TargetFile.validate_eq_ok {file : TargetFile} :
    file.validate = .ok () ↔
      (file.patches.map (·.address)).Nodup ∧ ∀ p ∈ file.patches, p.unpatched.length = p.patched.length := by
  have hgen : ∀ (patches : List Patch) (seen : List UInt32),
      TargetFile.validatePatches file.path seen patches = .ok () ↔
        (patches.map (·.address)).Nodup ∧ (∀ p ∈ patches, p.address ∉ seen)
          ∧ ∀ p ∈ patches, p.unpatched.length = p.patched.length := by
    intro patches
    induction patches with
    | nil => simp [TargetFile.validatePatches]
    | cons p rest ih =>
      intro seen
      unfold TargetFile.validatePatches Patch.validate
      by_cases hlen : p.unpatched.length = p.patched.length
      · rw [if_pos hlen]
        by_cases hseen : p.address ∈ seen
        · simp [hseen]
        · simp only [List.contains_eq_mem, hseen, decide_false, Bool.false_eq_true, if_false, ih, List.map_cons,
            List.nodup_cons, List.mem_map, List.mem_cons, not_exists, not_and, forall_eq_or_imp, not_or, hlen,
            not_false_eq_true, true_and]
          constructor
          · rintro ⟨hnodup, hnot, hlens⟩
            exact ⟨⟨fun q hq he => (hnot q hq).1 he, hnodup⟩, fun q hq => (hnot q hq).2, hlens⟩
          · rintro ⟨⟨hp, hnodup⟩, hnot, hlens⟩
            exact ⟨hnodup, fun q hq => ⟨fun he => hp q hq he, hnot q hq⟩, hlens⟩
      · simp [hlen]
  have := hgen file.patches []
  simpa [TargetFile.validate] using this

theorem TargetFile.validate_new (path : String) (hash : Bytes) : (TargetFile.new path hash).validate = .ok () := rfl

/-! ## What all changes keep -/

/-- No two files of the version are at paths that differ in ASCII case only, and no file has a fault. -/
structure TargetVersion.Tidy (version : TargetVersion) : Prop where
  /-- The paths are apart. -/
  apart : Apart (version.files.map (·.path))
  /-- The files have no faults. -/
  files : ∀ f ∈ version.files, f.validate = .ok ()

/-- No two versions have descriptions that differ in ASCII case only, and all are tidy. -/
structure PatchDefinition.Tidy (definition : PatchDefinition) : Prop where
  /-- The descriptions are apart. -/
  apart : Apart (definition.versions.map (·.description))
  /-- The versions are tidy. -/
  versions : ∀ v ∈ definition.versions, v.Tidy

/-- No two definitions have the same name, and all are tidy. -/
structure PatchStore.Tidy (store : PatchStore) : Prop where
  /-- The names are distinct. -/
  nodup : (store.definitions.map (·.name)).Nodup
  /-- The definitions are tidy. -/
  definitions : ∀ d ∈ store.definitions, d.Tidy

/-- Whether somewhere in the store two names that must differ clash: two descriptions of versions in one definition,
    or two paths of files in one version. -/
def PatchStore.HasClash (store : PatchStore) : Prop :=
  ∃ d ∈ store.definitions,
    (∃ a ∈ d.versions.map (·.description), ∃ b ∈ d.versions.map (·.description), Clash a b)
      ∨ ∃ v ∈ d.versions, ∃ a ∈ v.files.map (·.path), ∃ b ∈ v.files.map (·.path), Clash a b

/-! ## Validity -/

theorem TargetVersion.validate_eq_ok {version : TargetVersion} :
    version.validate = .ok () ↔ ((version.files.map (·.path)).map fun path => lowercase path.toList).Nodup
      ∧ ∀ f ∈ version.files, f.validate = .ok () := by
  unfold TargetVersion.validate
  rw [validateEach_eq_ok, List.map_map]
  simp [Function.comp_def]

theorem PatchDefinition.validate_eq_ok {definition : PatchDefinition} :
    definition.validate = .ok () ↔
      ((definition.versions.map (·.description)).map fun description => lowercase description.toList).Nodup
        ∧ ∀ v ∈ definition.versions, v.validate = .ok () := by
  unfold PatchDefinition.validate
  rw [validateEach_eq_ok, List.map_map]
  simp [Function.comp_def]

theorem PatchStore.validate_eq_ok {store : PatchStore} :
    store.validate = .ok () ↔
      (store.definitions.map (·.name)).Nodup ∧ ∀ d ∈ store.definitions, d.validate = .ok () := by
  unfold PatchStore.validate
  rw [validateEach_eq_ok]
  simp

/-- A valid store is tidy. -/
theorem PatchStore.tidy_of_validate {store : PatchStore} (h : store.validate = .ok ()) : store.Tidy := by
  obtain ⟨hnodup, hdefs⟩ := PatchStore.validate_eq_ok.1 h
  refine ⟨hnodup, fun d hd => ?_⟩
  obtain ⟨hnames, hversions⟩ := PatchDefinition.validate_eq_ok.1 (hdefs d hd)
  refine ⟨apart_of_nodup_lowercase hnames, fun v hv => ?_⟩
  obtain ⟨hpaths, hfiles⟩ := TargetVersion.validate_eq_ok.1 (hversions v hv)
  exact ⟨apart_of_nodup_lowercase hpaths, hfiles⟩

/-- **Validity of a tidy store**: nothing but a clash can be wrong with it. -/
theorem PatchStore.validate_iff_of_tidy {store : PatchStore} (h : store.Tidy) :
    store.validate = .ok () ↔ ¬store.HasClash := by
  have hversion : ∀ d ∈ store.definitions, ∀ v ∈ d.versions, (v.validate = .ok () ↔
      ¬∃ a ∈ v.files.map (·.path), ∃ b ∈ v.files.map (·.path), Clash a b) := by
    intro d hd v hv
    have htidy := (h.definitions d hd).versions v hv
    rw [TargetVersion.validate_eq_ok, nodup_lowercase_iff htidy.apart]
    exact and_iff_left htidy.files
  rw [PatchStore.validate_eq_ok, and_iff_right h.nodup]
  constructor
  · rintro hdefs ⟨d, hd, hclash | ⟨v, hv, hclash⟩⟩
    · exact (nodup_lowercase_iff (h.definitions d hd).apart).1 (PatchDefinition.validate_eq_ok.1 (hdefs d hd)).1 hclash
    · exact (hversion d hd v hv).1 ((PatchDefinition.validate_eq_ok.1 (hdefs d hd)).2 v hv) hclash
  · intro hnone d hd
    refine PatchDefinition.validate_eq_ok.2 ⟨?_, fun v hv => ?_⟩
    · exact (nodup_lowercase_iff (h.definitions d hd).apart).2 fun hclash => hnone ⟨d, hd, .inl hclash⟩
    · exact (hversion d hd v hv).2 fun hclash => hnone ⟨d, hd, .inr ⟨v, hv, hclash⟩⟩

/-- **A store with names in ASCII only** has no clash. -/
theorem PatchStore.not_hasClash_of_ascii {store : PatchStore}
    (hversions : ∀ d ∈ store.definitions, ∀ v ∈ d.versions, ∀ c ∈ v.description.toList, c.toNat < 0x80)
    (hfiles : ∀ d ∈ store.definitions, ∀ v ∈ d.versions, ∀ f ∈ v.files, ∀ c ∈ f.path.toList, c.toNat < 0x80) :
    ¬store.HasClash := by
  rintro ⟨d, hd, ⟨a, ha, b, hb, hclash⟩ | ⟨v, hv, a, ha, b, hb, hclash⟩⟩
  · obtain ⟨v, hv, rfl⟩ := List.mem_map.1 ha
    obtain ⟨w, hw, rfl⟩ := List.mem_map.1 hb
    exact not_clash_of_ascii (hversions d hd v hv) (hversions d hd w hw) hclash
  · obtain ⟨f, hf, rfl⟩ := List.mem_map.1 ha
    obtain ⟨g, hg, rfl⟩ := List.mem_map.1 hb
    exact not_clash_of_ascii (hfiles d hd v hv f hf) (hfiles d hd v hv g hg) hclash

/-! ## Changes -/

/-- A file put in the place of all at its path leaves the version tidy. -/
theorem TargetVersion.Tidy.replaceFile {version : TargetVersion} (h : version.Tidy) {file : TargetFile}
    (hfile : file.validate = .ok ()) (hpath : Path.normalize file.path = file.path) :
    (version.replaceFile file).Tidy := by
  refine ⟨?_, ?_⟩
  · show Apart ((version.files.filter (fun f => !f.isAt file.path) ++ [file]).map (·.path))
    rw [List.map_append]
    refine List.pairwise_append.2 ⟨?_, List.pairwise_singleton _ _, fun a ha b hb => ?_⟩
    · exact List.Pairwise.sublist (List.filter_sublist.map _) h.apart
    · obtain ⟨f, hf, rfl⟩ := List.mem_map.1 ha
      have hnot : f.isAt file.path = false := by
        have := (List.mem_filter.1 hf).2
        rwa [Bool.not_eq_true'] at this
      rw [List.mem_singleton.1 hb]
      unfold TargetFile.isAt at hnot
      rwa [hpath] at hnot
  · intro f hf
    rcases List.mem_append.1 hf with hf | hf
    · exact h.files f (List.mem_of_mem_filter hf)
    · rw [List.mem_singleton.1 hf]
      exact hfile

/-- A file of the version changed, with its path kept, leaves the version tidy. -/
theorem TargetVersion.Tidy.changeFile {version : TargetVersion} (h : version.Tidy) {path : String}
    {change : TargetFile → TargetFile} (hpath : ∀ f, (change f).path = f.path)
    (hfile : ∀ f, (change f).validate = .ok ()) : (version.changeFile path change).Tidy := by
  have hgo : ∀ files : List TargetFile,
      (changeFile.go path change files).map (·.path) = files.map (·.path)
        ∧ ∀ f ∈ changeFile.go path change files, f ∈ files ∨ ∃ g, f = change g := by
    intro files
    induction files with
    | nil => exact ⟨rfl, fun f hf => .inl hf⟩
    | cons g rest ih =>
      unfold changeFile.go
      split
      · refine ⟨?_, fun f hf => ?_⟩
        · rw [List.map_cons, hpath]
          rfl
        · rcases List.mem_cons.1 hf with hf | hf
          · exact .inr ⟨g, hf⟩
          · exact .inl (List.mem_cons_of_mem _ hf)
      · refine ⟨?_, fun f hf => ?_⟩
        · rw [List.map_cons, ih.1]
          rfl
        · rcases List.mem_cons.1 hf with rfl | hf
          · exact .inl List.mem_cons_self
          · rcases ih.2 f hf with hf | hf
            · exact .inl (List.mem_cons_of_mem _ hf)
            · exact .inr hf
  obtain ⟨hpaths, hmem⟩ := hgo version.files
  refine ⟨?_, fun f hf => ?_⟩
  · show Apart ((changeFile.go path change version.files).map (·.path))
    rw [hpaths]
    exact h.apart
  · rcases hmem f hf with hf | ⟨g, rfl⟩
    · exact h.files f hf
    · exact hfile g

/-- A change of a version that keeps its description and leaves it tidy leaves its definition tidy. -/
theorem PatchDefinition.Tidy.updateVersion {definition : PatchDefinition} (h : definition.Tidy) {description : String}
    {change : TargetVersion → TargetVersion} (hname : ∀ v, (change v).description = v.description)
    (hc : ∀ v : TargetVersion, v.Tidy → (change v).Tidy) : (definition.updateVersion description change).Tidy where
  apart := pairwise_updateOrAdd h.apart hname fun _ hv => hv
  versions := forall_mem_updateOrAdd h.versions ⟨List.Pairwise.nil, fun _ hf => absurd hf List.not_mem_nil⟩ hc

/-- **A change of a version that keeps its description** and leaves it tidy leaves the store tidy. -/
theorem PatchStore.Tidy.updateVersion {store : PatchStore} (h : store.Tidy) {name description : String}
    {change : TargetVersion → TargetVersion} (hname : ∀ v, (change v).description = v.description)
    (hc : ∀ v : TargetVersion, v.Tidy → (change v).Tidy) : (store.updateVersion name description change).Tidy where
  nodup := pairwise_updateOrAdd h.nodup (fun _ => rfl) fun d hd he => by
    rw [he, beq_self_eq_true] at hd
    cases hd
  definitions := forall_mem_updateOrAdd h.definitions ⟨List.Pairwise.nil, fun _ hv => absurd hv List.not_mem_nil⟩
    fun _ hd => hd.updateVersion hname hc

end BinaryPatching
