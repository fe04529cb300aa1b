import BinaryPatching.Proofs.Patch.Delivery
import BinaryPatching.Proofs.Patch.Materialize
import Mathlib.Data.List.Nodup
import Mathlib.Data.List.TakeWhile

/-!
# `BinaryPatching.Proofs.Patch.Reapplication` — a definition applied twice

The second application chooses its version anew. If it chooses the same one, it finds every file patched and changes
nothing. But a version that was passed over the first time may be found the second time: one that goes on where the
version applied ended.

## Contents
- `TargetFile.KeepsPromise`, `TargetFile.apply_again`: a file patched twice.
- `PatchDefinition.passedOver`, `PatchDefinition.select?_again`: the same version chosen twice.
- `Settled`, `Settled.succeeds_of_isFound`, `Settled.commit_again`: the tree in which a version was applied.
- `TargetVersion.Succeeds`: a version that goes on where another ended.
- `PatchStore.apply_twice`: the second application.
-/

namespace BinaryPatching

/-! ## A file patched twice -/

namespace TargetFile

/-- Patches that succeed lie inside the data. -/
theorem stop_le_of_applyPatches {data r : Bytes} {patches : List Patch}
    (h : applyPatches data patches = (.ok (), r)) : ∀ p ∈ patches, p.stop ≤ data.length := by
  induction patches generalizing data with
  | nil =>
    intro p hp
    cases hp
  | cons patch rest ih =>
    unfold applyPatches at h
    split at h
    · cases h
    · rename_i hin
      have hlength : (Bytes.overwrite data patch.address.toNat patch.patched).length = data.length :=
        Bytes.length_overwrite (Nat.not_lt.1 hin)
      intro p hp
      rcases List.mem_cons.1 hp with rfl | hp
      · exact Nat.not_lt.1 hin
      · rw [← hlength]
        exact ih h p hp

/-- **Patches put in twice** leave what they left the first time. -/
theorem applyPatches_again {data r : Bytes} {patches : List Patch} (h : applyPatches data patches = (.ok (), r)) :
    applyPatches r patches = (.ok (), r) := by
  have hstop := stop_le_of_applyPatches h
  have hlength : r.length = data.length := by
    have hl := length_applyPatches data patches
    rw [h] at hl
    exact hl
  obtain ⟨s, hs, hsbyte⟩ := applyPatches_eq hstop
  cases h.symm.trans hs
  obtain ⟨t, ht, htbyte⟩ := applyPatches_eq (hlength.symm ▸ hstop)
  -- Every position shows the same patch both times, or the same byte of the data.
  have heq : t = r := by
    refine List.ext_getElem? fun x => ?_
    rw [htbyte x, hsbyte x]
    cases topByte? patches x <;> rfl
  rw [ht, heq]

/-- **The patches of a file keep their promise** on some content: if they were made for it, and can be put in, they make
    something of the digest that the file is to have. -/
def KeepsPromise (file : TargetFile) (content : Bytes) : Prop :=
  Bytes.sha1 content = file.unpatchedHash →
    ∀ data, applyPatches content file.patches = (.ok (), data) → Bytes.sha1 data = file.patchedHash

/-- **A file patched twice.** What the first time makes of known content has the digest of patched content, and the
    second time leaves it as it is. -/
theorem apply_again {file : TargetFile} {content data : Bytes} {outcome : Outcome}
    (h : file.apply content = (.ok outcome, data)) (hknown : file.outcome content ≠ .unsupportedVersion)
    (hpromise : file.KeepsPromise content) :
    Bytes.sha1 data = file.patchedHash ∧ file.apply data = (.ok (file.outcome data), data) := by
  have hpatched : Bytes.sha1 data = file.patchedHash := by
    have hdata := (apply_eq_ok_iff.1 h).2
    by_cases hunpatched : Bytes.sha1 content = file.unpatchedHash
    · rw [if_pos hunpatched] at hdata
      exact hpromise hunpatched data hdata
    · rw [if_neg hunpatched] at hdata
      rw [hdata]
      exact (outcome_ne_unsupported_iff.1 hknown).resolve_left hunpatched
  refine ⟨hpatched, apply_eq_ok_iff.2 ⟨rfl, ?_⟩⟩
  by_cases hunpatched : Bytes.sha1 data = file.unpatchedHash
  · -- The two digests are one. The content had it too, and the patches are put in once more.
    rw [if_pos hunpatched]
    have hdata := (apply_eq_ok_iff.1 h).2
    have hcontent : Bytes.sha1 content = file.unpatchedHash := by
      rcases outcome_ne_unsupported_iff.1 hknown with hc | hc
      · exact hc
      · rw [hc, ← hpatched, hunpatched]
    rw [if_pos hcontent] at hdata
    exact applyPatches_again hdata
  · rw [if_neg hunpatched]

end TargetFile

/-! ## The same version chosen twice -/

/-- **The versions passed over**: those that are listed before the first that is found. -/
def PatchDefinition.passedOver (definition : PatchDefinition) (tree : FileTree) (root : String) : List TargetVersion :=
  definition.versions.takeWhile fun u => !u.isFound tree root

/-- They are listed, and not found. -/
theorem PatchDefinition.of_mem_passedOver {definition : PatchDefinition} {tree : FileTree} {root : String}
    {u : TargetVersion} (h : u ∈ definition.passedOver tree root) :
    u ∈ definition.versions ∧ ¬u.isFound tree root = true := by
  refine ⟨(List.takeWhile_sublist _).subset h, ?_⟩
  simpa using List.mem_takeWhile_imp h

/-- **The same version is chosen** in another tree when it is found there, and none that was passed over is. -/
theorem PatchDefinition.select?_again {definition : PatchDefinition} {tree after : FileTree} {root : String}
    {v : TargetVersion} (h : definition.select? tree root = some v) (hfound : v.isFound after root = true)
    (hnone : ∀ u ∈ definition.passedOver tree root, ¬u.isFound after root = true) :
    definition.select? after root = some v := by
  unfold select? at h ⊢
  rw [List.find?_eq_head?_dropWhile_not] at h
  obtain ⟨later, hlater⟩ := List.head?_eq_some_iff.1 h
  refine List.find?_eq_some_iff_append.2 ⟨hfound, definition.passedOver tree root, later, ?_, fun u hu => ?_⟩
  · rw [← hlater, passedOver, List.takeWhile_append_dropWhile]
  · simpa using hnone u hu

/-! ## The tree in which a version was applied -/

/-- **The tree in which a version was applied**, seen from the tree before. -/
structure Settled (v : TargetVersion) (tree : FileTree) (root : String) (after : FileTree) : Prop where
  /-- The directories stay. -/
  directories : FileTree.SameDirectories tree after
  /-- The version has files. -/
  nonempty : v.files ≠ []
  /-- Its files have the digests of patched ones, and would be left as they are. -/
  own : ∀ f ∈ v.files, ∃ place data, tree.Leads root f.path place ∧ after.node? place = some (.file data) ∧
    Bytes.sha1 data = f.patchedHash ∧ f.apply data = (.ok (f.outcome data), data)
  /-- Its obsolete files are gone. -/
  gone : ∀ o ∈ v.obsolete, ∀ place, tree.Leads root o.path place → after.node? place = none
  /-- What else there is was there before. -/
  others : ∀ place node, (∀ f ∈ v.files, ¬tree.Leads root f.path place) → after.node? place = some node →
    tree.node? place = some node

/-- **A version goes on where another ended** when its files are all known once the other has been applied: those that
    the other patches by the digests that they get, and the rest by what they hold. -/
def TargetVersion.Succeeds (u v : TargetVersion) (tree : FileTree) (root : String) : Prop :=
  u.files ≠ [] ∧ ∀ g ∈ u.files, ∃ place hash, tree.Leads root g.path place ∧
    (hash = g.unpatchedHash ∨ hash = g.patchedHash) ∧
      ((∃ f ∈ v.files, tree.Leads root f.path place ∧ f.patchedHash = hash) ∨
        ((∀ f ∈ v.files, ¬tree.Leads root f.path place) ∧
          ∃ content, tree.node? place = some (.file content) ∧ Bytes.sha1 content = hash))

namespace Settled

variable {v : TargetVersion} {tree after : FileTree} {root : String}

/-- The version that was applied is found again. -/
theorem isFound (h : Settled v tree root after) : v.isFound after root = true := by
  refine TargetVersion.isFound_iff.2 ⟨h.nonempty, fun f hf => ?_⟩
  obtain ⟨place, data, hplace, hnode, hhash, _⟩ := h.own f hf
  exact ⟨place, data, h.directories.leads_iff.1 hplace, hnode, TargetFile.outcome_ne_unsupported_iff.2 (.inr hhash)⟩

/-- **What is found then** goes on where the version ended. -/
theorem succeeds_of_isFound (h : Settled v tree root after) {u : TargetVersion} (hfound : u.isFound after root = true) :
    u.Succeeds v tree root := by
  obtain ⟨hne, hfiles⟩ := TargetVersion.isFound_iff.1 hfound
  refine ⟨hne, fun g hg => ?_⟩
  obtain ⟨place, content, hplace, hnode, hknown⟩ := hfiles g hg
  have hplace' : tree.Leads root g.path place := h.directories.leads_iff.2 hplace
  have hhash := TargetFile.outcome_ne_unsupported_iff.1 hknown
  refine ⟨place, Bytes.sha1 content, hplace', hhash, ?_⟩
  -- Either the version patched the file, and its digest is the promised one, or it was there before.
  by_cases hown : ∃ f ∈ v.files, tree.Leads root f.path place
  · obtain ⟨f, hf, hleads⟩ := hown
    obtain ⟨p, data, hp, hdata, hpatched, _⟩ := h.own f hf
    cases hleads.unique hp
    cases hnode.symm.trans hdata
    exact .inl ⟨f, hf, hleads, hpatched.symm⟩
  · have hnone : ∀ f ∈ v.files, ¬tree.Leads root f.path place := fun f hf hleads => hown ⟨f, hf, hleads⟩
    exact .inr ⟨hnone, content, h.others place _ hnone hnode, rfl⟩

/-- **Its files are left as they are** when they are patched once more. -/
theorem commit_again (h : Settled v tree root after) :
    ∃ staged, List.Forall₂ (Staged after root) v.files staged ∧
      ∀ last, Committed after staged last → ∀ place, last.node? place = after.node? place := by
  have hstaged : ∀ f ∈ v.files, ∃ s, Staged after root f s := by
    intro f hf
    obtain ⟨place, data, hplace, hnode, _, happly⟩ := h.own f hf
    exact ⟨⟨f.path, Path.resolve root f.path, data, f.outcome data⟩, rfl, rfl, place, data,
      h.directories.leads_iff.1 hplace, hnode, happly⟩
  obtain ⟨staged, hall⟩ := exists_forall₂ hstaged
  refine ⟨staged, hall, fun last hlast place => ?_⟩
  rw [hlast.node_eq place]
  cases hlanded : landed? after place staged with
  | none => rfl
  | some data =>
    -- What lands on a place was made of what stands there, and is the same.
    obtain ⟨s, hs, hgoes, rfl⟩ := mem_of_landed? hlanded
    obtain ⟨f, hf, hfs⟩ := exists_left_of_forall₂ hall hs
    obtain ⟨p, content, hp, hcontent, hmade⟩ := hfs.made
    obtain ⟨q, data, hq, hdata, _, happly⟩ := h.own f hf
    have hplace : after.Leads root f.path place := hfs.leads_of_goesTo hgoes
    cases hp.unique hplace
    cases (h.directories.leads_iff.1 hq).unique hplace
    cases hcontent.symm.trans hdata
    have heq : s.data = content := congrArg Prod.snd (hmade.symm.trans happly)
    rw [hdata, heq]
    rfl

end Settled

/-- **An application leaves the version settled**, provided that its entries do not meet and that its patches keep their
    promise. -/
theorem Chosen.settled {store : PatchStore} {name : String} {tree middle after : FileTree} {root : String}
    {d : PatchDefinition} {v : TargetVersion} {staged : List StagedFile} (h : Chosen store name tree root d v staged)
    (hcommitted : Committed tree staged middle) (hcleared : Cleared middle root v.obsolete after)
    (halone : ∀ f ∈ v.files, v.Alone tree root f) (hkept : ∀ f ∈ v.files, ¬v.Retires tree root f)
    (hpromise : ∀ f ∈ v.files, ∀ content, tree.read (Path.resolve root f.path) = .ok content → f.KeepsPromise content) :
    Settled v tree root after := by
  obtain ⟨hne, hfound⟩ := TargetVersion.isFound_iff.1 (PatchDefinition.isFound_of_select? h.version)
  have hobsolete : ∀ o place, tree.Leads root o place ↔ middle.Leads root o place :=
    fun o place => hcommitted.directories.leads_iff
  refine ⟨hcommitted.directories.trans hcleared.directories, hne, fun f hf => ?_, fun o ho place hplace => ?_,
    fun place node hnone hnode => ?_⟩
  · obtain ⟨s, hs, hfs⟩ := exists_right_of_forall₂ h.staged hf
    obtain ⟨place, content, hplace, hcontent, hmade⟩ := hfs.made
    obtain ⟨p, c, hp, hc, hknown⟩ := hfound f hf
    cases hplace.unique hp
    cases hcontent.symm.trans hc
    have hread : tree.read (Path.resolve root f.path) = .ok content :=
      FileTree.read_eq_ok_iff.2 ⟨place, hplace, hcontent⟩
    have hafter : after.node? place = some (.file s.data) := by
      rw [hcleared.kept place, hcommitted.node_of_alone h.staged (halone f hf) hs hfs hplace]
      intro o ho hleads
      exact hkept f hf ⟨o, ho, place, hplace, (hobsolete _ _).2 hleads⟩
    exact ⟨place, s.data, hplace, hafter, TargetFile.apply_again hmade hknown (hpromise f hf content hread)⟩
  · exact hcleared.gone o ho place ((hobsolete _ _).1 hplace)
  · -- A place that still holds something was not cleared, and nothing lands on one to which no file leads.
    have hleft : ∀ o ∈ v.obsolete, ¬middle.Leads root o.path place := by
      intro o ho hleads
      rw [hcleared.gone o ho place hleads] at hnode
      cases hnode
    have hlanded : landed? tree place staged = none := by
      cases hl : landed? tree place staged with
      | none => rfl
      | some data =>
        obtain ⟨s, hs, hgoes, _⟩ := mem_of_landed? hl
        obtain ⟨f, hf, hfs⟩ := exists_left_of_forall₂ h.staged hs
        exact absurd (hfs.leads_of_goesTo hgoes) (hnone f hf)
    rw [hcleared.kept place hleft, hcommitted.node_eq place, hlanded] at hnode
    exact hnode

/-! ## The second application -/

namespace PatchStore

/-- **A definition applied twice.** Unless a version that was passed over goes on where the first application ended, the
    second application chooses the same version and changes nothing. The entries of the version must not meet: no two
    of its files stand at one place, and it does not retire any of them. -/
theorem apply_twice {store : PatchStore} {name root : String} {tree after : FileTree} {report : ApplyReport}
    {d : PatchDefinition} {v : TargetVersion} (happly : store.apply name tree root = (.ok report, after))
    (hd : store.definition? name = some d) (hv : d.select? tree root = some v)
    (halone : ∀ f ∈ v.files, v.Alone tree root f) (hkept : ∀ f ∈ v.files, ¬v.Retires tree root f)
    (hpromise : ∀ f ∈ v.files, ∀ content, tree.read (Path.resolve root f.path) = .ok content → f.KeepsPromise content)
    (hnone : ∀ u ∈ d.passedOver tree root, ¬u.Succeeds v tree root) :
    ∃ again last, store.apply name after root = (.ok again, last) ∧ again.version = some v.description ∧
      ∀ place, last.node? place = after.node? place := by
  have hend := application store name tree root
  rw [happly] at hend
  dsimp only at hend
  have hsettled : Settled v tree root after := by
    cases hend with
    | unsupported hdefinition hnot =>
      cases hd.symm.trans hdefinition
      rw [hv] at hnot
      cases hnot
    | applied hchosen hcommitted hcleared =>
      cases hd.symm.trans hchosen.definition
      cases hv.symm.trans hchosen.version
      exact hchosen.settled hcommitted hcleared halone hkept hpromise
  -- Whatever is found in the new tree goes on where the version ended, so none that was passed over is.
  have hagain : d.select? after root = some v :=
    PatchDefinition.select?_again hv hsettled.isFound fun u hu hfound =>
      hnone u hu (hsettled.succeeds_of_isFound hfound)
  obtain ⟨staged, hstaged, hsame⟩ := hsettled.commit_again
  have hchosen : Chosen store name after root d v staged := ⟨hd, hagain, hstaged⟩
  -- The obsolete files are gone already, so none of their paths leads to a directory.
  have hgone : ∀ o ∈ v.obsolete, ∀ place, after.Leads root o.path place → after.node? place = none :=
    fun o ho place hplace => hsettled.gone o ho place (hsettled.directories.leads_iff.2 hplace)
  have hfiles : ∀ o ∈ v.obsolete, after.isDirectory (Path.resolve root o.path) = false := by
    intro o ho
    refine Bool.eq_false_iff.2 fun hdirectory => ?_
    obtain ⟨place, hplace, hnode⟩ := FileTree.isDirectory_iff.1 hdirectory
    rw [hgone o ho place hplace] at hnode
    cases hnode
  obtain ⟨removed, middle, last, hcommitted, hcleared, hresult⟩ := hchosen.apply_of_files hfiles
  refine ⟨_, last, hresult, rfl, fun place => ?_⟩
  by_cases hleads : ∃ o ∈ v.obsolete, after.Leads root o.path place
  · obtain ⟨o, ho, hplace⟩ := hleads
    rw [hgone o ho place hplace, hcleared.gone o ho place (hcommitted.directories.leads_iff.1 hplace)]
  · rw [hcleared.kept place, hsame middle hcommitted place]
    intro o ho hplace
    exact hleads ⟨o, ho, hcommitted.directories.leads_iff.2 hplace⟩

/-- Two versions, the second of which is for the file of the sample tree. -/
def twoVersions (path : String) (old new : UInt8) : List TargetVersion :=
  [versionOf "2" path old new [], versionOf "1" "a" 0 1 []]

/-- The file of the sample tree is patched by the second version when the first is not found there. -/
theorem chosen_twoVersions {path : String} {old new : UInt8}
    (hfirst : ¬(versionOf "2" path old new []).isFound sampleTree "root" = true) :
    Chosen (ofVersions (twoVersions path old new)) "D" sampleTree "root" ⟨"D", twoVersions path old new⟩
      (versionOf "1" "a" 0 1 []) [⟨"a", Path.resolve "root" "a", [1, 0], .patched⟩] := by
  refine ⟨rfl, ?_, .cons (staged_replacing "a" 0 1 [] read_sampleTree) .nil⟩
  exact (PatchDefinition.select?_of_not_isFound hfirst).trans
    (PatchDefinition.select?_of_isFound (isFound_versionOf read_sampleTree))

theorem apply_twoVersions {path : String} {old new : UInt8}
    (hfirst : ¬(versionOf "2" path old new []).isFound sampleTree "root" = true) :
    (ofVersions (twoVersions path old new)).apply "D" sampleTree "root"
      = (.ok ⟨"D", some "1", [("a", .patched)], []⟩, sampleTreeWith 1) := by
  have hcommit : commit sampleTree [⟨"a", Path.resolve "root" "a", [1, 0], .patched⟩] = (.ok (), sampleTreeWith 1) := by
    decide +kernel
  exact (chosen_twoVersions hfirst).apply_eq hcommit

/-- There is no file "b" in the sample tree. -/
theorem not_leads_sampleTree {place : Place} {content : Bytes} (hplace : sampleTree.Leads "root" "b" place) :
    sampleTree.node? place ≠ some (.file content) := by
  intro hnode
  have hread : sampleTree.read (Path.resolve "root" "b") = .ok content :=
    FileTree.read_eq_ok_iff.2 ⟨place, hplace, hnode⟩
  have hnone : sampleTree.read (Path.resolve "root" "b") = .error .notFound := by decide +kernel
  cases hnone.symm.trans hread

/-- The version that was passed over is for a file that is not there, and the second application changes nothing. -/
theorem apply_twice_apart :
    (ofVersions (twoVersions "b" 0 1)).apply "D" sampleTree "root"
        = (.ok ⟨"D", some "1", [("a", .patched)], []⟩, sampleTreeWith 1) ∧
      ∃ again last, (ofVersions (twoVersions "b" 0 1)).apply "D" (sampleTreeWith 1) "root" = (.ok again, last) ∧
        again.version = some "1" ∧ ∀ place, last.node? place = (sampleTreeWith 1).node? place := by
  have hfirst : ¬(versionOf "2" "b" 0 1 []).isFound sampleTree "root" = true := by
    intro hfound
    obtain ⟨place, content, hplace, hnode, _⟩ :=
      (TargetVersion.isFound_iff.1 hfound).2 (replacing "b" 0 1 []) List.mem_cons_self
    exact not_leads_sampleTree hplace hnode
  refine ⟨apply_twoVersions hfirst, apply_twice (apply_twoVersions hfirst) rfl (chosen_twoVersions hfirst).version
    ?_ ?_ ?_ ?_⟩
  · intro f hf g hg _ _ _
    rw [mem_files_versionOf hf, mem_files_versionOf hg]
  · rintro f hf ⟨o, ho, _⟩
    cases ho
  · intro f hf content hread _ data hdata
    rw [mem_files_versionOf hf] at hread hdata ⊢
    cases read_sampleTree.symm.trans hread
    cases hdata
    rfl
  · intro u hu hsucceeds
    obtain ⟨hmem, hnot⟩ := PatchDefinition.of_mem_passedOver hu
    rcases List.mem_cons.1 hmem with rfl | hmem
    · -- Neither the version that is applied nor the tree knows the file.
      obtain ⟨place, hash, hplace, _, hcases⟩ := hsucceeds.2 (replacing "b" 0 1 []) List.mem_cons_self
      rcases hcases with ⟨f, hf, hleads, _⟩ | ⟨_, content, hnode, _⟩
      · rw [mem_files_versionOf hf] at hleads
        obtain ⟨p, hp, hnode⟩ := FileTree.read_eq_ok_iff.1 read_sampleTree
        rw [hleads.unique hp] at hplace
        exact not_leads_sampleTree hplace hnode
      · exact not_leads_sampleTree hplace hnode
    · rw [List.mem_singleton.1 hmem] at hnot
      exact hnot (PatchDefinition.isFound_of_select? (chosen_twoVersions hfirst).version)

/-- Three contents that have three digests. -/
def threeContents : List Bytes := [[0, 0], [1, 0], [3, 0]]

theorem eq_of_sha1_eq_threeContents :
    ∀ a ∈ threeContents, ∀ b ∈ threeContents, Bytes.sha1 a = Bytes.sha1 b → a = b := by
  have hnodup : (threeContents.map Bytes.sha1).Nodup := by decide +kernel
  exact fun a ha b hb heq => List.inj_on_of_nodup_map hnodup ha hb heq

/-- A file with these contents keeps its promise on all of them. -/
theorem exists_patched_threeContents {path : String} {old new : UInt8} (hold : [old, 0] ∈ threeContents)
    (hnew : [new, 0] ∈ threeContents) {content : Bytes} (hcontent : content ∈ threeContents)
    (h : Bytes.sha1 content = (replacing path old new []).unpatchedHash) :
    ∃ data ∈ threeContents, TargetFile.applyPatches content (replacing path old new []).patches = (.ok (), data) ∧
      Bytes.sha1 data = (replacing path old new []).patchedHash := by
  rw [eq_of_sha1_eq_threeContents content hcontent _ hold h]
  exact ⟨[new, 0], hnew, rfl, rfl⟩

/-- The only file of the sample tree. -/
theorem content_of_read_sampleTree {path : String} {content : Bytes} (h : sampleTree.read path = .ok content) :
    content = [0, 0] := by
  obtain ⟨place, _, hnode⟩ := FileTree.read_eq_ok_iff.1 h
  unfold FileTree.node? at hnode
  split at hnode
  · cases hnode
  · obtain ⟨⟨p, node⟩, hentry, hfile⟩ := Option.map_eq_some_iff.1 hnode
    have hmem := List.mem_of_find?_eq_some hentry
    simp only [sampleTree, List.mem_cons, List.not_mem_nil, or_false, Prod.mk.injEq] at hmem
    rcases hmem with ⟨_, rfl⟩ | ⟨_, rfl⟩ | ⟨_, rfl⟩
    · cases hfile
    · cases hfile
      rfl
    · cases hfile

/-- A version for other content is not found in the sample tree. -/
theorem not_isFound_sampleTree {description : String} {old new : UInt8} (hold : Bytes.sha1 [0, 0] ≠ Bytes.sha1 [old, 0])
    (hnew : Bytes.sha1 [0, 0] ≠ Bytes.sha1 [new, 0]) :
    ¬(versionOf description "a" old new []).isFound sampleTree "root" = true := by
  intro hfound
  obtain ⟨place, content, hplace, hnode, hknown⟩ :=
    (TargetVersion.isFound_iff.1 hfound).2 (replacing "a" old new []) List.mem_cons_self
  rw [content_of_read_sampleTree (FileTree.read_eq_ok_iff.2 ⟨place, hplace, hnode⟩)] at hknown
  rcases TargetFile.outcome_ne_unsupported_iff.1 hknown with hhash | hhash
  · exact hold hhash
  · exact hnew hhash

/-- The second of two steps is found once the first is done, and is taken by the next application. -/
theorem apply_twoVersions_again : (ofVersions (twoVersions "a" 1 3)).apply "D" (sampleTreeWith 1) "root"
    = (.ok ⟨"D", some "2", [("a", .patched)], []⟩, (sampleTreeWith 1).put ["root", "a"] (.file [3, 0])) := by
  have hread : (sampleTreeWith 1).read (Path.resolve "root" "a") = .ok [1, 0] := by decide +kernel
  have hchosen : Chosen (ofVersions (twoVersions "a" 1 3)) "D" (sampleTreeWith 1) "root" ⟨"D", twoVersions "a" 1 3⟩
      (versionOf "2" "a" 1 3 []) [⟨"a", Path.resolve "root" "a", [3, 0], .patched⟩] :=
    ⟨rfl, PatchDefinition.select?_of_isFound (isFound_versionOf hread), .cons (staged_replacing "a" 1 3 [] hread) .nil⟩
  have hcommit : commit (sampleTreeWith 1) [⟨"a", Path.resolve "root" "a", [3, 0], .patched⟩]
      = (.ok (), (sampleTreeWith 1).put ["root", "a"] (.file [3, 0])) := by decide +kernel
  exact hchosen.apply_eq hcommit

/-- **Not every second application changes nothing**, though all patches make what they promise of the contents that
    there are, no two of which have one digest: the first version goes on where the second ended. -/
theorem exists_apply_twice_ne :
    ¬∀ (text name root : String) (store : PatchStore) (tree after : FileTree) (report : ApplyReport)
      (contents : List Bytes), PatchStore.parse text = .ok store →
      (∀ a ∈ contents, ∀ b ∈ contents, Bytes.sha1 a = Bytes.sha1 b → a = b) →
      (∀ path content, tree.read path = .ok content → content ∈ contents) →
      (∀ d ∈ store.definitions, ∀ v ∈ d.versions, ∀ f ∈ v.files, ∀ content ∈ contents,
        Bytes.sha1 content = f.unpatchedHash → ∃ data ∈ contents,
          TargetFile.applyPatches content f.patches = (.ok (), data) ∧ Bytes.sha1 data = f.patchedHash) →
      store.apply name tree root = (.ok report, after) → report.version.isSome = true →
      ∃ again last, store.apply name after root = (.ok again, last) ∧ ∀ path, last.read path = after.read path := by
  intro h
  have hvalid : (ofVersions (twoVersions "a" 1 3)).validate = .ok () := by decide +kernel
  have hdistinct := eq_of_sha1_eq_threeContents
  have hfirst : ¬(versionOf "2" "a" 1 3 []).isFound sampleTree "root" = true := by
    refine not_isFound_sampleTree (fun heq => ?_) fun heq => ?_
    · exact absurd (hdistinct [0, 0] (by decide) [1, 0] (by decide) heq) (by decide)
    · exact absurd (hdistinct [0, 0] (by decide) [3, 0] (by decide) heq) (by decide)
  have hthere : ∀ path content, sampleTree.read path = .ok content → content ∈ threeContents := by
    intro path content hread
    rw [content_of_read_sampleTree hread]
    exact List.mem_cons_self
  have hpromises : ∀ d ∈ (ofVersions (twoVersions "a" 1 3)).definitions, ∀ v ∈ d.versions, ∀ f ∈ v.files,
      ∀ content ∈ threeContents, Bytes.sha1 content = f.unpatchedHash → ∃ data ∈ threeContents,
        TargetFile.applyPatches content f.patches = (.ok (), data) ∧ Bytes.sha1 data = f.patchedHash := by
    intro d hd v hv f hf content hcontent
    rw [List.mem_singleton.1 hd] at hv
    rcases List.mem_cons.1 hv with rfl | hv
    · rw [mem_files_versionOf hf]
      exact exists_patched_threeContents (by decide) (by decide) hcontent
    · rw [List.mem_singleton.1 hv] at hf
      rw [mem_files_versionOf hf]
      exact exists_patched_threeContents (by decide) (by decide) hcontent
  obtain ⟨again, last, hagain, hsame⟩ := h _ _ _ _ _ _ _ _ (parse_write_of_valid hvalid) hdistinct hthere hpromises
    (apply_twoVersions hfirst) rfl
  have hlast : last = (sampleTreeWith 1).put ["root", "a"] (.file [3, 0]) :=
    congrArg Prod.snd (hagain.symm.trans apply_twoVersions_again)
  rw [hlast] at hsame
  exact absurd (hsame "root/a") (by decide +kernel)

end PatchStore

end BinaryPatching
