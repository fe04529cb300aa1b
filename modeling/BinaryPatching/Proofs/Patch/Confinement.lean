import BinaryPatching.Proofs.FileTree.Resolution
import BinaryPatching.Proofs.Patch.Delivery

/-!
# `BinaryPatching.Proofs.Patch.Confinement` — how far the application of a definition reaches

A definition is applied below a root. Whatever changes in the tree stands at the end of a path of the version chosen, be
it of one of its files or of an obsolete one. The place lies below the root as long as the path does not leave it; a
path that goes up leads out, unless it comes back by the same way.

## Contents
- `TargetVersion.paths`: the files that a version is about.
- `Chosen.exists_path_of_changed`, `PatchStore.exists_path_of_changed`: no other file changes.
- `PatchStore.apply_confined`, `PatchStore.isPrefix_of_changed`: which files change, and when they lie below the root.
- `PatchStore.exists_apply_outside`: a store that reaches out of the root.
-/

namespace BinaryPatching

/-- **The files that a version is about**, by path: those to be patched and those to be removed. -/
def TargetVersion.paths (version : TargetVersion) : List String :=
  version.files.map (·.path) ++ version.obsolete.map (·.path)

/-- **No other file changes** when the files of a version are written and some of the obsolete ones removed. -/
theorem Chosen.exists_path_of_changed {store : PatchStore} {name root : String} {tree middle after : FileTree}
    {d : PatchDefinition} {v : TargetVersion} {staged : List StagedFile} {obsolete : List ObsoleteFile}
    (h : Chosen store name tree root d v staged) (hcommitted : Committed tree staged middle)
    (hcleared : Cleared middle root obsolete after) (hobsolete : ∀ o ∈ obsolete, o ∈ v.obsolete) {place : Place}
    (hchanged : after.node? place ≠ tree.node? place) : ∃ path ∈ v.paths, tree.Leads root path place := by
  by_cases hremoved : ∃ o ∈ obsolete, middle.Leads root o.path place
  · obtain ⟨o, ho, hleads⟩ := hremoved
    exact ⟨o.path, List.mem_append_right _ (List.mem_map_of_mem (hobsolete o ho)),
      hcommitted.directories.leads_iff.2 hleads⟩
  · -- What was not removed has been written.
    have hkept := hcleared.kept place fun o ho hleads => hremoved ⟨o, ho, hleads⟩
    rw [hkept, hcommitted.node_eq place] at hchanged
    cases hlanded : landed? tree place staged with
    | none =>
      rw [hlanded] at hchanged
      exact absurd rfl hchanged
    | some data =>
      obtain ⟨s, hs, hgoes, _⟩ := mem_of_landed? hlanded
      obtain ⟨file, hfile, hstaged⟩ := exists_left_of_forall₂ h.staged hs
      exact ⟨file.path, List.mem_append_left _ (List.mem_map_of_mem hfile), hstaged.leads_of_goesTo hgoes⟩

/-- **A path of a store** leads to a place below the root exactly if it returns there. -/
theorem FileTree.Leads.isPrefix_iff {tree : FileTree} {root path : String} {place : Place}
    (h : tree.Leads root path place) : tree.placeOf root <+: place ↔ Path.Returns (tree.placeOf root) path := by
  rw [eq_placeOf_of_locate h]
  exact tree.placeOf_isPrefix_iff root path

namespace PatchStore

/-- **Whatever changes** is a file that the version chosen is about, also when the application fails in the end. -/
theorem exists_path_of_changed {store : PatchStore} {name root : String} {tree : FileTree} {place : Place}
    (hchanged : (store.apply name tree root).2.node? place ≠ tree.node? place) :
    ∃ d v, store.definition? name = some d ∧ d.select? tree root = some v ∧
      ∃ path ∈ v.paths, tree.Leads root path place := by
  have hend := application store name tree root
  generalize (store.apply name tree root).1 = result at hend
  generalize (store.apply name tree root).2 = after at hend hchanged
  cases hend with
  | refused e => exact absurd rfl hchanged
  | unsupported hdefinition hnone => exact absurd rfl hchanged
  | applied hchosen hcommitted hcleared =>
    exact ⟨_, _, hchosen.definition, hchosen.version,
      hchosen.exists_path_of_changed hcommitted hcleared (fun _ ho => ho) hchanged⟩
  | interrupted hchosen hcommitted hobsolete hdirectory hcleared =>
    refine ⟨_, _, hchosen.definition, hchosen.version,
      hchosen.exists_path_of_changed hcommitted hcleared (fun o ho => ?_) hchanged⟩
    rw [hobsolete]
    exact List.mem_append_left _ ho

/-- **What an application reaches.** Only at the end of a path of the version chosen does anything change, and such a
    place lies below the root exactly if the path returns there. -/
theorem apply_confined (store : PatchStore) (name root : String) (tree : FileTree) :
    (∀ place, (store.apply name tree root).2.node? place ≠ tree.node? place →
      ∃ d v, store.definition? name = some d ∧ d.select? tree root = some v ∧
        ∃ path ∈ v.paths, tree.Leads root path place) ∧
    ∀ path place, tree.Leads root path place →
      (tree.placeOf root <+: place ↔ Path.Returns (tree.placeOf root) path) :=
  ⟨fun _ => exists_path_of_changed, fun _ _ hleads => hleads.isPrefix_iff⟩

/-- **An application stays below its root** when no path of the version chosen has a component that leads up. -/
theorem isPrefix_of_changed {store : PatchStore} {name root : String} {tree : FileTree}
    (h : ∀ d v, store.definition? name = some d → d.select? tree root = some v →
      ∀ path ∈ v.paths, ".." ∉ Path.parts path) {place : Place}
    (hchanged : (store.apply name tree root).2.node? place ≠ tree.node? place) : tree.placeOf root <+: place := by
  obtain ⟨d, v, hd, hv, path, hpath, hleads⟩ := exists_path_of_changed hchanged
  exact hleads.isPrefix_iff.2 (Path.returns_of_not_mem (h d v hd hv path hpath) _)

/-- A version for a file beside the root. -/
def climbingVersion : TargetVersion := versionOf "1" "..\\a" 0 1 []

/-- It is found below the directory of the sample tree, and the file beside that is rewritten. -/
theorem apply_climbingVersion : (ofVersions [climbingVersion]).apply "D" sampleTree "root/d"
    = (.ok ⟨"D", some "1", [("..\\a", .patched)], []⟩, sampleTreeWith 1) := by
  have hread : sampleTree.read (Path.resolve "root/d" "..\\a") = .ok [0, 0] := by decide +kernel
  have hchosen : Chosen (ofVersions [climbingVersion]) "D" sampleTree "root/d" ⟨"D", [climbingVersion]⟩ climbingVersion
      [⟨"..\\a", Path.resolve "root/d" "..\\a", [1, 0], .patched⟩] :=
    ⟨rfl, PatchDefinition.select?_of_isFound (isFound_versionOf hread), .cons (staged_replacing _ 0 1 _ hread) .nil⟩
  have hcommit : commit sampleTree [⟨"..\\a", Path.resolve "root/d" "..\\a", [1, 0], .patched⟩]
      = (.ok (), sampleTreeWith 1) := by decide +kernel
  exact hchosen.apply_eq hcommit

/-- **Not every application stays below its root**: the path of a file may go up. -/
theorem exists_apply_outside :
    ¬∀ (text name root : String) (store : PatchStore) (tree : FileTree), PatchStore.parse text = .ok store →
      ∀ place, (store.apply name tree root).2.node? place ≠ tree.node? place → tree.placeOf root <+: place := by
  intro h
  have hvalid : (ofVersions [climbingVersion]).validate = .ok () := by decide +kernel
  have hinside := h _ "D" "root/d" _ sampleTree (parse_write_of_valid hvalid) ["root", "a"]
  rw [apply_climbingVersion] at hinside
  exact absurd (hinside (by decide +kernel)) (by decide +kernel)

end PatchStore

end BinaryPatching
