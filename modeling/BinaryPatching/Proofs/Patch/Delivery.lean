import BinaryPatching.Proofs.Patch.Application
import BinaryPatching.Proofs.Patch.Format
import Mathlib.Control.Monad.Basic

/-!
# `BinaryPatching.Proofs.Patch.Delivery` — what an application delivers, and what it leaves behind when it fails

An application that succeeds leaves every file of the version as its patches make it. Two things can come in between:
another entry of the version that leads to the same file, and an obsolete path that leads to it. An application that
fails leaves the tree as it was. One thing can come in between: a directory among the obsolete files, for these are
removed when the files have been written.

## Contents
- `TargetFile.Delivered`, `TargetVersion.Alone`, `TargetVersion.Retires`: what is promised for a file, and when.
- `PatchStore.apply_delivers`: an application that succeeds.
- `PatchStore.DeliversAll`, `PatchStore.not_deliversAll`: two stores with files that are not delivered.
- `PatchStore.Interrupted`, `PatchStore.apply_unchanged_or_interrupted`: an application that does not.
-/

namespace BinaryPatching

/-! ## An application that succeeds -/

/-- **A file is delivered**: what stood at its path has been replaced by what its patches make of that. -/
def TargetFile.Delivered (file : TargetFile) (tree after : FileTree) (root : String) : Prop :=
  ∃ content outcome data, tree.read (Path.resolve root file.path) = .ok content ∧
    file.apply content = (.ok outcome, data) ∧ after.read (Path.resolve root file.path) = .ok data

namespace TargetVersion

/-- **A file is alone at its place** when no other entry of the version leads there. -/
def Alone (version : TargetVersion) (tree : FileTree) (root : String) (file : TargetFile) : Prop :=
  ∀ g ∈ version.files, ∀ place, tree.Leads root file.path place → tree.Leads root g.path place → g = file

/-- **A version retires a file** when one of its obsolete paths leads there. -/
def Retires (version : TargetVersion) (tree : FileTree) (root : String) (file : TargetFile) : Prop :=
  ∃ o ∈ version.obsolete, ∃ place, tree.Leads root file.path place ∧ tree.Leads root o.path place

end TargetVersion

/-- **What lands on the place of a file** that is alone there is its own data. Where nothing lands, its content was not
    to be changed. -/
theorem Committed.node_of_alone {tree middle : FileTree} {root : String} {version : TargetVersion}
    {staged : List StagedFile} (hstaged : List.Forall₂ (Staged tree root) version.files staged)
    (h : Committed tree staged middle) {file : TargetFile} (halone : version.Alone tree root file) {s : StagedFile}
    (hs : s ∈ staged) (hfile : Staged tree root file s) {place : Place} (hplace : tree.Leads root file.path place) :
    middle.node? place = some (.file s.data) := by
  -- Whatever goes there comes from the same entry.
  have hown : ∀ t ∈ staged, t.goesTo tree place = true → t = s := by
    intro t ht hgoes
    obtain ⟨g, hg, hgt⟩ := exists_left_of_forall₂ hstaged ht
    have hsame : g = file := halone g hg place hplace (hgt.leads_of_goesTo hgoes)
    rw [hsame] at hgt
    exact hgt.unique hfile
  rw [h.node_eq place]
  cases hlanded : landed? tree place staged with
  | some data =>
    obtain ⟨t, ht, hgoes, rfl⟩ := mem_of_landed? hlanded
    rw [hown t ht hgoes]
    rfl
  | none =>
    obtain ⟨p, content, hp, hcontent, happly⟩ := hfile.made
    have hnot : s.outcome ≠ .patched := by
      intro hpatched
      have hgoes : s.goesTo tree place = true := StagedFile.goesTo_iff.2 ⟨hpatched, hfile.path_eq ▸ hplace⟩
      have hsome := landed?_isSome hs hgoes
      rw [hlanded] at hsome
      cases hsome
    rw [TargetFile.data_of_apply happly hnot, hplace.unique hp, hcontent]
    rfl

namespace PatchStore

/-- **No patch is lost.** When an application succeeds and has chosen a version, every file of the version that is alone
    at its place is delivered, unless the version retires it: then it is gone. -/
theorem apply_delivers {store : PatchStore} {name root w : String} {tree after : FileTree} {report : ApplyReport}
    (happly : store.apply name tree root = (.ok report, after)) (hversion : report.version = some w) :
    ∃ d v, store.definition? name = some d ∧ d.select? tree root = some v ∧ v.description = w ∧
      ∀ file ∈ v.files, v.Alone tree root file →
        (¬v.Retires tree root file → file.Delivered tree after root) ∧
          (v.Retires tree root file → after.read (Path.resolve root file.path) = .error .notFound) := by
  have hend := application store name tree root
  rw [happly] at hend
  dsimp only at hend
  cases hend with
  | unsupported hdefinition hnone => cases hversion
  | @applied d v staged middle _ removed hchosen hcommitted hcleared =>
    refine ⟨d, v, hchosen.definition, hchosen.version, Option.some.inj hversion, fun file hfile halone => ?_⟩
    obtain ⟨s, hs, hstaged⟩ := exists_right_of_forall₂ hchosen.staged hfile
    obtain ⟨place, content, hplace, hcontent, hmade⟩ := hstaged.made
    have hmiddle : middle.node? place = some (.file s.data) :=
      hcommitted.node_of_alone hchosen.staged halone hs hstaged hplace
    have hsame := hcommitted.directories.trans hcleared.directories
    have hafter : after.locate (Path.resolve root file.path) = .ok place := hsame.locate hplace
    constructor
    · intro hkept
      refine ⟨content, s.outcome, s.data, FileTree.read_eq_ok_iff.2 ⟨place, hplace, hcontent⟩, hmade, ?_⟩
      refine FileTree.read_eq_ok_iff.2 ⟨place, hafter, ?_⟩
      rw [hcleared.kept place, hmiddle]
      intro o ho hleads
      exact hkept ⟨o, ho, place, hplace, hcommitted.directories.leads_iff.2 hleads⟩
    · rintro ⟨o, ho, p, hp, hleads⟩
      rw [hp.unique hplace] at hleads
      have hgone : after.node? place = none :=
        hcleared.gone o ho place (hcommitted.directories.leads_iff.1 hleads)
      unfold FileTree.read
      rw [hafter]
      dsimp only
      rw [hgone]

/-- A tree with one file of two bytes and an empty directory below a root. -/
def sampleTree : FileTree :=
  ⟨[], [(["root"], .directory), (["root", "a"], .file [0, 0]), (["root", "d"], .directory)]⟩

/-- That tree with another first byte of the file. -/
def sampleTreeWith (byte : UInt8) : FileTree := sampleTree.put ["root", "a"] (.file [byte, 0])

theorem read_sampleTree : sampleTree.read (Path.resolve "root" "a") = .ok [0, 0] := by decide +kernel

/-- A file of two bytes, the first of which is to be replaced. -/
def replacing (path : String) (old new : UInt8) (obsolete : List ObsoleteFile) : TargetFile :=
  ⟨path, Bytes.sha1 [old, 0], Bytes.sha1 [new, 0], [⟨0, [old], [new]⟩], obsolete⟩

section

variable (path : String) (old new : UInt8) (obsolete : List ObsoleteFile)

theorem unpatchedHash_replacing : Bytes.sha1 [old, 0] = (replacing path old new obsolete).unpatchedHash := rfl

theorem apply_replacing : (replacing path old new obsolete).apply [old, 0] = (.ok .patched, [new, 0]) :=
  TargetFile.apply_of_unpatched (unpatchedHash_replacing path old new obsolete) rfl

/-- Such a file is staged where it is as it was. -/
theorem staged_replacing {tree : FileTree} {root : String} (hread : tree.read (Path.resolve root path) = .ok [old, 0]) :
    Staged tree root (replacing path old new obsolete) ⟨path, Path.resolve root path, [new, 0], .patched⟩ := by
  obtain ⟨place, hplace, hnode⟩ := FileTree.read_eq_ok_iff.1 hread
  exact ⟨rfl, rfl, place, [old, 0], hplace, hnode, apply_replacing path old new obsolete⟩

end

/-- A version for one such file. -/
def versionOf (description path : String) (old new : UInt8) (obsolete : List ObsoleteFile) : TargetVersion :=
  ⟨description, [replacing path old new obsolete]⟩

theorem mem_files_versionOf {description path : String} {old new : UInt8} {obsolete : List ObsoleteFile}
    {f : TargetFile} (h : f ∈ (versionOf description path old new obsolete).files) : f = replacing path old new obsolete :=
  List.mem_singleton.1 h

/-- It is found where the file is as it was. -/
theorem isFound_versionOf {description path root : String} {old new : UInt8} {obsolete : List ObsoleteFile}
    {tree : FileTree} (hread : tree.read (Path.resolve root path) = .ok [old, 0]) :
    (versionOf description path old new obsolete).isFound tree root = true := by
  refine TargetVersion.isFound_of_unpatched (List.cons_ne_nil _ _) fun f hf => ?_
  rw [mem_files_versionOf hf]
  exact ⟨[old, 0], hread, unpatchedHash_replacing _ _ _ _⟩

/-- A version that replaces the first byte of the file of the sample tree, and that has one obsolete path. -/
def sampleVersion (path : String) : TargetVersion := versionOf "1" "a" 0 1 [⟨path⟩]

/-- The store of some versions. -/
def ofVersions (versions : List TargetVersion) : PatchStore := ⟨[⟨"D", versions⟩]⟩

/-- The version is chosen in the sample tree. -/
theorem chosen_sampleVersion (path : String) :
    Chosen (ofVersions [sampleVersion path]) "D" sampleTree "root" ⟨"D", [sampleVersion path]⟩ (sampleVersion path)
      [⟨"a", Path.resolve "root" "a", [1, 0], .patched⟩] :=
  ⟨rfl, PatchDefinition.select?_of_isFound (isFound_versionOf read_sampleTree),
    .cons (staged_replacing "a" 0 1 _ read_sampleTree) .nil⟩

/-- Its application comes to the removal of the obsolete file. -/
theorem apply_sampleVersion (path : String) :
    (ofVersions [sampleVersion path]).apply "D" sampleTree "root"
      = match removeObsolete (sampleTreeWith 1) "root" [⟨path⟩] with
        | (.error e, after) => (.error e, after)
        | (.ok removed, after) => (.ok ⟨"D", some "1", [("a", .patched)], removed⟩, after) := by
  have hcommit : commit sampleTree [⟨"a", Path.resolve "root" "a", [1, 0], .patched⟩] = (.ok (), sampleTreeWith 1) := by
    decide +kernel
  exact (chosen_sampleVersion path).apply_eq hcommit

/-- Nothing stands at the obsolete path, and the file is patched. -/
theorem apply_sample : (ofVersions [sampleVersion "b"]).apply "D" sampleTree "root"
    = (.ok ⟨"D", some "1", [("a", .patched)], []⟩, sampleTreeWith 1) := by
  have hremove : removeObsolete (sampleTreeWith 1) "root" [⟨"b"⟩] = (.ok [], sampleTreeWith 1) := by decide +kernel
  rw [apply_sampleVersion, hremove]

theorem apply_delivers_sample :
    (ofVersions [sampleVersion "b"]).apply "D" sampleTree "root"
        = (.ok ⟨"D", some "1", [("a", .patched)], []⟩, sampleTreeWith 1) ∧
      ∃ d v, (ofVersions [sampleVersion "b"]).definition? "D" = some d ∧ d.select? sampleTree "root" = some v ∧
        v.description = "1" ∧ ∀ file ∈ v.files, v.Alone sampleTree "root" file →
          (¬v.Retires sampleTree "root" file → file.Delivered sampleTree (sampleTreeWith 1) "root") ∧
            (v.Retires sampleTree "root" file →
              (sampleTreeWith 1).read (Path.resolve "root" file.path) = .error .notFound) :=
  ⟨apply_sample, apply_delivers apply_sample rfl⟩

/-- **Delivery without exception**: all files of the version chosen are delivered. -/
def DeliversAll (store : PatchStore) (name : String) (tree : FileTree) (root : String) : Prop :=
  ∀ report after d v, store.apply name tree root = (.ok report, after) → store.definition? name = some d →
    d.select? tree root = some v → ∀ file ∈ v.files, file.Delivered tree after root

/-- A single file that is read as something else refutes it. -/
theorem not_deliversAll_of {store : PatchStore} {name root : String} {tree after : FileTree} {report : ApplyReport}
    {d : PatchDefinition} {v : TargetVersion} {file : TargetFile} {content data : Bytes} {outcome : Outcome}
    (happly : store.apply name tree root = (.ok report, after)) (hd : store.definition? name = some d)
    (hv : d.select? tree root = some v) (hfile : file ∈ v.files)
    (hcontent : tree.read (Path.resolve root file.path) = .ok content)
    (hmade : file.apply content = (.ok outcome, data))
    (hread : after.read (Path.resolve root file.path) ≠ .ok data) : ¬store.DeliversAll name tree root := by
  intro h
  obtain ⟨c, o, r, hc, hr, hafter⟩ := h report after d v happly hd hv file hfile
  cases hcontent.symm.trans hc
  have heq : data = r := congrArg Prod.snd (hmade.symm.trans hr)
  rw [← heq] at hafter
  exact hread hafter

/-- A version with two entries for that file, whose paths differ in the separator in front. -/
def sharingVersion : TargetVersion := ⟨"1", [replacing "a" 0 1 [], replacing "\\a" 0 2 []]⟩

/-- The version is chosen in the sample tree. -/
theorem chosen_sharingVersion :
    Chosen (ofVersions [sharingVersion]) "D" sampleTree "root" ⟨"D", [sharingVersion]⟩ sharingVersion
      [⟨"a", Path.resolve "root" "a", [1, 0], .patched⟩, ⟨"\\a", Path.resolve "root" "\\a", [2, 0], .patched⟩] := by
  have hread : sampleTree.read (Path.resolve "root" "\\a") = .ok [0, 0] := by decide +kernel
  have hfound : sharingVersion.isFound sampleTree "root" = true := by
    refine TargetVersion.isFound_of_unpatched (List.cons_ne_nil _ _) fun f hf => ?_
    rcases List.mem_cons.1 hf with rfl | hf
    · exact ⟨[0, 0], read_sampleTree, unpatchedHash_replacing _ _ _ _⟩
    · rw [List.mem_singleton.1 hf]
      exact ⟨[0, 0], hread, unpatchedHash_replacing _ _ _ _⟩
  refine ⟨rfl, PatchDefinition.select?_of_isFound hfound, .cons ?_ (.cons ?_ .nil)⟩
  · exact staged_replacing "a" 0 1 [] read_sampleTree
  · exact staged_replacing "\\a" 0 2 [] hread

/-- **Two stores that do not deliver all files**: one whose version removes the file after it was patched, and one with
    a second entry for the file, which is written over the first. -/
theorem not_deliversAll :
    (parse (ofVersions [sampleVersion "a"]).write = .ok (ofVersions [sampleVersion "a"]) ∧
        ¬(ofVersions [sampleVersion "a"]).DeliversAll "D" sampleTree "root") ∧
      (parse (ofVersions [sharingVersion]).write = .ok (ofVersions [sharingVersion]) ∧
        ¬(ofVersions [sharingVersion]).DeliversAll "D" sampleTree "root") := by
  refine ⟨⟨parse_write_of_valid (by decide +kernel), ?_⟩, ⟨parse_write_of_valid (by decide +kernel), ?_⟩⟩
  · have hremove : removeObsolete (sampleTreeWith 1) "root" [⟨"a"⟩] = (.ok ["a"], sampleTree.erase ["root", "a"]) := by
      decide +kernel
    have happly := apply_sampleVersion "a"
    rw [hremove] at happly
    exact not_deliversAll_of happly rfl (chosen_sampleVersion "a").version List.mem_cons_self read_sampleTree
      (apply_replacing "a" 0 1 _) (by decide +kernel)
  · have hcommit : commit sampleTree [⟨"a", Path.resolve "root" "a", [1, 0], .patched⟩,
        ⟨"\\a", Path.resolve "root" "\\a", [2, 0], .patched⟩] = (.ok (), sampleTreeWith 2) := by decide +kernel
    exact not_deliversAll_of (chosen_sharingVersion.apply_eq hcommit) rfl chosen_sharingVersion.version
      List.mem_cons_self read_sampleTree (apply_replacing "a" 0 1 []) (by decide +kernel)

/-! ## An application that does not -/

/-- **An interrupted application**: the files of the version chosen have been written, and the obsolete files before the
    first that is a directory have been removed. -/
def Interrupted (store : PatchStore) (name : String) (tree : FileTree) (root : String) (after : FileTree) : Prop :=
  ∃ d v staged middle before o rest, Chosen store name tree root d v staged ∧ v.obsolete = before ++ o :: rest ∧
    tree.isDirectory (Path.resolve root o.path) = true ∧ Committed tree staged middle ∧ Cleared middle root before after

/-- **All or nothing, almost.** An application that fails, or that finds no version, leaves the tree as it was, unless
    it is interrupted at an obsolete path that leads to a directory. -/
theorem apply_unchanged_or_interrupted {store : PatchStore} {name root : String} {tree after : FileTree}
    {result : Except PatchError ApplyReport} (happly : store.apply name tree root = (result, after))
    (hresult : ∀ report, result = .ok report → report.version = none) :
    after = tree ∨ result = .error (.io .isDirectory) ∧ store.Interrupted name tree root after := by
  have hend := application store name tree root
  rw [happly] at hend
  dsimp only at hend
  cases hend with
  | refused e => exact .inl rfl
  | unsupported hdefinition hnone => exact .inl rfl
  | applied hchosen hcommitted hcleared => cases hresult _ rfl
  | interrupted hchosen hcommitted hobsolete hdirectory hcleared =>
    exact .inr ⟨rfl, _, _, _, _, _, _, _, hchosen, hobsolete, hdirectory, hcommitted, hcleared⟩

/-- The version has a directory among its obsolete files. -/
theorem apply_stumbling : (ofVersions [sampleVersion "d"]).apply "D" sampleTree "root"
    = (.error (.io .isDirectory), sampleTreeWith 1) := by
  have hremove : removeObsolete (sampleTreeWith 1) "root" [⟨"d"⟩] = (.error (.io .isDirectory), sampleTreeWith 1) := by
    decide +kernel
  rw [apply_sampleVersion, hremove]

/-- The application is interrupted there. -/
theorem apply_interrupted_stumbling :
    (ofVersions [sampleVersion "d"]).apply "D" sampleTree "root" = (.error (.io .isDirectory), sampleTreeWith 1) ∧
      (ofVersions [sampleVersion "d"]).Interrupted "D" sampleTree "root" (sampleTreeWith 1) := by
  refine ⟨apply_stumbling, ?_⟩
  rcases apply_unchanged_or_interrupted apply_stumbling (fun report h => by cases h) with hsame | ⟨_, hinterrupted⟩
  · exact absurd hsame (by decide)
  · exact hinterrupted

/-- **Not every application is all or nothing.** The file is written, and then the directory cannot be removed. -/
theorem exists_apply_interrupted :
    ¬∀ (text name root : String) (store : PatchStore) (tree after : FileTree)
      (result : Except PatchError ApplyReport), PatchStore.parse text = .ok store →
      store.apply name tree root = (result, after) → (∀ report, result = .ok report → report.version = none) →
      ∀ path, after.read path = tree.read path := by
  intro h
  have hvalid : (ofVersions [sampleVersion "d"]).validate = .ok () := by decide +kernel
  have hsame := h _ _ _ _ _ _ _ (parse_write_of_valid hvalid) apply_stumbling (fun report h => by cases h)
    (Path.resolve "root" "a")
  rw [read_sampleTree] at hsame
  exact absurd hsame (by decide +kernel)

end PatchStore

end BinaryPatching
