import BinaryPatching.Patch.Apply
import BinaryPatching.Proofs.FileTree.Access
import BinaryPatching.Proofs.Lists

/-!
# `BinaryPatching.Proofs.Patch.Application` — what the application of a definition does to a tree

An application has three phases. The files of the version chosen are patched in memory, those that were not patched
before are written, and the obsolete files are removed. Each phase is described by what stands at a place afterwards,
and `Application` puts the descriptions together: it has one case for every way in which an application can end.

## Contents
- `FileTree.Leads`: where a path of a store leads.
- `TargetFile.apply_eq_ok_iff`, `Staged`, `stage_eq_ok_iff`: files patched in memory.
- `landed?`, `Committed`, `commit_of_files`: the files written.
- `Cleared`, `removeObsolete_of_files`, `removeObsolete_of_directory`: the obsolete files removed.
- `TargetVersion.isFound_iff`, `Chosen`: the version chosen.
- `Chosen.apply_eq`, `Chosen.apply_of_files`, `Chosen.apply_of_directory`: how its application goes.
- `Application`, `application`: every way in which an application can end.
-/

namespace BinaryPatching

/-! ## Places -/

/-- **Where a path of a store leads** below a root. -/
def FileTree.Leads (tree : FileTree) (root path : String) (place : Place) : Prop :=
  tree.locate (Path.resolve root path) = .ok place

/-- A path leads to one place only. -/
theorem FileTree.Leads.unique {tree : FileTree} {root path : String} {p q : Place} (hp : tree.Leads root path p)
    (hq : tree.Leads root path q) : p = q := Except.ok.inj (hp.symm.trans hq)

theorem FileTree.SameDirectories.leads_iff {a b : FileTree} (h : FileTree.SameDirectories a b) {root path : String}
    {place : Place} : a.Leads root path place ↔ b.Leads root path place := h.locate_eq_ok_iff

/-! ## Files patched in memory -/

/-- **What becomes of a file**: content with the digest that the patches are for is patched, and other content is
    left. -/
theorem TargetFile.apply_eq_ok_iff {file : TargetFile} {content data : Bytes} {outcome : Outcome} :
    file.apply content = (.ok outcome, data) ↔ outcome = file.outcome content ∧
      if Bytes.sha1 content = file.unpatchedHash then applyPatches content file.patches = (.ok (), data)
      else data = content := by
  unfold apply
  by_cases hunpatched : Bytes.sha1 content = file.unpatchedHash
  · have houtcome : file.outcome content = .patched := if_pos hunpatched
    rw [houtcome, if_pos hunpatched]
    dsimp only
    cases applyPatches content file.patches with
    | mk result r =>
      cases result with
      | error e => simp
      | ok _ => simp [eq_comm]
  · have houtcome : file.outcome content ≠ .patched := by
      unfold TargetFile.outcome
      dsimp only
      rw [if_neg hunpatched]
      split <;> simp
    rw [if_neg hunpatched]
    -- The branch that patches is not taken, and the other one leaves the content.
    split
    · rename_i hpatched
      exact absurd hpatched houtcome
    · simp [eq_comm]

/-- The content of a file is known just when it has one of two digests. -/
theorem TargetFile.outcome_ne_unsupported_iff {file : TargetFile} {content : Bytes} :
    file.outcome content ≠ .unsupportedVersion ↔
      Bytes.sha1 content = file.unpatchedHash ∨ Bytes.sha1 content = file.patchedHash := by
  unfold TargetFile.outcome
  dsimp only
  split
  · rename_i h
    simp [h]
  · rename_i hne
    split
    · rename_i h
      simp [h]
    · rename_i hne'
      simp [hne, hne']

/-- Content that is not patched is left as it was. -/
theorem TargetFile.data_of_apply {file : TargetFile} {content data : Bytes} {outcome : Outcome}
    (h : file.apply content = (.ok outcome, data)) (hne : outcome ≠ .patched) : data = content := by
  obtain ⟨rfl, hdata⟩ := apply_eq_ok_iff.1 h
  by_cases hunpatched : Bytes.sha1 content = file.unpatchedHash
  · exact absurd (if_pos hunpatched) hne
  · rwa [if_neg hunpatched] at hdata

/-- Content with the digest that the patches are for is patched. -/
theorem TargetFile.apply_of_unpatched {file : TargetFile} {content data : Bytes}
    (hhash : Bytes.sha1 content = file.unpatchedHash) (hdata : applyPatches content file.patches = (.ok (), data)) :
    file.apply content = (.ok .patched, data) := by
  refine apply_eq_ok_iff.2 ⟨(if_pos hhash).symm, ?_⟩
  rwa [if_pos hhash]

/-- **A file patched in memory.** Its path leads to a file, and the patches make the outcome and the data of its
    content. -/
structure Staged (tree : FileTree) (root : String) (file : TargetFile) (s : StagedFile) : Prop where
  /-- It is known by the path in the store. -/
  name_eq : s.name = file.path
  /-- It is to be written where it was read. -/
  path_eq : s.path = Path.resolve root file.path
  /-- It was made from what stands there. -/
  made : ∃ place content, tree.Leads root file.path place ∧ tree.node? place = some (.file content) ∧
    file.apply content = (.ok s.outcome, s.data)

/-- What a file comes to in memory is determined by the tree. -/
theorem Staged.unique {tree : FileTree} {root : String} {file : TargetFile} {s t : StagedFile}
    (hs : Staged tree root file s) (ht : Staged tree root file t) : s = t := by
  obtain ⟨p, c, hp, hc, happly⟩ := hs.made
  obtain ⟨q, d, hq, hd, happly'⟩ := ht.made
  cases hp.unique hq
  cases hc.symm.trans hd
  have heq := happly.symm.trans happly'
  simp only [Prod.mk.injEq, Except.ok.injEq] at heq
  cases s
  cases t
  simp only [StagedFile.mk.injEq]
  exact ⟨hs.name_eq.trans ht.name_eq.symm, hs.path_eq.trans ht.path_eq.symm, heq.2, heq.1⟩

/-- **Staging succeeds** just when every file can be read and patched. -/
theorem stage_eq_ok_iff {tree : FileTree} {root : String} {files : List TargetFile} {staged : List StagedFile} :
    stage tree root files = .ok staged ↔ List.Forall₂ (Staged tree root) files staged := by
  induction files generalizing staged with
  | nil =>
    rw [List.forall₂_nil_left_iff]
    unfold stage
    constructor
    · intro h
      cases h
      rfl
    · rintro rfl
      rfl
  | cons file rest ih =>
    rw [List.forall₂_cons_left_iff]
    unfold stage
    dsimp only
    constructor
    · -- The file is read, it is patched, and the rest is staged. A failure of any of the three is the result.
      intro h
      split at h
      · cases h
      · rename_i content hread
        split at h
        · cases h
        · rename_i outcome data happly
          split at h
          · cases h
          · rename_i others hrest
            cases h
            obtain ⟨place, hplace, hnode⟩ := FileTree.read_eq_ok_iff.1 hread
            exact ⟨_, others, ⟨rfl, rfl, place, content, hplace, hnode, happly⟩, ih.1 hrest, rfl⟩
    · rintro ⟨s, others, hs, hothers, rfl⟩
      obtain ⟨place, content, hplace, hnode, happly⟩ := hs.made
      rw [FileTree.read_eq_ok_iff.2 ⟨place, hplace, hnode⟩]
      dsimp only
      rw [happly]
      dsimp only
      rw [ih.2 hothers]
      dsimp only
      rw [← hs.path_eq, ← hs.name_eq]

/-! ## Files written -/

/-- Whether a staged file is to be written to a place. -/
def StagedFile.goesTo (tree : FileTree) (place : Place) (s : StagedFile) : Bool :=
  s.outcome == .patched &&
    match tree.locate s.path with
    | .ok p => p == place
    | .error _ => false

theorem StagedFile.goesTo_iff {tree : FileTree} {place : Place} {s : StagedFile} :
    s.goesTo tree place = true ↔ s.outcome = .patched ∧ tree.locate s.path = .ok place := by
  unfold goesTo
  rw [Bool.and_eq_true, beq_iff_eq]
  cases tree.locate s.path with
  | error e => simp
  | ok p => simp

/-- A staged file goes where the path of the file leads. -/
theorem Staged.leads_of_goesTo {tree : FileTree} {root : String} {file : TargetFile} {s : StagedFile}
    (h : Staged tree root file s) {place : Place} (hgoes : s.goesTo tree place = true) :
    tree.Leads root file.path place := by
  have hlocate := (StagedFile.goesTo_iff.1 hgoes).2
  rw [h.path_eq] at hlocate
  exact hlocate

/-- **What lands on a place** when staged files are written: the data of the last of those that go there. -/
def landed? (tree : FileTree) (place : Place) : List StagedFile → Option Bytes
  | [] => none
  | s :: rest => (landed? tree place rest).or (if s.goesTo tree place then some s.data else none)

theorem landed?_cons (tree : FileTree) (place : Place) (s : StagedFile) (rest : List StagedFile) :
    landed? tree place (s :: rest)
      = (landed? tree place rest).or (if s.goesTo tree place then some s.data else none) := rfl

/-- What lands on a place was staged for it. -/
theorem mem_of_landed? {tree : FileTree} {place : Place} {staged : List StagedFile} {data : Bytes}
    (h : landed? tree place staged = some data) : ∃ s ∈ staged, s.goesTo tree place = true ∧ s.data = data := by
  induction staged with
  | nil => cases h
  | cons s rest ih =>
    rw [landed?_cons] at h
    cases hrest : landed? tree place rest with
    | some later =>
      -- A later file overrides this one.
      rw [hrest, Option.some_or, Option.some.injEq] at h
      subst h
      obtain ⟨t, ht, hgoes⟩ := ih hrest
      exact ⟨t, List.mem_cons_of_mem _ ht, hgoes⟩
    | none =>
      rw [hrest, Option.none_or] at h
      split at h
      · rename_i hgoes
        cases h
        exact ⟨s, List.mem_cons_self, hgoes, rfl⟩
      · cases h

/-- Something lands on a place when some file goes there. -/
theorem landed?_isSome {tree : FileTree} {place : Place} {staged : List StagedFile} {s : StagedFile} (hs : s ∈ staged)
    (hgoes : s.goesTo tree place = true) : (landed? tree place staged).isSome = true := by
  induction staged with
  | nil => cases hs
  | cons t rest ih =>
    rw [landed?_cons]
    rcases List.mem_cons.1 hs with rfl | hs
    · rw [if_pos hgoes]
      cases landed? tree place rest <;> rfl
    · obtain ⟨data, hdata⟩ := Option.isSome_iff_exists.1 (ih hs)
      rw [hdata, Option.some_or]
      rfl

theorem landed?_congr {a b : FileTree} (h : FileTree.SameDirectories a b) (place : Place) (staged : List StagedFile) :
    landed? a place staged = landed? b place staged := by
  induction staged with
  | nil => rfl
  | cons s rest ih =>
    have hgoes : s.goesTo a place = s.goesTo b place := by
      rw [Bool.eq_iff_iff, StagedFile.goesTo_iff, StagedFile.goesTo_iff, h.locate_eq_ok_iff]
    rw [landed?_cons, landed?_cons, ih, hgoes]

/-- **The tree after staged files were written.** -/
structure Committed (tree : FileTree) (staged : List StagedFile) (after : FileTree) : Prop where
  /-- The directories stay. -/
  directories : FileTree.SameDirectories tree after
  /-- A place holds what landed there, or else what it held. -/
  node_eq : ∀ place, after.node? place = ((landed? tree place staged).map Node.file).or (tree.node? place)

/-- **Writing succeeds** when every path leads to a file. -/
theorem commit_of_files {tree : FileTree} {staged : List StagedFile}
    (h : ∀ s ∈ staged, ∃ place content, tree.locate s.path = .ok place ∧ tree.node? place = some (.file content)) :
    ∃ after, commit tree staged = (.ok (), after) ∧ Committed tree staged after := by
  induction staged generalizing tree with
  | nil => exact ⟨tree, rfl, FileTree.SameDirectories.refl tree, fun place => rfl⟩
  | cons s rest ih =>
    obtain ⟨p, content, hp, hcontent⟩ := h s List.mem_cons_self
    have hrest := fun t ht => h t (List.mem_cons_of_mem _ ht)
    unfold commit
    by_cases hs : s.outcome = .patched
    · rw [if_pos hs]
      obtain ⟨next, hwrite, hsame, hnode⟩ := FileTree.write_file hp hcontent s.data
      rw [hwrite]
      dsimp only
      -- Where there was a file there still is one, if not the same.
      have hnext : ∀ t ∈ rest, ∃ q old, next.locate t.path = .ok q ∧ next.node? q = some (.file old) := by
        intro t ht
        obtain ⟨q, old, hq, hold⟩ := hrest t ht
        refine ⟨q, if q = p then s.data else old, hsame.locate hq, ?_⟩
        rw [hnode q]
        split
        · rfl
        · exact hold
      obtain ⟨after, hcommit, hafter⟩ := ih hnext
      refine ⟨after, hcommit, hsame.trans hafter.directories, fun place => ?_⟩
      -- What the rest puts on a place is decided in the next tree, where all paths lead as before.
      rw [hafter.node_eq place, ← landed?_congr hsame, hnode place, landed?_cons]
      by_cases hplace : place = p
      · subst hplace
        rw [if_pos rfl, if_pos (StagedFile.goesTo_iff.2 ⟨hs, hp⟩)]
        cases landed? tree place rest <;> rfl
      · have hnot : ¬s.goesTo tree place = true := by
          intro hgoes
          exact hplace (Except.ok.inj ((StagedFile.goesTo_iff.1 hgoes).2.symm.trans hp))
        rw [if_neg hplace, if_neg hnot, Option.or_none]
    · rw [if_neg hs]
      obtain ⟨after, hcommit, hafter⟩ := ih hrest
      refine ⟨after, hcommit, hafter.directories, fun place => ?_⟩
      have hnot : ¬s.goesTo tree place = true := fun hgoes => hs (StagedFile.goesTo_iff.1 hgoes).1
      rw [landed?_cons, if_neg hnot, Option.or_none]
      exact hafter.node_eq place

/-! ## Obsolete files removed -/

/-- **The tree after obsolete files were removed.** -/
structure Cleared (tree : FileTree) (root : String) (obsolete : List ObsoleteFile) (after : FileTree) : Prop where
  /-- The directories stay. -/
  directories : FileTree.SameDirectories tree after
  /-- A place to which one of them leads is empty. -/
  gone : ∀ o ∈ obsolete, ∀ place, tree.Leads root o.path place → after.node? place = none
  /-- A place to which none of them leads is left as it was. -/
  kept : ∀ place, (∀ o ∈ obsolete, ¬tree.Leads root o.path place) → after.node? place = tree.node? place

theorem Cleared.nil (tree : FileTree) (root : String) : Cleared tree root [] tree :=
  ⟨FileTree.SameDirectories.refl tree, fun _ ho => absurd ho List.not_mem_nil, fun _ _ => rfl⟩

/-- A further obsolete file, removed before the others. -/
theorem Cleared.cons {tree next after : FileTree} {root : String} {o : ObsoleteFile} {rest : List ObsoleteFile}
    (h : Cleared tree root [o] next) (hrest : Cleared next root rest after) : Cleared tree root (o :: rest) after := by
  refine ⟨h.directories.trans hrest.directories, fun p hp place hplace => ?_, fun place hplace => ?_⟩
  · -- A place that was emptied stays empty, whether a later path leads there or not.
    by_cases hlater : ∃ q ∈ rest, next.Leads root q.path place
    · obtain ⟨q, hq, hleads⟩ := hlater
      exact hrest.gone q hq place hleads
    · rcases List.mem_cons.1 hp with rfl | hp
      · rw [hrest.kept place fun q hq hleads => hlater ⟨q, hq, hleads⟩]
        exact h.gone p List.mem_cons_self place hplace
      · exact absurd ⟨p, hp, h.directories.leads_iff.1 hplace⟩ hlater
  · rw [hrest.kept place fun p hp hleads => hplace p (List.mem_cons_of_mem _ hp) (h.directories.leads_iff.2 hleads)]
    refine h.kept place fun p hp => ?_
    rw [List.mem_singleton.1 hp]
    exact hplace o List.mem_cons_self

/-- What there is at the end of a path is a file or a directory. -/
theorem exists_file_of_exists? {tree : FileTree} {path : String} (h : tree.exists? path = true)
    (hfile : tree.isDirectory path = false) :
    ∃ place content, tree.locate path = .ok place ∧ tree.node? place = some (.file content) := by
  by_contra hnone
  have hgone : tree.exists? path = false := by
    refine FileTree.exists?_eq_false_iff.2 fun place hplace => ?_
    cases hnode : tree.node? place with
    | none => rfl
    | some node =>
      cases node with
      | file content => exact absurd ⟨place, content, hplace, hnode⟩ hnone
      | directory =>
        rw [FileTree.isDirectory_iff.2 ⟨place, hplace, hnode⟩] at hfile
        cases hfile
  rw [hgone] at h
  cases h

/-- One obsolete file that is no directory: if it is there, it is removed, and the others follow. -/
theorem removeObsolete_cons {tree : FileTree} {root : String} {o : ObsoleteFile}
    (h : tree.isDirectory (Path.resolve root o.path) = false) (rest : List ObsoleteFile) :
    ∃ next found, Cleared tree root [o] next ∧
      removeObsolete tree root (o :: rest)
        = ((removeObsolete next root rest).1.map (found ++ ·), (removeObsolete next root rest).2) := by
  rw [removeObsolete]
  dsimp only
  by_cases hexists : tree.exists? (Path.resolve root o.path) = true
  · obtain ⟨place, old, hplace, hold⟩ := exists_file_of_exists? hexists h
    obtain ⟨next, hremove, hsame, hnode⟩ := FileTree.remove_file hplace hold
    rw [if_pos hexists, hremove]
    refine ⟨next, [o.path], ⟨hsame, fun p hp other hother => ?_, fun other hother => ?_⟩, rfl⟩
    · rw [List.mem_singleton.1 hp] at hother
      rw [hnode other, if_pos (FileTree.Leads.unique hother hplace)]
    · rw [hnode other, if_neg]
      rintro rfl
      exact hother o List.mem_cons_self hplace
  · rw [if_neg hexists]
    have hgone := FileTree.exists?_eq_false_iff.1 (Bool.eq_false_iff.2 hexists)
    refine ⟨tree, [], ⟨FileTree.SameDirectories.refl tree, fun p hp place hplace => ?_, fun _ _ => rfl⟩, ?_⟩
    · rw [List.mem_singleton.1 hp] at hplace
      exact hgone place hplace
    · cases hrest : removeObsolete tree root rest with
      | mk result after => cases result <;> rfl

/-- **Removal succeeds** when none of the paths leads to a directory. -/
theorem removeObsolete_of_files {tree : FileTree} {root : String} {obsolete : List ObsoleteFile}
    (h : ∀ o ∈ obsolete, tree.isDirectory (Path.resolve root o.path) = false) :
    ∃ removed after, removeObsolete tree root obsolete = (.ok removed, after) ∧ Cleared tree root obsolete after := by
  induction obsolete generalizing tree with
  | nil => exact ⟨[], tree, rfl, Cleared.nil tree root⟩
  | cons o rest ih =>
    obtain ⟨next, found, hone, hcons⟩ := removeObsolete_cons (h o List.mem_cons_self) rest
    have hnext : ∀ p ∈ rest, next.isDirectory (Path.resolve root p.path) = false := by
      intro p hp
      rw [← hone.directories.isDirectory_eq]
      exact h p (List.mem_cons_of_mem _ hp)
    obtain ⟨removed, after, hremoved, hcleared⟩ := ih hnext
    rw [hcons, hremoved]
    exact ⟨found ++ removed, after, rfl, hone.cons hcleared⟩

/-- **Removal fails** at the first path that leads to a directory. Those before it have been removed. -/
theorem removeObsolete_of_directory {tree : FileTree} {root : String} {obsolete : List ObsoleteFile}
    (h : ∃ o ∈ obsolete, tree.isDirectory (Path.resolve root o.path) = true) :
    ∃ before o rest after, obsolete = before ++ o :: rest ∧ tree.isDirectory (Path.resolve root o.path) = true ∧
      removeObsolete tree root obsolete = (.error (.io .isDirectory), after) ∧ Cleared tree root before after := by
  induction obsolete generalizing tree with
  | nil =>
    obtain ⟨o, ho, _⟩ := h
    cases ho
  | cons o rest ih =>
    by_cases hfirst : tree.isDirectory (Path.resolve root o.path) = true
    · -- It exists, so its removal is tried, and fails.
      obtain ⟨place, hplace, hnode⟩ := FileTree.isDirectory_iff.1 hfirst
      have hexists : tree.exists? (Path.resolve root o.path) = true := by
        unfold FileTree.exists?
        rw [FileTree.nodeAt?_of_locate hplace, hnode]
        rfl
      unfold removeObsolete
      dsimp only
      rw [if_pos hexists, FileTree.remove_directory hfirst]
      exact ⟨[], o, rest, tree, rfl, hfirst, rfl, Cleared.nil tree root⟩
    · obtain ⟨next, found, hone, hcons⟩ := removeObsolete_cons (Bool.eq_false_iff.2 hfirst) rest
      -- The directory is a later one, and is still there when the first is gone.
      have hnext : ∃ q ∈ rest, next.isDirectory (Path.resolve root q.path) = true := by
        obtain ⟨q, hq, hdirectory⟩ := h
        rcases List.mem_cons.1 hq with rfl | hq
        · exact absurd hdirectory hfirst
        · rw [hone.directories.isDirectory_eq] at hdirectory
          exact ⟨q, hq, hdirectory⟩
      obtain ⟨before, p, others, after, rfl, hp, hremoved, hcleared⟩ := ih hnext
      rw [hcons, hremoved]
      refine ⟨o :: before, p, others, after, rfl, ?_, rfl, hone.cons hcleared⟩
      rw [hone.directories.isDirectory_eq]
      exact hp

/-! ## The whole application -/

/-- The obsolete files of a version. -/
def TargetVersion.obsolete (version : TargetVersion) : List ObsoleteFile := version.files.flatMap (·.obsolete)

/-- **A version is found** when it has files, and the content of each is known. -/
theorem TargetVersion.isFound_iff {version : TargetVersion} {tree : FileTree} {root : String} :
    version.isFound tree root = true ↔ version.files ≠ [] ∧ ∀ f ∈ version.files, ∃ place content,
      tree.Leads root f.path place ∧ tree.node? place = some (.file content) ∧
        f.outcome content ≠ .unsupportedVersion := by
  unfold isFound
  rw [Bool.and_eq_true, List.all_eq_true]
  refine and_congr (by simp) (forall_congr' fun f => imp_congr_right fun _ => ?_)
  unfold TargetFile.outcomeAt
  cases hread : tree.read (Path.resolve root f.path) with
  | error e =>
    constructor
    · intro h
      cases h
    · rintro ⟨place, content, hplace, hnode, _⟩
      rw [FileTree.read_eq_ok_iff.2 ⟨place, hplace, hnode⟩] at hread
      cases hread
  | ok content =>
    obtain ⟨place, hplace, hnode⟩ := FileTree.read_eq_ok_iff.1 hread
    constructor
    · intro h
      exact ⟨place, content, hplace, hnode, by simpa using h⟩
    · rintro ⟨p, c, hp, hc, hknown⟩
      cases (FileTree.Leads.unique hplace hp)
      cases hnode.symm.trans hc
      simpa using hknown

/-- A version is found where all its files are still to be patched. -/
theorem TargetVersion.isFound_of_unpatched {version : TargetVersion} {tree : FileTree} {root : String}
    (hne : version.files ≠ []) (h : ∀ f ∈ version.files, ∃ content,
      tree.read (Path.resolve root f.path) = .ok content ∧ Bytes.sha1 content = f.unpatchedHash) :
    version.isFound tree root = true := by
  refine isFound_iff.2 ⟨hne, fun f hf => ?_⟩
  obtain ⟨content, hread, hhash⟩ := h f hf
  obtain ⟨place, hplace, hnode⟩ := FileTree.read_eq_ok_iff.1 hread
  exact ⟨place, content, hplace, hnode, TargetFile.outcome_ne_unsupported_iff.2 (.inl hhash)⟩

/-- What is chosen was found. -/
theorem PatchDefinition.isFound_of_select? {definition : PatchDefinition} {tree : FileTree} {root : String}
    {v : TargetVersion} (h : definition.select? tree root = some v) : v.isFound tree root = true := by
  unfold select? at h
  exact List.find?_some (p := fun u : TargetVersion => u.isFound tree root) h

section

variable {name : String} {first : TargetVersion} {rest : List TargetVersion} {tree : FileTree} {root : String}

/-- The first version is chosen where it is found. -/
theorem PatchDefinition.select?_of_isFound (h : first.isFound tree root = true) :
    (PatchDefinition.mk name (first :: rest)).select? tree root = some first := by
  unfold select?
  exact List.find?_cons_of_pos (p := fun u : TargetVersion => u.isFound tree root) h

/-- It is passed over where it is not. -/
theorem PatchDefinition.select?_of_not_isFound (h : ¬first.isFound tree root = true) :
    (PatchDefinition.mk name (first :: rest)).select? tree root = (PatchDefinition.mk name rest).select? tree root := by
  unfold select?
  exact List.find?_cons_of_neg (p := fun u : TargetVersion => u.isFound tree root) h

end

/-- **The version chosen**: the definition of the name, the first of its versions that is found, and its files patched
    in memory. -/
structure Chosen (store : PatchStore) (name : String) (tree : FileTree) (root : String) (d : PatchDefinition)
    (v : TargetVersion) (staged : List StagedFile) : Prop where
  /-- The definition. -/
  definition : store.definition? name = some d
  /-- The version. -/
  version : d.select? tree root = some v
  /-- The files in memory. -/
  staged : List.Forall₂ (Staged tree root) v.files staged

/-- What was read for the files of the version is still there to be written. -/
theorem Chosen.files {store : PatchStore} {name : String} {tree : FileTree} {root : String} {d : PatchDefinition}
    {v : TargetVersion} {staged : List StagedFile} (h : Chosen store name tree root d v staged) :
    ∀ s ∈ staged, ∃ place content, tree.locate s.path = .ok place ∧ tree.node? place = some (.file content) := by
  intro s hs
  obtain ⟨file, _, hfile⟩ := exists_left_of_forall₂ h.staged hs
  obtain ⟨place, content, hplace, hnode, _⟩ := hfile.made
  refine ⟨place, content, ?_, hnode⟩
  rw [hfile.path_eq]
  exact hplace

section

variable {store : PatchStore} {name : String} {tree : FileTree} {root : String} {d : PatchDefinition}
  {v : TargetVersion} {staged : List StagedFile}

/-- Once a version is chosen and its files are written, what remains is the removal of the obsolete ones. -/
theorem Chosen.apply_eq (h : Chosen store name tree root d v staged) {middle : FileTree}
    (hcommit : commit tree staged = (.ok (), middle)) :
    store.apply name tree root = match removeObsolete middle root v.obsolete with
      | (.error e, after) => (.error e, after)
      | (.ok removed, after) =>
        (.ok ⟨d.name, some v.description, staged.map fun f => (f.name, f.outcome), removed⟩, after) := by
  unfold PatchStore.apply
  rw [h.definition]
  dsimp only
  rw [h.version]
  dsimp only
  unfold TargetVersion.apply
  rw [stage_eq_ok_iff.2 h.staged]
  dsimp only
  rw [hcommit]
  rfl

/-- **An application without obsolete directories** goes through all phases. -/
theorem Chosen.apply_of_files (h : Chosen store name tree root d v staged)
    (hfiles : ∀ o ∈ v.obsolete, tree.isDirectory (Path.resolve root o.path) = false) :
    ∃ removed middle after, Committed tree staged middle ∧ Cleared middle root v.obsolete after ∧
      store.apply name tree root
        = (.ok ⟨d.name, some v.description, staged.map fun f => (f.name, f.outcome), removed⟩, after) := by
  obtain ⟨middle, hcommit, hcommitted⟩ := commit_of_files h.files
  have happly := h.apply_eq hcommit
  simp only [hcommitted.directories.isDirectory_eq] at hfiles
  obtain ⟨removed, after, hremove, hcleared⟩ := removeObsolete_of_files hfiles
  rw [hremove] at happly
  exact ⟨removed, middle, after, hcommitted, hcleared, happly⟩

/-- **An application with an obsolete directory** ends there. -/
theorem Chosen.apply_of_directory (h : Chosen store name tree root d v staged)
    (hdirectory : ∃ o ∈ v.obsolete, tree.isDirectory (Path.resolve root o.path) = true) :
    ∃ middle before o rest after, Committed tree staged middle ∧ v.obsolete = before ++ o :: rest ∧
      tree.isDirectory (Path.resolve root o.path) = true ∧ Cleared middle root before after ∧
      store.apply name tree root = (.error (.io .isDirectory), after) := by
  obtain ⟨middle, hcommit, hcommitted⟩ := commit_of_files h.files
  have happly := h.apply_eq hcommit
  simp only [hcommitted.directories.isDirectory_eq] at hdirectory
  obtain ⟨before, o, rest, after, heq, ho, hremove, hcleared⟩ := removeObsolete_of_directory hdirectory
  rw [← hcommitted.directories.isDirectory_eq] at ho
  rw [hremove] at happly
  exact ⟨middle, before, o, rest, after, hcommitted, heq, ho, hcleared, happly⟩

end

/-- **How an application can end**, with the tree that it leaves. -/
inductive Application (store : PatchStore) (name : String) (tree : FileTree) (root : String) :
    Except PatchError ApplyReport → FileTree → Prop
  /-- An error comes up before anything is written. -/
  | refused (e : PatchError) : Application store name tree root (.error e) tree
  /-- No version is found. -/
  | unsupported {d : PatchDefinition} (definition : store.definition? name = some d)
      (version : d.select? tree root = none) :
      Application store name tree root (.ok ⟨d.name, none, d.unsupported tree root, []⟩) tree
  /-- The files are written and the obsolete ones removed. -/
  | applied {d : PatchDefinition} {v : TargetVersion} {staged : List StagedFile} {middle after : FileTree}
      {removed : List String} (chosen : Chosen store name tree root d v staged)
      (committed : Committed tree staged middle) (cleared : Cleared middle root v.obsolete after) :
      Application store name tree root
        (.ok ⟨d.name, some v.description, staged.map fun f => (f.name, f.outcome), removed⟩) after
  /-- The files are written, but the removal of the obsolete ones ends at a directory. -/
  | interrupted {d : PatchDefinition} {v : TargetVersion} {staged : List StagedFile} {middle after : FileTree}
      {before rest : List ObsoleteFile} {o : ObsoleteFile} (chosen : Chosen store name tree root d v staged)
      (committed : Committed tree staged middle) (obsolete_eq : v.obsolete = before ++ o :: rest)
      (directory : tree.isDirectory (Path.resolve root o.path) = true) (cleared : Cleared middle root before after) :
      Application store name tree root (.error (.io .isDirectory)) after

/-- **Every application ends in one of these ways.** -/
theorem application (store : PatchStore) (name : String) (tree : FileTree) (root : String) :
    Application store name tree root (store.apply name tree root).1 (store.apply name tree root).2 := by
  cases hd : store.definition? name with
  | none =>
    unfold PatchStore.apply
    rw [hd]
    exact .refused _
  | some d =>
    cases hv : d.select? tree root with
    | none =>
      unfold PatchStore.apply
      rw [hd]
      dsimp only
      rw [hv]
      exact .unsupported hd hv
    | some v =>
      -- Nothing is written before all files are staged, and then only an obsolete directory can be in the way.
      cases hstage : stage tree root v.files with
      | error e =>
        unfold PatchStore.apply
        rw [hd]
        dsimp only
        rw [hv]
        dsimp only
        unfold TargetVersion.apply
        rw [hstage]
        exact .refused e
      | ok staged =>
        have hchosen : Chosen store name tree root d v staged := ⟨hd, hv, stage_eq_ok_iff.1 hstage⟩
        by_cases hdirectory : ∃ o ∈ v.obsolete, tree.isDirectory (Path.resolve root o.path) = true
        · obtain ⟨middle, before, o, rest, after, hcommitted, heq, ho, hcleared, happly⟩ :=
            hchosen.apply_of_directory hdirectory
          rw [happly]
          exact .interrupted hchosen hcommitted heq ho hcleared
        · have hfiles : ∀ o ∈ v.obsolete, tree.isDirectory (Path.resolve root o.path) = false :=
            fun o ho => Bool.eq_false_iff.2 fun h => hdirectory ⟨o, ho, h⟩
          obtain ⟨removed, middle, after, hcommitted, hcleared, happly⟩ := hchosen.apply_of_files hfiles
          rw [happly]
          exact .applied hchosen hcommitted hcleared

end BinaryPatching
