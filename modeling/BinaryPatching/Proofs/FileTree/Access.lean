import BinaryPatching.FileTree.Basic

/-!
# `BinaryPatching.Proofs.FileTree.Access` — what accesses see of a tree, and what they leave

A path is looked up through directories. So two trees with the same directories have every path lead to the same place,
whatever files they hold; and files can be rewritten and removed without any path losing its way.

## Contents
- `descend`, `walk_cons_eq_ok_iff`: the steps of a walk.
- `read_eq_ok_iff`, `isDirectory_iff`, `exists?_eq_false_iff`: accesses by the place that a path leads to.
- `walk_of_directories`, `locate_of_directories`: paths in a tree with more directories.
- `SameDirectories`, `SameDirectories.locate_eq_ok_iff`: trees in which paths lead to the same places.
- `sameDirectories_of_file`, `write_file`, `remove_file`: a file rewritten and a file removed.
-/

namespace BinaryPatching.FileTree

/-! ## Walks -/

/-- The place to which a component leads from another one. -/
def descend (start : Place) (part : String) : Place :=
  if part = "." then start else if part = ".." then start.dropLast else start ++ [part]

/-- **A step of a walk** is taken in a directory. -/
theorem walk_cons_eq_ok_iff {tree : FileTree} {start place : Place} {part : String} {rest : List String} :
    tree.walk start (part :: rest) = .ok place ↔
      tree.node? start = some .directory ∧ tree.walk (descend start part) rest = .ok place := by
  rw [walk, descend]
  cases tree.node? start with
  | none => exact iff_of_false (fun h => by cases h) (fun h => by cases h.1)
  | some node =>
    cases node with
    | file content => exact iff_of_false (fun h => by cases h) (fun h => by cases h.1)
    | directory =>
      rw [and_iff_right rfl]
      dsimp only
      split
      · exact Iff.rfl
      · split <;> exact Iff.rfl

/-! ## Accesses by place -/

/-- What a path leads to stands at its place. -/
theorem nodeAt?_of_locate {tree : FileTree} {path : String} {place : Place} (h : tree.locate path = .ok place) :
    tree.nodeAt? path = tree.node? place := by
  unfold nodeAt?
  rw [h]

/-- A path that leads to a place holds no zero. -/
theorem no_zero_of_locate {tree : FileTree} {path : String} {place : Place} (h : tree.locate path = .ok place) :
    '\x00' ∉ path.toList := by
  intro hzero
  unfold locate at h
  rw [if_pos (List.contains_iff_mem.2 hzero)] at h
  split at h
  · cases h
  · cases h

/-- **A file is read** where the path leads to one. -/
theorem read_eq_ok_iff {tree : FileTree} {path : String} {content : Bytes} :
    tree.read path = .ok content ↔
      ∃ place, tree.locate path = .ok place ∧ tree.node? place = some (.file content) := by
  unfold read
  constructor
  · intro h
    split at h
    · cases h
    · rename_i place hplace
      split at h
      · rename_i c hc
        cases h
        exact ⟨place, hplace, hc⟩
      · cases h
      · cases h
  · rintro ⟨place, hplace, hnode⟩
    rw [hplace]
    dsimp only
    rw [hnode]

/-- A path that leads to a directory. -/
theorem isDirectory_iff {tree : FileTree} {path : String} :
    tree.isDirectory path = true ↔ ∃ place, tree.locate path = .ok place ∧ tree.node? place = some .directory := by
  unfold isDirectory nodeAt?
  constructor
  · intro h
    cases hplace : tree.locate path with
    | error e =>
      rw [hplace] at h
      cases h
    | ok place =>
      rw [hplace] at h
      refine ⟨place, rfl, ?_⟩
      split at h
      · assumption
      · cases h
  · rintro ⟨place, hplace, hnode⟩
    rw [hplace]
    dsimp only
    rw [hnode]

/-- A path that leads to nothing: there is nothing at its place, or it has none. -/
theorem exists?_eq_false_iff {tree : FileTree} {path : String} :
    tree.exists? path = false ↔ ∀ place, tree.locate path = .ok place → tree.node? place = none := by
  unfold exists?
  rw [Option.isSome_eq_false_iff, Option.isNone_iff_eq_none]
  constructor
  · intro h place hplace
    rwa [nodeAt?_of_locate hplace] at h
  · intro h
    unfold nodeAt?
    cases hplace : tree.locate path with
    | error e => rfl
    | ok place => exact h place hplace

/-- A path that leads to something. -/
theorem exists?_eq_true_iff {tree : FileTree} {path : String} :
    tree.exists? path = true ↔ ∃ place node, tree.locate path = .ok place ∧ tree.node? place = some node := by
  unfold exists? nodeAt?
  rw [Option.isSome_iff_exists]
  cases tree.locate path with
  | error e =>
    refine ⟨?_, ?_⟩
    · rintro ⟨_, hnode⟩
      cases hnode
    · rintro ⟨_, _, hplace, _⟩
      cases hplace
  | ok place =>
    refine ⟨fun ⟨node, hnode⟩ => ⟨place, node, rfl, hnode⟩, ?_⟩
    rintro ⟨_, node, hplace, hnode⟩
    cases hplace
    exact ⟨node, hnode⟩

/-! ## Trees with the same directories -/

/-- **The same directories**: the two trees begin at the same place and have their directories at the same places. -/
structure SameDirectories (a b : FileTree) : Prop where
  /-- They have one working directory. -/
  home_eq : a.home = b.home
  /-- What is a directory in one is a directory in the other. -/
  directory_iff : ∀ place, a.node? place = some .directory ↔ b.node? place = some .directory

theorem SameDirectories.refl (tree : FileTree) : SameDirectories tree tree := ⟨rfl, fun _ => Iff.rfl⟩

theorem SameDirectories.trans {a b c : FileTree} (h : SameDirectories a b) (h' : SameDirectories b c) :
    SameDirectories a c :=
  ⟨h.home_eq.trans h'.home_eq, fun place => (h.directory_iff place).trans (h'.directory_iff place)⟩

theorem SameDirectories.symm {a b : FileTree} (h : SameDirectories a b) : SameDirectories b a :=
  ⟨h.home_eq.symm, fun place => (h.directory_iff place).symm⟩

/-- A walk that gets anywhere gets to the same place in a tree that has all the directories. -/
theorem walk_of_directories {a b : FileTree}
    (h : ∀ place, a.node? place = some .directory → b.node? place = some .directory) {start place : Place}
    {parts : List String} (hwalk : a.walk start parts = .ok place) : b.walk start parts = .ok place := by
  induction parts generalizing start with
  | nil => exact hwalk
  | cons part rest ih =>
    obtain ⟨hstart, hrest⟩ := walk_cons_eq_ok_iff.1 hwalk
    exact walk_cons_eq_ok_iff.2 ⟨h start hstart, ih hrest⟩

/-- A path that leads to a place leads there in a tree that has all the directories. -/
theorem locate_of_directories {a b : FileTree} (hhome : a.home = b.home)
    (h : ∀ place, a.node? place = some .directory → b.node? place = some .directory) {path : String} {place : Place}
    (hplace : a.locate path = .ok place) : b.locate path = .ok place := by
  unfold FileTree.locate at hplace ⊢
  split
  · rename_i hempty
    rw [if_pos hempty] at hplace
    cases hplace
  · rename_i hempty
    rw [if_neg hempty] at hplace
    split
    · rename_i hzero
      rw [if_pos hzero] at hplace
      cases hplace
    · rename_i hzero
      rw [if_neg hzero] at hplace
      rw [← hhome]
      exact walk_of_directories h hplace

theorem SameDirectories.locate {a b : FileTree} (h : SameDirectories a b) {path : String} {place : Place}
    (hplace : a.locate path = .ok place) : b.locate path = .ok place :=
  locate_of_directories h.home_eq (fun other => (h.directory_iff other).1) hplace

/-- **Paths lead to the same places** in trees with the same directories. -/
theorem SameDirectories.locate_eq_ok_iff {a b : FileTree} (h : SameDirectories a b) {path : String} {place : Place} :
    a.locate path = .ok place ↔ b.locate path = .ok place := ⟨h.locate, h.symm.locate⟩

theorem SameDirectories.isDirectory_eq {a b : FileTree} (h : SameDirectories a b) (path : String) :
    a.isDirectory path = b.isDirectory path := by
  rw [Bool.eq_iff_iff, isDirectory_iff, isDirectory_iff]
  refine exists_congr fun place => ?_
  rw [h.locate_eq_ok_iff, h.directory_iff]

/-! ## Files rewritten and removed -/

/-- There is a directory at the top, so a place that holds a file lies below it. -/
theorem ne_nil_of_file {tree : FileTree} {place : Place} {content : Bytes}
    (h : tree.node? place = some (.file content)) : place ≠ [] := by
  rintro rfl
  cases h

/-- **What happens to a file** leaves the directories as they are, unless a directory takes its place. -/
theorem sameDirectories_of_file {tree after : FileTree} {place : Place} {old : Bytes} {node : Option Node}
    (hold : tree.node? place = some (.file old)) (hhome : tree.home = after.home) (hnot : node ≠ some .directory)
    (hnode : ∀ other, after.node? other = if other = place then node else tree.node? other) :
    SameDirectories tree after := by
  refine ⟨hhome, fun other => ?_⟩
  rw [hnode other]
  split
  · rename_i heq
    rw [heq, hold]
    exact iff_of_false (by simp) hnot
  · exact Iff.rfl

/-- **A file rewritten.** The directories stay, and no other place changes. -/
theorem write_file {tree : FileTree} {path : String} {place : Place} {old : Bytes}
    (hplace : tree.locate path = .ok place) (hold : tree.node? place = some (.file old)) (content : Bytes) :
    ∃ after, tree.write path content = .ok after ∧ SameDirectories tree after ∧
      ∀ other, after.node? other = if other = place then some (.file content) else tree.node? other := by
  have hne := ne_nil_of_file hold
  have hnode : ∀ other, (tree.put place (.file content)).node? other
      = if other = place then some (.file content) else tree.node? other := by
    intro other
    split
    · rename_i heq
      rw [heq, node?_put_self tree _ hne]
    · rename_i hother
      exact node?_put_of_ne tree _ hother
  refine ⟨tree.put place (.file content), ?_, sameDirectories_of_file hold rfl (by simp) hnode, hnode⟩
  unfold write
  rw [hplace]
  dsimp only
  rw [hold]

/-- **A file removed.** The directories stay, and no other place changes. -/
theorem remove_file {tree : FileTree} {path : String} {place : Place} {old : Bytes}
    (hplace : tree.locate path = .ok place) (hold : tree.node? place = some (.file old)) :
    ∃ after, tree.remove path = .ok after ∧ SameDirectories tree after ∧
      ∀ other, after.node? other = if other = place then none else tree.node? other := by
  have hne := ne_nil_of_file hold
  have hnode : ∀ other, (tree.erase place).node? other = if other = place then none else tree.node? other := by
    intro other
    split
    · rename_i heq
      rw [heq, node?_erase_self tree hne]
    · rename_i hother
      exact node?_erase_of_ne tree hother
  refine ⟨tree.erase place, ?_, sameDirectories_of_file hold rfl (by simp) hnode, hnode⟩
  unfold remove
  rw [hplace]
  dsimp only
  rw [hold]

/-- A directory cannot be removed. -/
theorem remove_directory {tree : FileTree} {path : String} (h : tree.isDirectory path = true) :
    tree.remove path = .error .isDirectory := by
  obtain ⟨place, hplace, hnode⟩ := isDirectory_iff.1 h
  unfold remove
  rw [hplace]
  dsimp only
  rw [hnode]

end BinaryPatching.FileTree
