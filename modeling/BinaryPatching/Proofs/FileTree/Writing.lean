import BinaryPatching.Proofs.FileTree.Access

/-!
# `BinaryPatching.Proofs.FileTree.Writing` — what a file that is written leaves as it was

A file is written together with the directories that hold it. Which place a path names can be read off the path, whatever
the tree holds, so it is known beforehand which file will be another one: no other file changes, appears or vanishes, and
the path is read as what was written.

## Contents
- `placeOf`, `eq_placeOf_of_locate`: the place that a path names.
- `Extends`, `extends_of_makeFrom`: a tree with some more directories.
- `content?`, `Keeps`: the content of a file, and that it stays.
- `writeWithParents_eq_ok`, `keeps_writeWithParents`, `read_writeWithParents`: a file written with its directories.
-/

namespace BinaryPatching.FileTree

/-! ## The place that a path names -/

/-- **The place that a path names**, whether the tree has the directories on the way or not. -/
def placeOf (tree : FileTree) (path : String) : Place :=
  (Path.components path).foldl descend (if Path.isAbsolute path then [] else tree.home)

/-- A walk that gets anywhere gets to the place that its components name. -/
theorem eq_foldl_of_walk {tree : FileTree} {start place : Place} {parts : List String}
    (h : tree.walk start parts = .ok place) : place = parts.foldl descend start := by
  induction parts generalizing start with
  | nil =>
    cases h
    rfl
  | cons part rest ih => exact ih (walk_cons_eq_ok_iff.1 h).2

/-- A path that leads anywhere leads to the place that it names. -/
theorem eq_placeOf_of_locate {tree : FileTree} {path : String} {place : Place} (h : tree.locate path = .ok place) :
    place = tree.placeOf path := by
  unfold locate at h
  split at h
  · cases h
  · split at h
    · cases h
    · exact eq_foldl_of_walk h

/-! ## More directories -/

/-- **A tree with some more directories.** Everything else is as before. -/
structure Extends (tree after : FileTree) : Prop where
  /-- The working directory stays. -/
  home_eq : after.home = tree.home
  /-- What was nothing may be a directory. -/
  node_eq : ∀ place, after.node? place = tree.node? place ∨
    (tree.node? place = none ∧ after.node? place = some .directory)

theorem Extends.refl (tree : FileTree) : Extends tree tree := ⟨rfl, fun _ => .inl rfl⟩

theorem Extends.trans {a b c : FileTree} (h : Extends a b) (h' : Extends b c) : Extends a c := by
  refine ⟨h'.home_eq.trans h.home_eq, fun place => ?_⟩
  rcases h.node_eq place with heq | ⟨hnone, hdirectory⟩
  · rcases h'.node_eq place with heq' | ⟨hnone', hdirectory'⟩
    · exact .inl (heq'.trans heq)
    · exact .inr ⟨heq.symm.trans hnone', hdirectory'⟩
  · rcases h'.node_eq place with heq' | ⟨hnone', _⟩
    · exact .inr ⟨hnone, heq'.trans hdirectory⟩
    · rw [hdirectory] at hnone'
      cases hnone'

/-- What was there stays. -/
theorem Extends.kept {tree after : FileTree} (h : Extends tree after) {place : Place} {node : Node}
    (hnode : tree.node? place = some node) : after.node? place = some node := by
  rcases h.node_eq place with heq | ⟨hnone, _⟩
  · exact heq.trans hnode
  · rw [hnone] at hnode
    cases hnode

theorem extends_put {tree : FileTree} {place : Place} (hnone : tree.node? place = none) :
    Extends tree (tree.put place .directory) := by
  have hne : place ≠ [] := by
    rintro rfl
    cases hnone
  refine ⟨rfl, fun other => ?_⟩
  by_cases hother : other = place
  · rw [hother]
    exact .inr ⟨hnone, node?_put_self tree _ hne⟩
  · exact .inl (node?_put_of_ne tree _ hother)

/-- **A step that makes a directory** goes down into one, which is there or has been made. -/
theorem makeFrom_cons {tree made : FileTree} {start : Place} {part : String} {rest : List String}
    (h : tree.makeFrom start (part :: rest) = .ok made) :
    ∃ next, Extends tree next ∧ (part ≠ "." → part ≠ ".." → next.node? (start ++ [part]) = some .directory) ∧
      next.makeFrom (descend start part) rest = .ok made := by
  unfold makeFrom at h
  dsimp only at h
  unfold descend
  split at h
  · rename_i hdot
    rw [if_pos hdot]
    exact ⟨tree, .refl tree, fun hne => absurd hdot hne, h⟩
  · rename_i hdot
    rw [if_neg hdot]
    split at h
    · rename_i hup
      rw [if_pos hup]
      exact ⟨tree, .refl tree, fun _ hne => absurd hup hne, h⟩
    · rename_i hup
      rw [if_neg hup]
      split at h
      · rename_i hdirectory
        exact ⟨tree, .refl tree, fun _ _ => hdirectory, h⟩
      · cases h
      · rename_i hnone
        have hne : start ++ [part] ≠ [] := List.append_ne_nil_of_right_ne_nil _ (List.cons_ne_nil _ _)
        exact ⟨_, extends_put hnone, fun _ _ => node?_put_self tree _ hne, h⟩

/-- **Making directories** leaves everything else as it is. -/
theorem extends_of_makeFrom {tree after : FileTree} {start : Place} {parts : List String}
    (h : tree.makeFrom start parts = .ok after) : Extends tree after := by
  induction parts generalizing tree start with
  | nil =>
    cases h
    exact .refl after
  | cons part rest ih =>
    obtain ⟨next, hnext, _, hrest⟩ := makeFrom_cons h
    exact hnext.trans (ih hrest)

/-! ## The content of a file -/

/-- **The content of the file** at a place. -/
def content? (tree : FileTree) (place : Place) : Option Bytes :=
  match tree.node? place with
  | some (.file content) => some content
  | _ => none

/-- **The file at a place stays** as it is, or stays missing. -/
structure Keeps (place : Place) (tree after : FileTree) : Prop where
  /-- The working directory stays. -/
  home_eq : after.home = tree.home
  /-- So does the file. -/
  content_eq : after.content? place = tree.content? place

theorem Keeps.refl (place : Place) (tree : FileTree) : Keeps place tree tree := ⟨rfl, rfl⟩

theorem Keeps.trans {place : Place} {a b c : FileTree} (h : Keeps place a b) (h' : Keeps place b c) : Keeps place a c :=
  ⟨h'.home_eq.trans h.home_eq, h'.content_eq.trans h.content_eq⟩

/-- A path names the same place afterwards. -/
theorem Keeps.placeOf_eq {place : Place} {tree after : FileTree} (h : Keeps place tree after) (path : String) :
    after.placeOf path = tree.placeOf path := by
  unfold placeOf
  rw [h.home_eq]

/-- More directories are no files. -/
theorem Extends.keeps {tree after : FileTree} (h : Extends tree after) (place : Place) : Keeps place tree after := by
  refine ⟨h.home_eq, ?_⟩
  unfold content?
  rcases h.node_eq place with heq | ⟨hnone, hdirectory⟩
  · rw [heq]
  · rw [hnone, hdirectory]

/-! ## A file written with its directories -/

/-- **A file written with its directories**: they are made first, and then the file is put at the place of its path,
where no directory is. -/
theorem writeWithParents_eq_ok {tree after : FileTree} {path : String} {content : Bytes}
    (h : tree.writeWithParents path content = .ok after) :
    ∃ made, tree.makeParents path = .ok made ∧ Extends tree made ∧ made.locate path = .ok (tree.placeOf path) ∧
      made.node? (tree.placeOf path) ≠ some .directory ∧ after = made.put (tree.placeOf path) (.file content) := by
  unfold writeWithParents at h
  split at h
  · cases h
  · rename_i made hmade
    have hextends : Extends tree made := by
      unfold makeParents at hmade
      split at hmade
      · cases hmade
      · exact extends_of_makeFrom hmade
    have hplace : made.placeOf path = tree.placeOf path := (hextends.keeps []).placeOf_eq path
    unfold write at h
    split at h
    · cases h
    · rename_i place hlocate
      have hnames := eq_placeOf_of_locate hlocate
      rw [hplace] at hnames
      subst hnames
      split at h
      · cases h
      · rename_i hnot
        cases h
        exact ⟨made, hmade, hextends, hlocate, fun hdirectory => hnot hdirectory, rfl⟩

/-- **No other file changes** when one is written. -/
theorem keeps_writeWithParents {tree after : FileTree} {path : String} {content : Bytes}
    (h : tree.writeWithParents path content = .ok after) {place : Place} (hne : tree.placeOf path ≠ place) :
    Keeps place tree after := by
  obtain ⟨made, _, hextends, _, _, rfl⟩ := writeWithParents_eq_ok h
  refine (hextends.keeps place).trans ⟨rfl, ?_⟩
  unfold content?
  rw [node?_put_of_ne made _ (Ne.symm hne)]

/-- **What was written is read.** -/
theorem read_writeWithParents {tree after : FileTree} {path : String} {content : Bytes}
    (h : tree.writeWithParents path content = .ok after) : after.read path = .ok content := by
  obtain ⟨made, _, _, hlocate, hnot, rfl⟩ := writeWithParents_eq_ok h
  have hne : tree.placeOf path ≠ [] := fun heq => hnot (heq ▸ rfl)
  have hhome : made.home = (made.put (tree.placeOf path) (.file content)).home := rfl
  -- The new file stands in the way of no directory.
  have hdirectories : ∀ other, made.node? other = some .directory →
      (made.put (tree.placeOf path) (.file content)).node? other = some .directory := by
    intro other hother
    rw [node?_put_of_ne made _ (by rintro rfl; exact hnot hother)]
    exact hother
  exact read_eq_ok_iff.2 ⟨_, locate_of_directories hhome hdirectories hlocate, node?_put_self made _ hne⟩

end BinaryPatching.FileTree
