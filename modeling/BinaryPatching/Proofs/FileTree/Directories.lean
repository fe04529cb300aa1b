import BinaryPatching.Proofs.FileTree.Writing

/-!
# `BinaryPatching.Proofs.FileTree.Directories` — files of one directory

A name joined to the path of a directory leads to that name in the place of the directory. When the directory can be
made, a file of any such name can be written in it, and afterwards the directory is there as it was made.

## Contents
- `IsPart`, `IsName`: the parts of a path, and the names that files of a directory can have.
- `Path.names`, `Path.components_join`: all parts of a path, and those of one with a part joined to it.
- `Makes`, `Makes.locate_join`, `Makes.placeOf_join`: a directory made, and where the names in it lead.
- `Makes.writeWithParents_join`, `Makes.put_file`: a file written in it.
-/

namespace BinaryPatching

open Text (splitAt splitAt_append splitAt_of_clear)

/-! ## Names in a path -/

/-- A part of a path: what can stand between its separators. -/
structure IsPart (part : String) : Prop where
  /-- It is not empty. -/
  nonempty : part.toList ≠ []
  /-- There is no separator in it. -/
  no_separator : '/' ∉ part.toList

/-- **The name of a file** in a directory: a part of a path that leads down. -/
structure IsName (name : String) : Prop where
  /-- It is not empty. -/
  nonempty : name.toList ≠ []
  /-- It is one part. -/
  no_separator : '/' ∉ name.toList
  /-- It can be looked up. -/
  no_zero : '\x00' ∉ name.toList
  /-- It leads away from the directory. -/
  not_here : name ≠ "."
  /-- It leads down. -/
  not_up : name ≠ ".."

theorem IsName.isPart {name : String} (h : IsName name) : IsPart name := ⟨h.nonempty, h.no_separator⟩

namespace Path

/-- The parts of a path between its separators. -/
def names (path : String) : List String :=
  ((splitAt (· == '/') path.toList).filter fun part => !part.isEmpty).map String.ofList

/-- The components of a path are its parts, and the directory itself after a separator at the end. -/
theorem components_eq (path : String) :
    components path = names path ++ if path.toList.getLast? = some '/' then ["."] else [] := by
  unfold components names
  dsimp only
  rw [List.map_append]
  split <;> rfl

/-- The parts before a separator, and those after it. -/
theorem names_of_toList_eq {path : String} {before after : List Char} (h : path.toList = before ++ '/' :: after) :
    names path = names (String.ofList before) ++ names (String.ofList after) := by
  have hsplit : splitAt (· == '/') (before ++ '/' :: after) = splitAt (· == '/') before ++ splitAt (· == '/') after :=
    splitAt_append (by rfl) before after
  unfold names
  rw [h, hsplit, List.filter_append, List.map_append, String.toList_ofList,
    String.toList_ofList]

/-- A part is its only one. -/
theorem names_of_isPart {part : String} (h : IsPart part) : names part = [part] := by
  have hclear : ∀ c ∈ part.toList, (c == '/') = false := fun c hc => beq_eq_false_iff_ne.2 fun heq =>
    h.no_separator (heq ▸ hc)
  have hkept : [part.toList].filter (fun part => !part.isEmpty) = [part.toList] := by
    rw [List.filter_eq_self]
    intro l hl
    rw [List.mem_singleton.1 hl, List.isEmpty_eq_false_iff.2 h.nonempty]
    rfl
  rw [names, splitAt_of_clear hclear, hkept, List.map_singleton, String.ofList_toList]

/-- There is a separator between a directory and a name, or no directory. -/
theorem toList_join (directory name : String) :
    (directory.toList = [] ∧ (join directory name).toList = name.toList) ∨
    ∃ before, (directory.toList = before ++ ['/'] ∨ (directory.toList = before ∧ before ≠ [])) ∧
      (join directory name).toList = before ++ '/' :: name.toList := by
  unfold join
  split
  · rename_i hempty
    exact .inl ⟨List.isEmpty_iff.1 hempty, rfl⟩
  · rename_i hempty
    split
    · rename_i hlast
      obtain ⟨before, hbefore⟩ := List.getLast?_eq_some_iff.1 hlast
      refine .inr ⟨before, .inl hbefore, ?_⟩
      rw [String.toList_append, hbefore, List.append_assoc, List.singleton_append]
    · refine .inr ⟨directory.toList, .inr ⟨rfl, fun hnil => hempty (List.isEmpty_iff.2 hnil)⟩, ?_⟩
      rw [String.toList_append, String.toList_append, List.append_assoc]
      rfl

/-- **A part joined to a directory** is one more part. -/
theorem names_join {directory part : String} (h : IsPart part) :
    names (join directory part) = names directory ++ [part] := by
  rcases toList_join directory part with ⟨hdirectory, hjoin⟩ | ⟨before, hdirectory, hjoin⟩
  · have hempty : names directory = [] := by
      unfold names
      rw [hdirectory]
      rfl
    rw [String.toList_inj.1 hjoin, hempty, names_of_isPart h, List.nil_append]
  · rw [names_of_toList_eq hjoin, String.ofList_toList, names_of_isPart h]
    rcases hdirectory with hdirectory | ⟨hdirectory, _⟩
    · have hnil : names (String.ofList []) = [] := by
        rw [names, String.toList_ofList]
        rfl
      rw [names_of_toList_eq hdirectory, hnil, List.append_nil]
    · rw [← hdirectory, String.ofList_toList]

theorem components_join {directory part : String} (h : IsPart part) :
    components (join directory part) = names directory ++ [part] := by
  have hlast : (join directory part).toList.getLast? ≠ some '/' := by
    have hpart : (join directory part).toList.getLast? = part.toList.getLast? := by
      rcases toList_join directory part with ⟨_, hjoin⟩ | ⟨before, _, hjoin⟩
      · rw [hjoin]
      · rw [hjoin, List.append_cons, List.getLast?_append, List.getLast?_eq_some_getLast h.nonempty, Option.some_or]
    rw [hpart]
    exact fun heq => h.no_separator (List.mem_of_getLast? heq)
  rw [components_eq, if_neg hlast, List.append_nil, names_join h]

/-- It begins where the directory does. -/
theorem isAbsolute_join {directory part : String} (h : IsPart part) :
    isAbsolute (join directory part) = isAbsolute directory := by
  unfold isAbsolute
  rcases toList_join directory part with ⟨hdirectory, hjoin⟩ | ⟨before, hdirectory, hjoin⟩
  · rw [hjoin, hdirectory]
    have hhead : part.toList.head? ≠ some '/' := fun heq => h.no_separator (List.mem_of_head? heq)
    exact beq_eq_false_iff_ne.2 hhead
  · rw [hjoin]
    rcases hdirectory with hdirectory | ⟨hdirectory, hbefore⟩
    · rw [hdirectory]
      cases before <;> rfl
    · rw [hdirectory, List.head?_append, List.head?_eq_some_head hbefore, Option.some_or]

/-- Its characters are those of the directory and the name, and a separator. -/
theorem mem_join {directory name : String} {c : Char} (hc : c ∈ (join directory name).toList) :
    c ∈ directory.toList ∨ c = '/' ∨ c ∈ name.toList := by
  unfold join at hc
  split at hc
  · exact .inr (.inr hc)
  · split at hc
    · rw [String.toList_append] at hc
      exact (List.mem_append.1 hc).imp id .inr
    · rw [String.toList_append, String.toList_append] at hc
      rcases List.mem_append.1 hc with hc | hc
      · exact (List.mem_append.1 hc).imp id fun hmem => .inl (List.mem_singleton.1 hmem)
      · exact .inr (.inr hc)

/-- Nothing of either gets lost. -/
theorem mem_join_of_mem {directory name : String} {c : Char} (h : c ∈ directory.toList ∨ c ∈ name.toList) :
    c ∈ (join directory name).toList := by
  unfold join
  split
  · rename_i hempty
    rcases h with h | h
    · rw [List.isEmpty_iff.1 hempty] at h
      cases h
    · exact h
  · split
    · rw [String.toList_append]
      exact List.mem_append.2 h
    · rw [String.toList_append, String.toList_append]
      exact List.mem_append.2 (h.imp (List.mem_append_left _) id)

theorem mem_foldl_join {c : Char} {directory : String} {names : List String}
    (h : c ∈ directory.toList ∨ ∃ name ∈ names, c ∈ name.toList) : c ∈ (names.foldl join directory).toList := by
  induction names generalizing directory with
  | nil =>
    rcases h with h | ⟨_, hname, _⟩
    · exact h
    · cases hname
  | cons first rest ih =>
    refine ih ?_
    rcases h with h | ⟨name, hname, hc⟩
    · exact .inl (mem_join_of_mem (.inl h))
    · rcases List.mem_cons.1 hname with rfl | hname
      · exact .inl (mem_join_of_mem (.inr hc))
      · exact .inr ⟨name, hname, hc⟩

/-- A store path keeps its characters under a root, but for separators. -/
theorem mem_resolve {c : Char} {path : String} (hc : c ∈ path.toList) (h : isSeparator c = false) (root : String) :
    c ∈ (resolve root path).toList := by
  obtain ⟨part, hpart, hmem⟩ := Text.exists_mem_splitAt h hc
  refine mem_foldl_join (.inr ⟨String.ofList part, ?_, by rwa [String.toList_ofList]⟩)
  refine List.mem_map_of_mem (List.mem_filter.2 ⟨hpart, ?_⟩)
  rw [List.isEmpty_eq_false_iff.2 (List.ne_nil_of_mem hmem)]
  rfl

end Path

namespace FileTree

/-! ## Walks and directories by their parts -/

/-- A walk goes on where its first part ended. -/
theorem walk_append_eq_ok_iff {tree : FileTree} {start place : Place} {parts rest : List String} :
    tree.walk start (parts ++ rest) = .ok place ↔
      ∃ middle, tree.walk start parts = .ok middle ∧ tree.walk middle rest = .ok place := by
  induction parts generalizing start with
  | nil =>
    refine ⟨fun h => ⟨start, rfl, h⟩, ?_⟩
    rintro ⟨_, hmiddle, h⟩
    cases hmiddle
    exact h
  | cons part parts ih =>
    rw [List.cons_append, walk_cons_eq_ok_iff, ih]
    constructor
    · rintro ⟨hstart, middle, hmiddle, h⟩
      exact ⟨middle, walk_cons_eq_ok_iff.2 ⟨hstart, hmiddle⟩, h⟩
    · rintro ⟨middle, hmiddle, h⟩
      exact ⟨(walk_cons_eq_ok_iff.1 hmiddle).1, middle, (walk_cons_eq_ok_iff.1 hmiddle).2, h⟩

/-- A component for the directory itself makes nothing. -/
theorem makeFrom_filter (tree : FileTree) (start : Place) (parts : List String) :
    tree.makeFrom start (parts.filter (· ≠ ".")) = tree.makeFrom start parts := by
  induction parts generalizing tree start with
  | nil => rfl
  | cons part parts ih =>
    by_cases hdot : part = "."
    · rw [List.filter_cons_of_neg (by simp [hdot]), makeFrom, if_pos hdot]
      exact ih tree start
    · rw [List.filter_cons_of_pos (by simp [hdot]), makeFrom, makeFrom, if_neg hdot, if_neg hdot]
      split
      · exact ih tree _
      · dsimp only
        split
        · exact ih tree _
        · rfl
        · exact ih _ _

/-- A directory that is there is not made. -/
theorem makeFrom_cons_of_directory {tree : FileTree} {start : Place} {part : String}
    (h : part ≠ "." → part ≠ ".." → tree.node? (start ++ [part]) = some .directory) (rest : List String) :
    tree.makeFrom start (part :: rest) = tree.makeFrom (descend start part) rest := by
  rw [makeFrom, descend]
  dsimp only
  split
  · rfl
  · rename_i hdot
    split
    · rfl
    · rename_i hup
      rw [h hdot hup]

/-- **Directories that are there** are not made again. -/
theorem makeFrom_of_directories {tree made after : FileTree} {start : Place} {parts : List String}
    (h : tree.makeFrom start parts = .ok made)
    (hafter : ∀ place, made.node? place = some .directory → after.node? place = some .directory) :
    after.makeFrom start parts = .ok after := by
  induction parts generalizing tree start with
  | nil => rfl
  | cons part parts ih =>
    obtain ⟨next, _, hdirectory, hrest⟩ := makeFrom_cons h
    have hthere : part ≠ "." → part ≠ ".." → after.node? (start ++ [part]) = some .directory := fun hdot hup =>
      hafter _ ((extends_of_makeFrom hrest).kept (hdirectory hdot hup))
    rw [makeFrom_cons_of_directory hthere]
    exact ih hrest

/-! ## A directory made -/

/-- Where the components of a path begin. -/
def startOf (tree : FileTree) (path : String) : Place := if Path.isAbsolute path then [] else tree.home

/-- **A directory made**: a tree in which the directory of a path is, and what it takes to get there. -/
structure Makes (tree made : FileTree) (directory : String) : Prop where
  /-- The path is one. -/
  no_zero : '\x00' ∉ directory.toList
  /-- Its directories are made where they are missing. -/
  made_eq : tree.makeFrom (tree.startOf directory) (Path.components directory) = .ok made
  /-- Then the path leads to the place that it names. -/
  walk_eq : made.walk (tree.startOf directory) (Path.components directory) = .ok (tree.placeOf directory)
  /-- There is a directory. -/
  node_eq : made.node? (tree.placeOf directory) = some .directory

namespace Makes

variable {tree made : FileTree} {directory name : String}

/-- It has some more directories. -/
theorem extends_made (h : Makes tree made directory) : Extends tree made := extends_of_makeFrom h.made_eq

/-- The path leads there without the separator at its end. -/
theorem walk_names (h : Makes tree made directory) :
    made.walk (tree.startOf directory) (Path.names directory) = .ok (tree.placeOf directory) := by
  have hwalk := h.walk_eq
  rw [Path.components_eq] at hwalk
  obtain ⟨middle, hmiddle, hrest⟩ := walk_append_eq_ok_iff.1 hwalk
  have heq : tree.placeOf directory = middle := by
    rw [eq_foldl_of_walk hrest]
    split <;> rfl
  rw [heq]
  exact hmiddle

/-- A path of a name in it is one. -/
theorem no_zero_join (h : Makes tree made directory) (hname : IsName name) :
    ¬(Path.join directory name).toList.contains '\x00' = true := by
  rw [List.contains_iff_mem]
  intro hmem
  rcases Path.mem_join hmem with hmem | hmem | hmem
  · exact h.no_zero hmem
  · exact absurd hmem (by decide)
  · exact hname.no_zero hmem

/-- The directories that hold a name are made with the directory. -/
theorem makeParents_join (h : Makes tree made directory) (hname : IsName name) :
    tree.makeParents (Path.join directory name) = .ok made := by
  -- Dropping the name leaves the parts of the directory, without those that make nothing.
  have hparents : Path.parentComponents (Path.join directory name) = (Path.names directory).filter (· ≠ ".") := by
    rw [Path.parentComponents, Path.components_join hname.isPart, List.filter_append,
      List.filter_cons_of_pos (by simpa using hname.not_here), List.filter_nil, List.dropLast_concat]
  have hcomponents : (Path.components directory).filter (· ≠ ".") = (Path.names directory).filter (· ≠ ".") := by
    rw [Path.components_eq, List.filter_append]
    split
    · exact List.append_nil _
    · exact List.append_nil _
  have hmade := h.made_eq
  rw [← makeFrom_filter, hcomponents] at hmade
  rw [makeParents, if_neg (h.no_zero_join hname), hparents, Path.isAbsolute_join hname.isPart]
  exact hmade

/-- **A name in the directory** leads to that name in its place. -/
theorem locate_join (h : Makes tree made directory) (hname : IsName name) :
    made.locate (Path.join directory name) = .ok (tree.placeOf directory ++ [name]) := by
  have hempty : ¬(Path.join directory name).toList.isEmpty = true := by
    rw [List.isEmpty_iff]
    intro hnil
    rcases Path.toList_join directory name with ⟨_, hjoin⟩ | ⟨before, _, hjoin⟩
    · exact hname.nonempty (hjoin.symm.trans hnil)
    · rw [hnil] at hjoin
      exact List.append_ne_nil_of_right_ne_nil _ (List.cons_ne_nil _ _) hjoin.symm
  have hlast : made.walk (tree.placeOf directory) [name] = .ok (tree.placeOf directory ++ [name]) := by
    rw [walk_cons_eq_ok_iff, descend, if_neg hname.not_here, if_neg hname.not_up]
    exact ⟨h.node_eq, rfl⟩
  rw [locate, if_neg hempty, if_neg (h.no_zero_join hname), Path.isAbsolute_join hname.isPart, h.extends_made.home_eq,
    Path.components_join hname.isPart]
  exact walk_append_eq_ok_iff.2 ⟨_, h.walk_names, hlast⟩

/-- It names that place beforehand. -/
theorem placeOf_join (h : Makes tree made directory) (hname : IsName name) :
    tree.placeOf (Path.join directory name) = tree.placeOf directory ++ [name] := by
  rw [eq_placeOf_of_locate (h.locate_join hname)]
  exact ((h.extends_made.keeps []).placeOf_eq _).symm

/-- **A file written in the directory**, unless a directory of its name is there. -/
theorem writeWithParents_join (h : Makes tree made directory) (hname : IsName name)
    (hnot : made.node? (tree.placeOf directory ++ [name]) ≠ some .directory) (content : Bytes) :
    tree.writeWithParents (Path.join directory name) content =
      .ok (made.put (tree.placeOf directory ++ [name]) (.file content)) := by
  rw [writeWithParents, h.makeParents_join hname]
  dsimp only
  rw [write, h.locate_join hname]
  dsimp only
  split
  · rename_i hdirectory
    exact absurd hdirectory hnot
  · rfl

/-- **The directory stays made** in a tree that has all the directories. -/
theorem of_directories (h : Makes tree made directory) {after : FileTree} (hhome : after.home = tree.home)
    (hafter : ∀ place, made.node? place = some .directory → after.node? place = some .directory) :
    Makes after after directory := by
  have hstart : after.startOf directory = tree.startOf directory := by
    unfold startOf
    rw [hhome]
  have hplace : after.placeOf directory = tree.placeOf directory := by
    unfold placeOf
    rw [hhome]
  refine ⟨h.no_zero, ?_, ?_, ?_⟩
  · rw [hstart]
    exact makeFrom_of_directories h.made_eq hafter
  · rw [hstart, hplace]
    exact walk_of_directories hafter h.walk_eq
  · rw [hplace]
    exact hafter _ h.node_eq

/-- A file in the directory takes the place of no directory. -/
theorem put_file (h : Makes tree made directory) {place : Place} (hnot : made.node? place ≠ some .directory)
    (content : Bytes) : Makes (made.put place (.file content)) (made.put place (.file content)) directory :=
  h.of_directories h.extends_made.home_eq fun other hother => by
    rw [node?_put_of_ne made _ (by rintro rfl; exact hnot hother)]
    exact hother

end Makes

end FileTree

end BinaryPatching
