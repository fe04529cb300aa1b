import BinaryPatching.Text.Split

/-!
# `BinaryPatching.FileTree.Path` — names of files

Two notations meet here. A path of the file tree has `/` between its components. A path of a patch store has
either separator, is kept with `\` throughout and is always meant relative to some root.

## Contents
- `Path.components`, `Path.isAbsolute`, `Path.parentComponents`: paths of the file tree.
- `Path.normalize`, `Path.resolve`: paths of a store, and where they lead under a root.
-/

namespace BinaryPatching.Path

open Text (splitAt)

/-! ## Paths of the file tree -/

/-- Whether a path starts at the top of the tree and not at the working directory. -/
def isAbsolute (path : String) : Bool := path.toList.head? == some '/'

/-- The components of a path. A separator at the end asks for a directory, as the component `.` does. -/
def components (path : String) : List String :=
  let parts := (splitAt (· == '/') path.toList).filter (fun part => !part.isEmpty)
  let closing := if path.toList.getLast? = some '/' then [['.']] else []
  (parts ++ closing).map String.ofList

/-- The components of the directory that holds a path. -/
def parentComponents (path : String) : List String :=
  ((components path).filter (· ≠ ".")).dropLast

/-- A path with one more part at its end. -/
def join (root part : String) : String :=
  if root.toList.isEmpty then part
  else if root.toList.getLast? = some '/' then root ++ part
  else root ++ "/" ++ part

/-! ## Paths of a store -/

/-- The separators of a store path. -/
def isSeparator (c : Char) : Bool := c == '\\' || c == '/'

/-- A store path in the form that the store keeps: no separator in front, `\` as the only one. -/
def normalize (path : String) : String :=
  Text.onChars (fun cs => (cs.dropWhile isSeparator).map fun c => if c = '/' then '\\' else c) path

/-- The parts of a store path that name something. -/
def parts (path : String) : List String :=
  ((splitAt isSeparator path.toList).filter fun part => !part.isEmpty).map String.ofList

/-- Where a store path leads under a root. -/
def resolve (root path : String) : String := (parts path).foldl join root

/-- A store path has no separator `/` in its normal form. -/
theorem slash_not_mem_normalize (path : String) : '/' ∉ (normalize path).toList := by
  simp only [normalize, Text.toList_onChars, List.mem_map, not_exists, not_and]
  intro c _
  split
  · decide
  · assumption

/-- The normal form is its own normal form. -/
theorem normalize_normalize (path : String) : normalize (normalize path) = normalize path := by
  apply String.toList_inj.1
  simp only [normalize, Text.toList_onChars]
  generalize path.toList = cs
  have hmap : ∀ l : List Char, (l.map fun c => if c = '/' then '\\' else c).map
      (fun c => if c = '/' then '\\' else c) = l.map fun c => if c = '/' then '\\' else c := by
    intro l
    rw [List.map_map]
    apply List.map_congr_left
    intro c _
    by_cases h : c = '/' <;> simp [h]
  have hdrop : ((cs.dropWhile isSeparator).map fun c => if c = '/' then '\\' else c).dropWhile isSeparator
      = (cs.dropWhile isSeparator).map fun c => if c = '/' then '\\' else c := by
    cases hd : cs.dropWhile isSeparator with
    | nil => rfl
    | cons c rest =>
      have hc : isSeparator c = false := by
        have := List.head?_dropWhile_not isSeparator cs
        simpa [hd] using this
      have hne : c ≠ '/' := fun he => by simp [he, isSeparator] at hc
      simp [hne, hc]
  rw [hdrop, hmap]

end BinaryPatching.Path
