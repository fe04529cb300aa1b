import BinaryPatching.Bytes.Basic
import BinaryPatching.FileTree.Path

/-!
# `BinaryPatching.FileTree.Basic` — a tree of files as a value

Whatever this library reads from disk or writes to it goes through a value that holds the files, so that what a
run does to them is part of its result. A tree has a working directory, at which relative paths begin.

## Contents
- `IoError`: why an access is refused.
- `FileTree`, `FileTree.node?`: files and directories by their place.
- `FileTree.locate`: from a path to a place, through `.` and `..`.
- `FileTree.read`, `FileTree.write`, `FileTree.remove`, `FileTree.makeDirectories`: the accesses.
- `FileTree.localFiles`: the files below the working directory.
-/

namespace BinaryPatching

/-- Why an access to the file tree is refused. -/
inductive IoError where
  /-- Nothing is there. -/
  | notFound
  /-- A component on the way is a file. -/
  | notDirectory
  /-- A directory is there where a file was asked for. -/
  | isDirectory
  /-- A file is there where a directory should be made. -/
  | alreadyExists
  /-- The path holds a character that no name may hold. -/
  | invalidPath
  /-- The content is not text. -/
  | invalidText
  /-- The file cannot be run. -/
  | notExecutable
deriving Repr, DecidableEq

/-- The wording of a refusal. -/
def IoError.message : IoError → String
  | .notFound => "No such file or directory"
  | .notDirectory => "Not a directory"
  | .isDirectory => "Is a directory"
  | .alreadyExists => "File exists"
  | .invalidPath => "file name contained an unexpected NUL byte"
  | .invalidText => "stream did not contain valid UTF-8"
  | .notExecutable => "Permission denied"

/-- A place in the tree: the names from the top down. -/
abbrev Place := List String

/-- What stands at a place. -/
inductive Node where
  /-- A file with its content. -/
  | file (content : Bytes)
  /-- A directory. -/
  | directory
deriving Repr, DecidableEq

/-- A tree of files and directories, with the directory at which relative paths begin. -/
structure FileTree where
  /-- The working directory. -/
  home : Place
  /-- The nodes below the top. -/
  entries : List (Place × Node)
deriving Repr, DecidableEq

namespace FileTree

/-! ## Places -/

/-- The node at a place. The top is a directory. -/
def node? (tree : FileTree) (place : Place) : Option Node :=
  if place = [] then some .directory else (tree.entries.find? (·.1 = place)).map (·.2)

/-- The tree with a node put at a place. -/
def put (tree : FileTree) (place : Place) (node : Node) : FileTree :=
  { tree with entries := (place, node) :: tree.entries.filter (·.1 ≠ place) }

/-- The tree without the node at a place. -/
def erase (tree : FileTree) (place : Place) : FileTree :=
  { tree with entries := tree.entries.filter (·.1 ≠ place) }

/-- A search that looks for another place does not see a filter that drops one place. -/
theorem find?_filter_of_ne {place other : Place} (h : other ≠ place) (entries : List (Place × Node)) :
    (entries.filter (·.1 ≠ place)).find? (·.1 = other) = entries.find? (·.1 = other) := by
  induction entries with
  | nil => rfl
  | cons entry rest ih =>
    by_cases hp : entry.1 = place
    · have ho : entry.1 ≠ other := fun he => h (he.symm.trans hp)
      rw [List.filter_cons_of_neg (by simp [hp]), ih, List.find?_cons_of_neg (by simpa using ho)]
    · rw [List.filter_cons_of_pos (by simp [hp])]
      by_cases ho : entry.1 = other
      · rw [List.find?_cons_of_pos (by simpa using ho), List.find?_cons_of_pos (by simpa using ho)]
      · rw [List.find?_cons_of_neg (by simpa using ho), List.find?_cons_of_neg (by simpa using ho), ih]

/-- What has been put is found. -/
theorem node?_put_self (tree : FileTree) {place : Place} (node : Node) (h : place ≠ []) :
    (tree.put place node).node? place = some node := by
  simp [node?, put, h]

/-- Putting a node leaves every other place as it is. -/
theorem node?_put_of_ne (tree : FileTree) {place other : Place} (node : Node) (h : other ≠ place) :
    (tree.put place node).node? other = tree.node? other := by
  unfold node? put
  by_cases ho : other = []
  · simp [ho]
  · simp only [if_neg ho]
    rw [List.find?_cons_of_neg (by simpa using fun he => h he.symm), find?_filter_of_ne h]

/-- What has been erased is gone. -/
theorem node?_erase_self (tree : FileTree) {place : Place} (h : place ≠ []) :
    (tree.erase place).node? place = none := by
  simp [node?, erase, h]

/-- Erasing a node leaves every other place as it is. -/
theorem node?_erase_of_ne (tree : FileTree) {place other : Place} (h : other ≠ place) :
    (tree.erase place).node? other = tree.node? other := by
  unfold node? erase
  by_cases ho : other = []
  · simp [ho]
  · simp only [if_neg ho]
    rw [find?_filter_of_ne h]

/-- The place that components lead to from a directory. Every component is looked up in a directory; `.` stays
    there and `..` goes up. -/
def walk (tree : FileTree) (start : Place) : List String → Except IoError Place
  | [] => .ok start
  | part :: rest =>
    match tree.node? start with
    | none => .error .notFound
    | some (.file _) => .error .notDirectory
    | some .directory =>
      if part = "." then walk tree start rest
      else if part = ".." then walk tree start.dropLast rest
      else walk tree (start ++ [part]) rest

/-- The place that a path leads to. There need not be a node. -/
def locate (tree : FileTree) (path : String) : Except IoError Place :=
  if path.toList.isEmpty then .error .notFound
  else if path.toList.contains '\x00' then .error .invalidPath
  else tree.walk (if Path.isAbsolute path then [] else tree.home) (Path.components path)

/-- The node that a path leads to, if there is one. -/
def nodeAt? (tree : FileTree) (path : String) : Option Node :=
  match tree.locate path with
  | .ok place => tree.node? place
  | .error _ => none

/-! ## Accesses -/

/-- Whether the path leads to something. -/
def exists? (tree : FileTree) (path : String) : Bool := (tree.nodeAt? path).isSome

/-- Whether the path leads to a file. -/
def isFile (tree : FileTree) (path : String) : Bool :=
  match tree.nodeAt? path with
  | some (.file _) => true
  | _ => false

/-- Whether the path leads to a directory. -/
def isDirectory (tree : FileTree) (path : String) : Bool :=
  match tree.nodeAt? path with
  | some .directory => true
  | _ => false

/-- The content of a file. -/
def read (tree : FileTree) (path : String) : Except IoError Bytes :=
  match tree.locate path with
  | .error e => .error e
  | .ok place =>
    match tree.node? place with
    | some (.file content) => .ok content
    | some .directory => .error .isDirectory
    | none => .error .notFound

/-- The content of a file of text. -/
def readText (tree : FileTree) (path : String) : Except IoError String :=
  match tree.read path with
  | .error e => .error e
  | .ok content =>
    match Bytes.text? content with
    | some text => .ok text
    | none => .error .invalidText

/-- The tree after a file was written. Its directory must be there. -/
def write (tree : FileTree) (path : String) (content : Bytes) : Except IoError FileTree :=
  match tree.locate path with
  | .error e => .error e
  | .ok place =>
    match tree.node? place with
    | some .directory => .error .isDirectory
    | _ => .ok (tree.put place (.file content))

/-- The tree after a file was removed. -/
def remove (tree : FileTree) (path : String) : Except IoError FileTree :=
  match tree.locate path with
  | .error e => .error e
  | .ok place =>
    match tree.node? place with
    | some (.file _) => .ok (tree.erase place)
    | some .directory => .error .isDirectory
    | none => .error .notFound

/-- The tree with a directory at the end of every component that leads on from `start`. -/
def makeFrom (tree : FileTree) (start : Place) : List String → Except IoError FileTree
  | [] => .ok tree
  | part :: rest =>
    if part = "." then makeFrom tree start rest
    else if part = ".." then makeFrom tree start.dropLast rest
    else
      let place := start ++ [part]
      match tree.node? place with
      | some .directory => makeFrom tree place rest
      | some (.file _) => .error .alreadyExists
      | none => makeFrom (tree.put place .directory) place rest

/-- The tree with all directories that hold a path. -/
def makeParents (tree : FileTree) (path : String) : Except IoError FileTree :=
  if path.toList.contains '\x00' then .error .invalidPath
  else tree.makeFrom (if Path.isAbsolute path then [] else tree.home) (Path.parentComponents path)

/-- The tree after a file was written, with all directories that hold it. -/
def writeWithParents (tree : FileTree) (path : String) (content : Bytes) : Except IoError FileTree :=
  match tree.makeParents path with
  | .error e => .error e
  | .ok tree => tree.write path content

/-! ## Building and listing -/

/-- A tree that holds nothing but its working directory. -/
def empty (home : Place) : FileTree :=
  ⟨home, (List.range home.length).map fun n => (home.take (n + 1), .directory)⟩

/-- The files below the working directory, by their path from it. -/
def localFiles (tree : FileTree) : List (String × Bytes) :=
  tree.entries.filterMap fun (place, node) =>
    match node with
    | .file content =>
      if tree.home.isPrefixOf place then some ("/".intercalate (place.drop tree.home.length), content) else none
    | .directory => none

end FileTree

end BinaryPatching
