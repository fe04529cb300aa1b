import BinaryPatching.Patch.Format

/-!
# `BinaryPatching.Patch.Store` — stores in files

## Contents
- `PatchStore.load`: the store of a file; a missing file holds an empty one.
- `PatchStore.save`: a store written to a file.
-/

namespace BinaryPatching.PatchStore

/-- The store in a file. A file that is not there holds no definitions. -/
def load (tree : FileTree) (path : String) : Except PatchError PatchStore :=
  if tree.exists? path then
    match tree.readText path with
    | .error e => .error (.io e)
    | .ok text => parse text
  else .ok empty

/-- The tree after a store was written to a file, whose directories are made. -/
def save (store : PatchStore) (tree : FileTree) (path : String) : Except PatchError FileTree :=
  match tree.writeWithParents path (Bytes.ofText store.write) with
  | .error e => .error (.io e)
  | .ok tree => .ok tree

end BinaryPatching.PatchStore
