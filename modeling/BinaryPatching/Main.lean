import BinaryPatching.CommandLine.Handling

/-!
# `BinaryPatching.Main` — the program

The files below the working directory are read into a file tree, the command line is handled on it, and what has
changed is written back. Lines go to the standard output, messages and errors to the standard error.

## Contents
- `loadBelow`: a directory and all that is below it.
- `storeChanges`: the files that differ.
- `runProgram`, `main`: the program.
-/

namespace BinaryPatching

open Text

/-- The tree with the content of a directory on disk put at a place. What cannot be read is left out. -/
partial def loadBelow (tree : FileTree) (directory : String) (place : Place) : IO FileTree := do
  let mut tree := tree
  let here ← IO.FS.realPath directory
  for entry in ← here.readDir do
    let path := directory ++ "/" ++ entry.fileName
    let inner := place ++ [entry.fileName]
    if ← entry.path.isDir then
      tree ← loadBelow (tree.put inner .directory) path inner
    else
      match ← (IO.FS.readBinFile path).toBaseIO with
      | .ok content => tree := tree.put inner (.file content.toList)
      | .error _ => pure ()
  return tree

/-- Writes the files of the second tree that the first one does not have in the same form, and removes those that
    the second one no longer has. -/
def storeChanges (before after : FileTree) : IO Unit := do
  let old := before.localFiles
  let new := after.localFiles
  for (path, content) in new do
    if old.lookup path != some content then
      let directory := "/".intercalate (Path.parentComponents path)
      if !directory.isEmpty then IO.FS.createDirAll directory
      IO.FS.writeBinFile path (ByteArray.mk content.toArray)
  for (path, _) in old do
    if (new.lookup path).isNone then IO.FS.removeFile path

/-- Whether messages about progress are shown. -/
def CommandLine.showsProgress (c : CommandLine) : Bool :=
  !c.quiet && (c.level == .info || c.level == .debug || c.level == .trace)

/-- The program on some words: 0 is success, 1 a task that fails, and 2 a command line that makes no sense. -/
def runProgram (words : List String) : IO UInt32 := do
  match CommandLine.parse words with
  | none =>
    IO.eprintln "usage: run SCRIPT | apply NAME | analyze BINARY, with options"
    return 2
  | some c =>
    let started ← IO.monoMsNow
    let here ← IO.currentDir
    let home := Path.components here.toString
    let before ← loadBelow (FileTree.empty home) "." home
    let report := c.handle before
    storeChanges before report.files
    let stopped ← IO.monoMsNow
    for line in report.lines (stopped - started) do IO.println line
    if c.showsProgress then
      for message in report.messages do IO.eprintln ("[*] " ++ message)
    match report.outcome with
    | .ok _ => return 0
    | .error e =>
      IO.eprintln ("[!] " ++ e.message)
      return 1

end BinaryPatching

/-- The program. -/
def main (words : List String) : IO UInt32 := BinaryPatching.runProgram words
