import BinaryPatching.Image.SectionHeader

/-!
# `BinaryPatching.Image.ObjectFile` — the code in an object file

An assembler leaves its code in an object file: a file header, the section table, and at the end the symbols with
their string table. All of it has to make sense before the code is taken.

## Contents
- `ObjectFile.sections?`: the sections of an object file.
- `ObjectFile.code`: the contents of its code section, without the padding at its start.
-/

namespace BinaryPatching

/-- Why there is no code in an object file. -/
inductive ObjectError where
  /-- The headers make no sense. -/
  | malformed
  /-- There is no code section. -/
  | noCodeSection
  /-- The code section reaches beyond the end of the file. -/
  | outOfBounds
  /-- Nothing is left behind the padding. -/
  | empty
deriving Repr, DecidableEq

namespace ObjectFile

/-- The name of the code section. -/
def codeSection : String := ".text"

/-- Whether the string table lies inside the file and holds text. Its first word is its size, that word
    included. A file without symbols needs none. -/
def hasStringTable (data : Bytes) (header : FileHeader) : Bool :=
  header.symbolTable == 0 ||
    match Bytes.word32? data header.stringTable with
    | none => false
    | some size =>
      4 ≤ size.toNat && header.stringTable + size.toNat ≤ data.length
        && (Bytes.text? ((data.drop (header.stringTable + 4)).take (size.toNat - 4))).isSome

/-- The sections of an object file. -/
def sections? (data : Bytes) : Option (List SectionHeader) := do
  let header ← FileHeader.read? data 0
  let sections ← SectionHeader.readTable? data header (FileHeader.size + header.optionalSize)
  if hasStringTable data header then some sections else none

/-- The contents of the code section of an object file, behind some bytes of padding. -/
def code (data : Bytes) (padding : UInt32) : Except ObjectError Bytes :=
  match sections? data with
  | none => .error .malformed
  | some sections =>
    match sections.find? fun s => s.name == some codeSection with
    | none => .error .noCodeSection
    | some s =>
      match Bytes.slice? data s.rawOffset.toNat s.rawSize.toNat with
      | none => .error .outOfBounds
      | some contents =>
        let code := contents.drop padding.toNat
        if code.isEmpty then .error .empty else .ok code

end ObjectFile

end BinaryPatching
