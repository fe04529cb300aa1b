import BinaryPatching.Image.Section
import BinaryPatching.Image.SectionHeader

/-!
# `BinaryPatching.Image.Linkage` — the export and import tables of an executable

What an executable offers to others and what it takes from them. Exports that cannot be followed are passed over;
an import table that cannot be followed makes the file malformed.

## Contents
- `Locator`: how addresses in the tables lead to the file.
- `Locator.exports`: the named exports, in the order of the table of names, without those that lead elsewhere.
- `Locator.imports?`: the imports, by name or by number.
-/

namespace BinaryPatching

open Text

/-- A table announced by the headers: its address relative to the image base, and its size. -/
structure TableEntry where
  /-- The address. -/
  address : UInt32
  /-- The size. -/
  size : UInt32
deriving Repr, DecidableEq

/-- The content of a file with what is needed to find an address in it. -/
structure Locator where
  /-- The content. -/
  data : Bytes
  /-- The section table. -/
  sections : List SectionHeader
  /-- The alignment of sections in the file. -/
  alignment : Nat
  /-- The address of the image. -/
  base : UInt32

namespace Locator

/-- The file offset of a relative address. -/
def offset? (l : Locator) (address : Nat) : Option Nat := fileOffset? l.sections l.alignment address

/-- The text at a relative address. -/
def textAt? (l : Locator) (address : Nat) : Option String := (l.offset? address).bind (cString? l.data)

/-! ## Exports -/

/-- As many words as there are of the number asked for. -/
def words32 (data : Bytes) : Nat → Nat → List UInt32
  | 0, _ => []
  | n + 1, offset =>
    match Bytes.word32? data offset with
    | some w => w :: words32 data n (offset + 4)
    | none => []

/-- As many halfwords as there are of the number asked for. -/
def words16 (data : Bytes) : Nat → Nat → List UInt16
  | 0, _ => []
  | n + 1, offset =>
    match Bytes.word16? data offset with
    | some w => w :: words16 data n (offset + 2)
    | none => []

/-- The address table, the table of names and the table of ordinals that an export directory announces. -/
def exportTables? (l : Locator) (table : TableEntry) : Option (List UInt32 × List UInt32 × List UInt16) := do
  let offset ← l.offset? table.address.toNat
  let directory ← Bytes.slice? l.data offset 40
  let addressCount ← Bytes.word32? directory 20
  let nameCount ← Bytes.word32? directory 24
  let addressTable ← Bytes.word32? directory 28
  let nameTable ← Bytes.word32? directory 32
  let ordinalTable ← Bytes.word32? directory 36
  if l.data.length < nameCount.toNat ∨ l.data.length < addressCount.toNat then none
  else
    let at? (address : UInt32) : Option Nat := l.offset? address.toNat
    return (((at? addressTable).map (words32 l.data addressCount.toNat)).getD [],
      ((at? nameTable).map (words32 l.data nameCount.toNat)).getD [],
      ((at? ordinalTable).map (words16 l.data nameCount.toNat)).getD [])

/-- Whether an exported address leads to a name inside the export table, which means another file's export. -/
def isForwarder (table : TableEntry) (address : UInt32) : Bool :=
  table.address ≤ address && address.toNat < table.address.toNat + table.size.toNat

/-- The export whose name is at an address and whose ordinal is given. -/
def exportAt? (l : Locator) (table : TableEntry) (addresses : List UInt32) (name : UInt32) (ordinal : UInt16) :
    Option Symbol :=
  match addresses[ordinal.toNat]? with
  | none => none
  | some address =>
    if isForwarder table address then none
    else some ⟨(l.textAt? name.toNat).getD ("export_" ++ hex8 address), l.base + address⟩

/-- The named exports. -/
def exports (l : Locator) (table : TableEntry) : List Symbol :=
  match l.exportTables? table with
  | none => []
  | some (addresses, names, ordinals) =>
    (names.zip ordinals).filterMap fun (name, ordinal) => l.exportAt? table addresses name ordinal

/-! ## Imports -/

/-- The number in some bytes, low byte first. -/
def littleEndian : Bytes → Nat
  | [] => 0
  | b :: rest => b.toNat + 256 * littleEndian rest

/-- The numbers of a width up to the first zero, which has to be there. -/
def numbersToZero? (width : Nat) (data : Bytes) : Option (List Nat) :=
  if _h : 0 < width ∧ width ≤ data.length then
    let n := littleEndian (data.take width)
    if n = 0 then some []
    else (numbersToZero? width (data.drop width)).map (n :: ·)
  else none
termination_by data.length
decreasing_by simp only [List.length_drop]; omega

/-- What an entry of a lookup table imports: a number, or a name, which stands behind two bytes of a hint. Only
    names outside all sections are passed over. -/
def lookupEntry? (l : Locator) (width entry : Nat) : Option (Option Symbol) :=
  if 1 <<< (8 * width - 1) ≤ entry then some (some ⟨"ORDINAL " ++ decimal (entry % 65536), l.base⟩)
  else
    let address := entry % 0x80000000
    match l.offset? address with
    | none => some none
    | some offset =>
      match Bytes.word16? l.data offset, cString? l.data (offset + 2) with
      | some _, some name => some (some ⟨name, l.base + UInt32.ofNat address⟩)
      | _, _ => none

/-- What the lookup table at an offset imports. -/
def lookupTable? (l : Locator) (width offset : Nat) : Option (List Symbol) := do
  let entries ← numbersToZero? width (l.data.drop offset)
  let symbols ← entries.mapM (l.lookupEntry? width)
  return symbols.filterMap id

/-- What an entry of the import directory imports. Names are looked up through the lookup table, and through the
    address table when there is none; an address table has to be there. -/
def libraryImports? (l : Locator) (width : Nat) (entry : Bytes) : Option (List Symbol) := do
  let lookup ← Bytes.word32? entry 0
  let name ← Bytes.word32? entry 12
  let addresses ← Bytes.word32? entry 16
  let _ ← l.textAt? name.toNat
  let symbols ← match l.offset? lookup.toNat, l.offset? addresses.toNat with
    | some offset, _ => l.lookupTable? width offset
    | none, some offset => l.lookupTable? width offset
    | none, none => some []
  let addressTable ← l.offset? addresses.toNat
  let _ ← numbersToZero? width (l.data.drop addressTable)
  return symbols

/-- What an import directory imports; it ends at an entry of zeros, which has to be there. -/
def importsFrom? (l : Locator) (width : Nat) (directory : Bytes) : Option (List Symbol) :=
  if _h : 20 ≤ directory.length then
    let entry := directory.take 20
    if entry.all (· == 0) then some []
    else
      match l.libraryImports? width entry, importsFrom? l width (directory.drop 20) with
      | some symbols, some rest => some (symbols ++ rest)
      | _, _ => none
  else none
termination_by directory.length
decreasing_by simp only [List.length_drop]; omega

/-- The imports, when addresses take `width` bytes. -/
def imports? (l : Locator) (width : Nat) (table : TableEntry) : Option (List Symbol) := do
  let offset ← l.offset? table.address.toNat
  l.importsFrom? width (l.data.drop offset)

end Locator

end BinaryPatching
