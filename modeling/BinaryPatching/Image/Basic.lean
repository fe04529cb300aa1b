import BinaryPatching.FileTree.Basic
import BinaryPatching.Image.Section
import BinaryPatching.Text.Lowercase

/-!
# `BinaryPatching.Image.Basic` — executable images

An image is the content of a file together with what its headers say: sections, symbols, and where the checksum
is kept. Addresses and file offsets are converted through the first section that holds them.

## Contents
- `ImageError`: what can be wrong with an image or an access to it.
- `Image`, `Image.offsetOf`, `Image.addressOf?`: addresses and file offsets.
- `Image.offsetOverflows`: offsets that do not fit into a word.
- `Image.sectionBytes`, `Image.readWord?`: contents.
- `Image.exportNamed?`, `Image.importNamed?`: symbols by name.
- `Image.blank` and the functions after it: images built by hand.
-/

namespace BinaryPatching

open Text

/-- What can be wrong with an image or an access to it. -/
inductive ImageError where
  /-- The file cannot be read. -/
  | io (cause : IoError)
  /-- The headers make no sense. -/
  | malformed
  /-- The image is for a machine with wide addresses. -/
  | wideAddresses
  /-- No section maps the address. -/
  | addressNotMapped (address : UInt32)
  /-- The file ends before the offset. -/
  | offsetOutOfBounds (offset : UInt32)
  /-- There is no place for a checksum. -/
  | noChecksumField
deriving Repr, DecidableEq

/-- The wording of an error. -/
def ImageError.message : ImageError → String
  | .io cause => "IO error: " ++ cause.message
  | .malformed => "Binary parse error: Failed to parse PE: the headers are malformed"
  | .wideAddresses => "Binary parse error: PE32+ images are not supported"
  | .addressNotMapped address => "Virtual address 0x" ++ hex8 address ++ " is not inside any section"
  | .offsetOutOfBounds offset => "Raw offset 0x" ++ hex8 offset ++ " is outside the file"
  | .noChecksumField => "Image has no checksum field"

/-- The wording of what lies behind an error, if it is not an error of its own. -/
def ImageError.cause? : ImageError → Option String
  | .io cause => some cause.message
  | _ => none

/-- An executable image. -/
structure Image where
  /-- The content of the file. -/
  data : Bytes
  /-- The address at which the image is meant to lie. -/
  base : UInt32
  /-- The address at which execution begins. -/
  entry : UInt32
  /-- The sections, in the order of their headers. -/
  sections : List Section
  /-- What the image offers to others. -/
  exports : List Symbol
  /-- What the image takes from others. -/
  imports : List Symbol
  /-- The functions that the table for exceptions lists. -/
  runtimeFunctions : List Symbol
  /-- The file offset of the checksum. -/
  checksumOffset : Option Nat
deriving Repr, DecidableEq

namespace Image

/-! ## Addresses and offsets -/

/-- The first section that maps an address. -/
def sectionAt? (image : Image) (address : UInt32) : Option Section :=
  image.sections.find? (·.containsAddress address)

/-- The first section that maps a file offset. -/
def sectionOfOffset? (image : Image) (offset : UInt32) : Option Section :=
  image.sections.find? (·.containsOffset offset)

/-- The file offset of an address. One that does not fit into a word wraps around. -/
def offsetOf (image : Image) (address : UInt32) : Except ImageError UInt32 :=
  match image.sectionAt? address with
  | some s => .ok (s.rawOffset + (address - s.address))
  | none => .error (.addressNotMapped address)

/-- Whether the file offset of an address does not fit into a word. Where sums are checked for overflow, the offset
    cannot be asked for then. -/
def offsetOverflows (image : Image) (address : UInt32) : Bool :=
  match image.sectionAt? address with
  | some s => 0x100000000 ≤ s.rawOffset.toNat + (address - s.address).toNat
  | none => false

/-- The address of a file offset. -/
def addressOf? (image : Image) (offset : UInt32) : Option UInt32 :=
  (image.sectionOfOffset? offset).map fun s => s.address + (offset - s.rawOffset)

/-! ## Contents -/

/-- The mapped bytes of a section, as far as the file has them. -/
def sectionBytes (image : Image) (s : Section) : Bytes :=
  (image.data.drop s.rawOffset.toNat).take s.mappedSize.toNat

/-- The word at an address. -/
def readWord? (image : Image) (address : UInt32) : Option UInt32 :=
  match image.offsetOf address with
  | .ok offset => Bytes.word32? image.data offset.toNat
  | .error _ => none

/-! ## Symbols -/

/-- The first of some symbols with a name, in either case. -/
def symbolNamed? (symbols : List Symbol) (name : String) : Option Symbol :=
  symbols.find? fun s => equalIgnoringCase s.name name

/-- The export of a name. -/
def exportNamed? (image : Image) (name : String) : Option Symbol := symbolNamed? image.exports name

/-- The import of a name. -/
def importNamed? (image : Image) (name : String) : Option Symbol := symbolNamed? image.imports name

/-! ## Images built by hand -/

/-- An image without sections and symbols, whose execution begins at its base. -/
def blank (data : Bytes) (base : UInt32) : Image := ⟨data, base, base, [], [], [], [], none⟩

/-- The image with one more section. -/
def withSection (image : Image) (s : Section) : Image := { image with sections := image.sections ++ [s] }

/-- The image with a section of code that lies as far from the base as from the start of the file. -/
def withCode (image : Image) (name : String) (offset size : UInt32) : Image :=
  image.withSection (.new name (image.base + offset) offset size
    (Section.codeFlag ||| Section.executableFlag ||| Section.readableFlag))

/-- The image with a section of data that lies as far from the base as from the start of the file. -/
def withData (image : Image) (name : String) (offset size : UInt32) : Image :=
  image.withSection (.new name (image.base + offset) offset size (Section.dataFlag ||| Section.readableFlag))

/-- The symbol under which a function of the table for exceptions is known. -/
def runtimeFunction (address : UInt32) : Symbol := ⟨"pdata_" ++ hex8 address, address⟩

end Image

end BinaryPatching
