import BinaryPatching.Proofs.Code.Listings
import BinaryPatching.Proofs.FileTree.Directories
import BinaryPatching.Proofs.Script.OpenFiles

/-!
# `BinaryPatching.Proofs.Script.ListingCache` — code from listings is code from images

Files of different paths can have listings of one name, and each of them is written over the one before. What is loaded
is the code of the opened image all the same, since a listing tells the digest of the file that it was made for. This
holds of a whole sequence of openings, as each leaves a directory of listings behind.

## Contents
- `Bytes.hex_inj`, `isName_listingName`: digests as texts, and the names of listings.
- `IsListingOf`, `Recognized`, `IsShelf`: a listing, images that their digests tell apart, and a directory of listings.
- `IsShelf.load`, `IsShelf.save`: what is loaded from it and saved in it.
- `ScriptRun.openFile_eq_ok`: a file opened by a script.
- `Opening`, `loadAll`: openings one after the other.
- `loadAll_eq_ok`, `listings_transparent`: what they load.
-/

namespace BinaryPatching

open FileTree Text

/-! ## Digests and names -/

/-- The digest of the file of an image, as listings tell it. -/
def Image.digest (image : Image) : String := Bytes.hex (Bytes.sha1 image.data)

namespace Bytes

/-- Byte strings of one text are the same, whatever the case of its letters. -/
theorem hex_inj {a b : Bytes} (h : equalIgnoringCase (hex a) (hex b) = true) : a = b := by
  -- Every digit is the capital form of its small form.
  have hcapital : ∀ data : Bytes, ((hex data).toList.map Char.toLower).map Char.toUpper = (hex data).toList := by
    intro data
    have hsame := forall_mem_hex (p := fun c => c.toLower.toUpper = c) (by decide) data
    rw [List.map_map]
    exact (List.map_congr_left hsame).trans (List.map_id _)
  have hlist : (hex a).toList = (hex b).toList := by
    rw [← hcapital a, equalIgnoringCase_iff.1 h, hcapital b]
  have hbytes := ofHex?_hex a
  rw [String.toList_inj.1 hlist, ofHex?_hex] at hbytes
  exact (Option.some.inj hbytes).symm

theorem isDigest_hex (data : Bytes) : Listing.isDigest (hex data) = true :=
  List.all_eq_true.2 (forall_mem_hex (p := (isDigitOf 16 · = true)) (by decide) data)

end Bytes

theorem toList_listingName (path : String) : (listingName path).toList
    = (path.toList.map fun c => if Path.isSeparator c then '_' else c) ++ ['.', 'a', 's', 'm'] := by
  rw [listingName, String.toList_append, toList_onChars]
  rfl

/-- A character of the name of a listing is one of the path that is no separator, or one that is put in. -/
theorem mem_listingName {path : String} {c : Char} (hc : c ∈ (listingName path).toList) :
    (c ∈ path.toList ∧ Path.isSeparator c = false) ∨ c ∈ ['_', '.', 'a', 's', 'm'] := by
  rw [toList_listingName] at hc
  rcases List.mem_append.1 hc with hc | hc
  · obtain ⟨d, hd, rfl⟩ := List.mem_map.1 hc
    split
    · exact .inr List.mem_cons_self
    · rename_i hseparator
      exact .inl ⟨hd, Bool.eq_false_iff.2 hseparator⟩
  · exact .inr (List.mem_cons_of_mem _ hc)

/-- **A listing has the name of a file.** -/
theorem isName_listingName {path : String} (h : '\x00' ∉ path.toList) : IsName (listingName path) := by
  -- It is too long to be empty or a way around.
  have hlong : ∀ short : String, short.toList.length < 4 → listingName path ≠ short := by
    rintro _ hshort rfl
    rw [toList_listingName, List.length_append] at hshort
    exact absurd hshort (Nat.not_lt_of_le (Nat.le_add_left _ _))
  refine ⟨fun hnil => ?_, fun hslash => ?_, fun hzero => ?_, hlong "." (by decide), hlong ".." (by decide)⟩
  · exact hlong "" (by decide) (String.toList_inj.1 hnil)
  · rcases mem_listingName hslash with ⟨_, hseparator⟩ | hput
    · exact absurd hseparator (by decide)
    · exact absurd hput (by decide)
  · rcases mem_listingName hzero with ⟨hpath, _⟩ | hput
    · exact h hpath
    · exact absurd hput (by decide)

/-! ## Directories of listings -/

/-- **A listing of an image**: the file holds its code under its digest, in either case. -/
def IsListingOf (image : Image) (node : Node) : Prop :=
  ∃ written, Listing.isDigest written = true ∧ equalIgnoringCase written image.digest = true ∧
    node = .file (Bytes.ofText (Listing.text image.code written))

/-- **Images told apart by their digests**: each is read from its file, and no two files have one digest. -/
structure Recognized (images : Image → Prop) : Prop where
  /-- They are read from their files. -/
  parse_eq : ∀ image, images image → Image.parse image.data = .ok image
  /-- Their digests do not collide. -/
  data_eq : ∀ a b, images a → images b → Bytes.sha1 a.data = Bytes.sha1 b.data → a.data = b.data

/-- Of such images, two with one digest are the same. -/
theorem Recognized.eq_of_digest {images : Image → Prop} (h : Recognized images) {a b : Image} (ha : images a)
    (hb : images b) (hdigest : equalIgnoringCase a.digest b.digest = true) : a = b := by
  have hdata := h.data_eq a b ha hb (Bytes.hex_inj hdigest)
  have hparse := h.parse_eq a ha
  rw [hdata, h.parse_eq b hb] at hparse
  exact (Except.ok.inj hparse).symm

/-- **A directory that holds only listings** of some images: it is there or can be made, and whatever has the name of a
listing in it is one. -/
def IsShelf (images : Image → Prop) (directory : String) (tree : FileTree) : Prop :=
  ∃ made, Makes tree made directory ∧ ∀ path node,
    made.node? (tree.placeOf directory ++ [listingName path]) = some node → ∃ image, images image ∧ IsListingOf image node

namespace IsShelf

variable {images : Image → Prop} {directory path : String} {tree : FileTree} {image : Image}

/-- **What is loaded** for an image: its code, or nothing. -/
theorem load (hshelf : IsShelf images directory tree) (himages : Recognized images) (himage : images image)
    (hpath : '\x00' ∉ path.toList) :
    Listing.load tree (Path.join directory (listingName path)) image.digest = .ok (some image.code) ∨
      Listing.load tree (Path.join directory (listingName path)) image.digest = .ok none := by
  obtain ⟨made, hmakes, hholds⟩ := hshelf
  unfold Listing.load
  split
  · rename_i hexists
    obtain ⟨place, node, hplace, hnode⟩ := exists?_eq_true_iff.1 hexists
    -- Whatever is there is a listing, but of whichever image was opened last under a path with this name.
    have hthere := hmakes.extends_made.kept hnode
    rw [eq_placeOf_of_locate hplace, hmakes.placeOf_join (isName_listingName hpath)] at hthere
    obtain ⟨other, hother, written, hwritten, hdigest, rfl⟩ := hholds path node hthere
    rw [read_eq_ok_iff.2 ⟨place, hplace, hnode⟩]
    dsimp only
    rw [Listing.read_text (fun _ => isPrintable_of_mem_code) hwritten]
    split
    · rename_i hsame
      have heq : other = image :=
        himages.eq_of_digest hother himage (equalIgnoringCase_trans (equalIgnoringCase_symm hdigest) hsame)
      rw [heq]
      exact .inl rfl
    · exact .inr rfl
  · exact .inr rfl

/-- **A listing saved** in the directory, over the one of another image if need be, leaves only listings in it. -/
theorem save (hshelf : IsShelf images directory tree) (himage : images image) (hpath : '\x00' ∉ path.toList) :
    ∃ after, Listing.save tree image.code image.digest (Path.join directory (listingName path)) = .ok after ∧
      IsShelf images directory after := by
  obtain ⟨made, hmakes, hholds⟩ := hshelf
  have hname := isName_listingName hpath
  have hnot : made.node? (tree.placeOf directory ++ [listingName path]) ≠ some .directory := by
    intro hdirectory
    obtain ⟨_, _, _, _, _, hfile⟩ := hholds path _ hdirectory
    cases hfile
  have hlisting : IsListingOf image (.file (Bytes.ofText (Listing.text image.code image.digest))) :=
    ⟨image.digest, Bytes.isDigest_hex _, equalIgnoringCase_refl _, rfl⟩
  have hmade := hmakes.put_file hnot (Bytes.ofText (Listing.text image.code image.digest))
  refine ⟨_, ?_, _, hmade, fun other node hnode => ?_⟩
  · unfold Listing.save
    rw [hmakes.writeWithParents_join hname hnot]
  · have hplace : (made.put (tree.placeOf directory ++ [listingName path])
        (.file (Bytes.ofText (Listing.text image.code image.digest)))).placeOf directory = tree.placeOf directory :=
      (hmakes.extends_made.keeps []).placeOf_eq directory
    rw [hplace] at hnode
    -- The new file is a listing, and those of other names stay.
    by_cases heq : tree.placeOf directory ++ [listingName other] = tree.placeOf directory ++ [listingName path]
    · rw [heq, node?_put_self made _ (List.append_ne_nil_of_right_ne_nil _ (List.cons_ne_nil _ _))] at hnode
      cases hnode
      exact ⟨image, himage, hlisting⟩
    · rw [node?_put_of_ne made _ heq] at hnode
      exact hholds other node hnode

/-- **An opening** loads the code of the image, and leaves a directory of listings behind. -/
theorem loadCode (hshelf : IsShelf images directory tree) (himages : Recognized images) (himage : images image)
    (hpath : '\x00' ∉ path.toList) {config : Config} (hconfig : config.listingDir = some directory) :
    ∃ after, BinaryPatching.loadCode config image path image.digest tree = .ok (image.code, after) ∧
      IsShelf images directory after := by
  unfold BinaryPatching.loadCode
  rw [hconfig]
  dsimp only
  rcases hshelf.load himages himage hpath with hload | hload
  · rw [hload]
    exact ⟨tree, rfl, hshelf⟩
  · obtain ⟨after, hsave, hafter⟩ := hshelf.save himage hpath
    rw [hload, hsave]
    exact ⟨after, rfl, hafter⟩

end IsShelf

/-! ## Files opened in a run -/

namespace ScriptRun

variable {config : Config} {r : ScriptRun} {d : Destination} {name : String} {image : Image}

/-- What is read as an image has a path without a zero. -/
theorem no_zero_of_readImage (h : readImage config r d name = .ok image) : '\x00' ∉ (d.recordPath name).toList := by
  unfold readImage at h
  split at h
  · cases h
  · rename_i data hdata
    obtain ⟨place, hplace, _⟩ := read_eq_ok_iff.1 hdata
    exact fun hzero => no_zero_of_locate hplace (Path.mem_resolve hzero (by decide) _)

/-- **A file opened** while no other one is open has the code of its image, with a listing or without. -/
theorem openFile_eq_ok {images : Image → Prop} {directory : String} (hnone : r.session.file = none)
    (hdestination : r.session.destination = some d) (hread : readImage config r d name = .ok image)
    (himages : Recognized images) (himage : images image) (hconfig : config.listingDir = some directory)
    (hshelf : IsShelf images directory r.files) :
    ∃ s : ScriptRun, r.openFile config name = (.ok (), s) ∧ IsShelf images directory s.files ∧
      s.session.file = some (OpenFile.start name (d.recordPath name) image image.code) := by
  have hclose := closeFile_of_none config hnone
  obtain ⟨after, hload, hafter⟩ := hshelf.loadCode himages himage (no_zero_of_readImage hread) hconfig
  have hload : loadCode config image (d.recordPath name) (Bytes.hex (Bytes.sha1 image.data)) r.files
      = .ok (image.code, after) := hload
  unfold openFile openImage
  rw [hclose]
  dsimp only [Progress.andThen]
  rw [hdestination]
  dsimp only
  rw [hread]
  dsimp only
  rw [hclose]
  dsimp only
  rw [hdestination]
  dsimp only
  rw [hload]
  exact ⟨_, rfl, hafter, rfl⟩

end ScriptRun

/-! ## Sequences of openings -/

/-- A file that is opened. -/
structure Opening where
  /-- The settings of the run in which it is opened. -/
  config : Config
  /-- The path under which it is recorded. -/
  path : String
  /-- Its image. -/
  image : Image
  /-- What happens to the tree between the opening before and this one. -/
  change : FileTree → FileTree

/-- What files that are opened one after the other have for their code, and the tree after that. -/
def loadAll : List Opening → FileTree → Except ListingError (List CodeMap × FileTree)
  | [], tree => .ok ([], tree)
  | o :: rest, tree =>
    match loadCode o.config o.image o.path (Bytes.hex (Bytes.sha1 o.image.data)) (o.change tree) with
    | .error e => .error e
    | .ok (code, tree) =>
      match loadAll rest tree with
      | .error e => .error e
      | .ok (codes, tree) => .ok (code :: codes, tree)

/-- **An opening that shares a directory of listings** with others. -/
structure Opening.Shares (images : Image → Prop) (directory : String) (o : Opening) : Prop where
  /-- It has the directory for its listings. -/
  listingDir_eq : o.config.listingDir = some directory
  /-- Its image is one of those that are told apart. -/
  mem : images o.image
  /-- A file of its path can be opened. -/
  no_zero : '\x00' ∉ o.path.toList
  /-- What happens before leaves only listings in the directory. -/
  keeps : ∀ tree, IsShelf images directory tree → IsShelf images directory (o.change tree)

/-- **Openings that share a directory of listings** load the codes of their images. -/
theorem loadAll_eq_ok {images : Image → Prop} (himages : Recognized images) {directory : String}
    {openings : List Opening} (hopenings : ∀ o ∈ openings, o.Shares images directory) {tree : FileTree}
    (hshelf : IsShelf images directory tree) :
    ∃ after, loadAll openings tree = .ok (openings.map (·.image.code), after) ∧ IsShelf images directory after := by
  induction openings generalizing tree with
  | nil => exact ⟨tree, rfl, hshelf⟩
  | cons o rest ih =>
    have ho := hopenings o List.mem_cons_self
    obtain ⟨middle, hload, hmiddle⟩ := (ho.keeps tree hshelf).loadCode himages ho.mem ho.no_zero ho.listingDir_eq
    obtain ⟨after, hrest, hafter⟩ := ih (fun p hp => hopenings p (List.mem_cons_of_mem _ hp)) hmiddle
    refine ⟨after, ?_, hafter⟩
    change BinaryPatching.loadCode o.config o.image o.path (Bytes.hex (Bytes.sha1 o.image.data)) _ = _ at hload
    rw [loadAll, hload]
    dsimp only
    rw [hrest]
    rfl

/-- **The listings are transparent.** The code of an image that is saved under a digest is loaded from the listing under
the same digest, in either case of its letters. And openings that share a directory of listings all load the code of
their images, as long as no two of the files have one digest. -/
theorem listings_transparent :
    (∀ (image : Image) (tree after : FileTree) (written digest path : String), Listing.isDigest written = true →
      equalIgnoringCase written digest = true → Listing.save tree image.code written path = .ok after →
      Listing.load after path digest = .ok (some image.code)) ∧
    (∀ (images : Image → Prop) (directory : String) (openings : List Opening) (tree : FileTree), Recognized images →
      (∀ o ∈ openings, o.Shares images directory) → IsShelf images directory tree →
      ∃ after, loadAll openings tree = .ok (openings.map (·.image.code), after)) := by
  refine ⟨fun image tree after written digest path hwritten hdigest hsave => ?_, ?_⟩
  · exact Listing.load_save (fun _ => isPrintable_of_mem_code) hwritten hdigest hsave
  · intro images directory openings tree himages hopenings hshelf
    obtain ⟨after, hload, _⟩ := loadAll_eq_ok himages hopenings hshelf
    exact ⟨after, hload⟩

/-- An executable file whose code is two instructions: that of the mark in front of every such file, and another one. -/
def executableWith (second : UInt16) : Bytes :=
  [0x4D, 0x5A] ++ Bytes.ofWord16 second ++ List.replicate 56 0 ++ [0x40, 0, 0, 0]
    ++ [0x50, 0x45, 0, 0, 0xC0, 0x01, 1, 0] ++ List.replicate 16 0
    ++ [0x2E, 0x61, 0, 0, 0, 0, 0, 0, 4, 0, 0, 0, 0, 0, 0, 0, 4, 0, 0, 0] ++ List.replicate 16 0 ++ [0x20, 0, 0, 0x60]

/-- The image of such a file. -/
def imageWith (second : UInt16) : Image :=
  { data := executableWith second, base := 0, entry := 0, sections := [⟨".a", 0, 4, 0, 4, 0x60000020⟩], exports := [],
    imports := [], runtimeFunctions := [], checksumOffset := some 0x98 }

/-- One that returns and one that pops its return address. -/
def twoImages (image : Image) : Prop := image = imageWith 0x4770 ∨ image = imageWith 0xBD00

theorem recognized_twoImages : Recognized twoImages := by
  have hreturns : Image.parse (imageWith 0x4770).data = .ok (imageWith 0x4770) := by decide +kernel
  have hpops : Image.parse (imageWith 0xBD00).data = .ok (imageWith 0xBD00) := by decide +kernel
  have hdigests : Bytes.sha1 (imageWith 0x4770).data ≠ Bytes.sha1 (imageWith 0xBD00).data := by decide +kernel
  refine ⟨?_, ?_⟩
  · rintro _ (rfl | rfl)
    · exact hreturns
    · exact hpops
  · rintro _ _ (rfl | rfl) (rfl | rfl) h
    · rfl
    · exact absurd h hdigests
    · exact absurd h.symm hdigests
    · rfl

/-- An opening in a run that keeps its listings in `l`. -/
def openedAs (path : String) (second : UInt16) : Opening :=
  ⟨{ Config.standard with listingDir := some "l" }, path, imageWith second, id⟩

theorem shares_openedAs {path : String} (hpath : '\x00' ∉ path.toList) {second : UInt16}
    (h : twoImages (imageWith second)) : (openedAs path second).Shares twoImages "l" :=
  ⟨rfl, h, hpath, fun _ htree => htree⟩

/-- Two files whose listings have one name, the first of them opened twice. -/
theorem listings_transparent_one_name :
    listingName "a/b" = listingName "a_b" ∧
    ((imageWith 0x4770).code.instructions.map (·.mnemonic) = ["ldrh", "bx"] ∧
      (imageWith 0xBD00).code.instructions.map (·.mnemonic) = ["ldrh", "pop"]) ∧
    (∃ after, Listing.save (.empty []) (imageWith 0x4770).code "0aF" "l/x" = .ok after ∧
      Listing.load after "l/x" "0Af" = .ok (some (imageWith 0x4770).code)) ∧
    ∃ after, loadAll [openedAs "a/b" 0x4770, openedAs "a_b" 0xBD00, openedAs "a/b" 0x4770] (.empty [])
      = .ok ([(imageWith 0x4770).code, (imageWith 0xBD00).code, (imageWith 0x4770).code], after) := by
  have hsaved : ∃ after, Listing.save (.empty []) (imageWith 0x4770).code "0aF" "l/x" = .ok after := ⟨_, rfl⟩
  have hempty : IsShelf twoImages "l" (.empty []) := by
    refine ⟨⟨[], [(["l"], .directory)]⟩, ⟨by decide, by decide +kernel, by decide +kernel, by decide +kernel⟩, ?_⟩
    intro path node hnode
    have hplace : (FileTree.empty []).placeOf "l" = ["l"] := by decide +kernel
    rw [hplace] at hnode
    simp [node?] at hnode
  obtain ⟨after, hsave⟩ := hsaved
  refine ⟨by decide +kernel, ⟨by decide +kernel, by decide +kernel⟩, ⟨after, hsave, ?_⟩, ?_⟩
  · exact listings_transparent.1 _ _ _ _ _ _ (by decide +kernel) (by decide +kernel) hsave
  · refine listings_transparent.2 twoImages "l" _ _ recognized_twoImages (fun o ho => ?_) hempty
    simp only [List.mem_cons, List.not_mem_nil, or_false] at ho
    rcases ho with rfl | rfl | rfl
    · exact shares_openedAs (by decide) (.inl rfl)
    · exact shares_openedAs (by decide) (.inr rfl)
    · exact shares_openedAs (by decide) (.inl rfl)

end BinaryPatching
