import BinaryPatching.Code.Listing
import BinaryPatching.Proofs.Code.Exploration
import BinaryPatching.Proofs.FileTree.Writing
import BinaryPatching.Proofs.Text.Case
import BinaryPatching.Proofs.Thumb.Printing

/-!
# `BinaryPatching.Proofs.Code.Listings` — code read back from its listing

A listing is a text of lines with tabs between their fields. Every entry of the code of an image is printable, so that
neither a tab nor a line end stands in its fields, and it is read back from its line as it was written. The first line
tells for which digest the listing was made, in either case of its letters.

## Contents
- `isPrintable_of_mem_code`: the entries of the code of an image are printable.
- `byteLines_ofText`: the lines of a text.
- `Listing.parseLine_lineOf`, `CodeMap.ofList_instructions`: an entry and a map read back.
- `Listing.read_text`, `Listing.read_text_of_ne`: a listing read for its digest, and for another one.
- `Listing.load_save`: a listing in a file.
-/

namespace BinaryPatching

open Text Thumb Exploration

/-! ## Printable entries -/

/-- The register of a half stands in its operands. -/
theorem LoadsHalf.mem_operands {mnemonic register : String} {i : Instruction} {value : UInt32}
    (h : LoadsHalf mnemonic i register value) : ∀ c ∈ register.toList, c ∈ i.operands.toList := by
  have hoperands := h.operands_eq
  unfold registerAndValue? at hoperands
  split at hoperands
  · cases hoperands
  · rename_i before after hsplit
    split at hoperands
    · obtain ⟨v, _, hv⟩ := Option.map_eq_some_iff.1 hoperands
      cases hv
      intro c hc
      rw [toList_onChars, String.toList_ofList] at hc
      rw [(splitOnce_eq_some hsplit).1]
      exact List.mem_append_left _ (mem_of_mem_trim hc)
    · cases hoperands

/-- A joined entry is printable. -/
theorem isPrintable_joined {first second : Instruction} {register : String} {low high : UInt32}
    (h : IsPair first second register low high) (hfirst : first.IsPrintable) (hsecond : second.IsPrintable) :
    (joined first second register low high).IsPrintable := by
  have hregister : printable register = true := by
    refine printable_iff.2 fun c hc => ?_
    rcases h.2 with ⟨hlow, _⟩ | ⟨_, hlow⟩
    · exact printable_iff.1 hfirst.operands c (hlow.mem_operands c hc)
    · exact printable_iff.1 hsecond.operands c (hlow.mem_operands c hc)
  refine ⟨show printable "mov" = true from rfl, ?_⟩
  show printable (register ++ ", #0x" ++ lowerHex _) = true
  rw [printable_append, printable_append, hregister, printable_lowerHex]
  rfl

/-- An entry of some code is printable. -/
theorem EntryOf.isPrintable {code : Bytes} {base : UInt32} {i : Instruction} (h : EntryOf code base i) :
    i.IsPrintable := by
  cases h with
  | single hi => exact isPrintable_of_decode hi.2
  | pair hfirst hsecond hpair =>
    exact isPrintable_joined hpair (isPrintable_of_decode hfirst.2) (isPrintable_of_decode hsecond.2)

/-- An entry stays printable with the literal that it loads. -/
theorem isPrintable_entered {i : Instruction} (h : i.IsPrintable) (image : Image) (s : Section) :
    (entered image s i).IsPrintable := by
  unfold entered
  cases hload : withLiteral? image s i with
  | none => exact h
  | some j =>
    obtain ⟨r, word, hr, rfl⟩ := withLiteral?_eq_some_iff.1 hload
    refine ⟨h.mnemonic, printable_iff.2 fun c hc => ?_⟩
    have hoperands := printable_iff.1 h.operands
    rw [hr.reference.1.1] at hoperands
    rw [showing, Option.getD_some, String.toList_ofList] at hc
    -- The text around the operand is as it was, and the literal is made of a mark and digits.
    rcases List.mem_append.1 hc with hc | hc
    · rcases List.mem_append.1 hc with hc | hc
      · rcases List.mem_append.1 hc with hc | hc
        · exact hoperands c (List.mem_append_left _ hc)
        · exact List.all_eq_true.1 (rfl : ['#', '0', 'x'].all isPrintable = true) c hc
      · exact isPrintable_toDigits _ c hc
    · refine hoperands c (List.mem_append_right _ (List.mem_append_right _ (List.mem_append_right _ ?_)))
      exact List.mem_cons_of_mem _ hc

/-- **The code of an image is printable.** -/
theorem isPrintable_of_mem_code {image : Image} {i : Instruction} (h : i ∈ image.code.instructions) :
    i.IsPrintable := by
  obtain ⟨_, s, _, _, _, e, he, rfl, _⟩ := (explored_explore image).1.found i h
  exact isPrintable_entered he.isPrintable image s

/-! ## Lines -/

namespace Bytes

/-- The UTF-8 form of a text is that of its characters. -/
theorem ofText_eq (text : String) : ofText text = text.toList.flatMap String.utf8EncodeChar := by
  have hbytes : text.toUTF8 = (text.toList.flatMap String.utf8EncodeChar).toByteArray := by
    rw [String.toUTF8_eq_toByteArray, ← String.utf8Encode_toList]
    rfl
  rw [ofText, hbytes]
  exact List.toList_data_toByteArray

theorem ofText_append (a b : String) : ofText (a ++ b) = ofText a ++ ofText b := by
  rw [ofText_eq, ofText_eq, ofText_eq, String.toList_append, List.flatMap_append]

/-- A character of ASCII is a byte. -/
theorem utf8EncodeChar_of_ascii {c : Char} (h : c.toNat < 0x80) :
    String.utf8EncodeChar c = [UInt8.ofNat c.toNat] := by
  have hle : c.val.toNat ≤ 0x7F := Nat.le_of_lt_succ h
  unfold String.utf8EncodeChar
  exact if_pos hle

end Bytes

namespace Listing

/-- The characters of the lines of a listing: printable ones and tabs. -/
def isListed (c : Char) : Bool := isPrintable c || c == '\t'

/-- Neither of the bytes that end a line stands in one. -/
theorem not_lineEnd_of_mem_ofText {text : String} (h : ∀ c ∈ text.toList, isListed c = true) {b : UInt8}
    (hb : b ∈ Bytes.ofText text) : b ≠ 10 ∧ b ≠ 13 := by
  rw [Bytes.ofText_eq] at hb
  obtain ⟨c, hc, hb⟩ := List.mem_flatMap.1 hb
  have hlisted : (0x20 ≤ c.toNat ∧ c.toNat < 0x7F) ∨ c.toNat = 9 := by
    have := h c hc
    simp only [isListed, isPrintable, Bool.or_eq_true, Bool.and_eq_true, decide_eq_true_eq, beq_iff_eq] at this
    exact this.imp id fun heq => by rw [heq]; rfl
  rw [Bytes.utf8EncodeChar_of_ascii (by omega), List.mem_singleton] at hb
  have hnat : b.toNat = c.toNat := by
    rw [hb]
    exact UInt8.toNat_ofNat_of_lt' (by show _ < 256; omega)
  constructor
  · rintro rfl
    have : (10 : Nat) = c.toNat := hnat
    omega
  · rintro rfl
    have : (13 : Nat) = c.toNat := hnat
    omega

/-- The first of several lines. -/
theorem byteLinesFrom_append {line bytes rest : Bytes} (h : ∀ b ∈ line ++ bytes, b ≠ 10 ∧ b ≠ 13) :
    byteLinesFrom line (bytes ++ 10 :: rest) = (line ++ bytes) :: byteLinesFrom [] rest := by
  induction bytes generalizing line with
  | nil =>
    have hlast : line.getLast? ≠ some 13 := fun heq =>
      (h 13 (List.mem_append_left _ (List.mem_of_getLast? heq))).2 rfl
    rw [List.nil_append, byteLinesFrom, if_pos rfl, if_neg hlast, List.append_nil]
  | cons b bytes ih =>
    have hb := (h b (List.mem_append_right _ List.mem_cons_self)).1
    have hmove : line ++ b :: bytes = (line ++ [b]) ++ bytes := by rw [List.append_assoc, List.singleton_append]
    rw [List.cons_append, byteLinesFrom, if_neg hb, ih (by rwa [← hmove]), ← hmove]

/-- **The lines of a text** whose lines are listed. -/
theorem byteLines_ofText {texts : List String} (h : ∀ text ∈ texts, ∀ c ∈ text.toList, isListed c = true) :
    byteLines (Bytes.ofText (String.join (texts.map (· ++ "\n")))) = texts.map Bytes.ofText := by
  induction texts with
  | nil => rfl
  | cons text texts ih =>
    have htext := h text List.mem_cons_self
    have hrest := ih fun other hother => h other (List.mem_cons_of_mem _ hother)
    have hjoin : Bytes.ofText (String.join ((text :: texts).map (· ++ "\n")))
        = Bytes.ofText text ++ 10 :: Bytes.ofText (String.join (texts.map (· ++ "\n"))) := by
      rw [List.map_cons, String.join_cons, Bytes.ofText_append, Bytes.ofText_append, List.append_assoc]
      rfl
    rw [hjoin, byteLines, byteLinesFrom_append (fun b hb => not_lineEnd_of_mem_ofText htext hb), List.nil_append]
    exact congrArg _ hrest

/-! ## Entries -/

/-- The line of an entry, without its line end. -/
def lineOf (i : Instruction) : String :=
  hex8 i.address ++ "\t" ++ Bytes.hex i.bytes ++ "\t" ++ i.mnemonic ++ "\t" ++ i.operands

/-- The four fields of a line. -/
theorem toList_lineOf (i : Instruction) : (lineOf i).toList = (hex8 i.address).toList ++ '\t' ::
    ((Bytes.hex i.bytes).toList ++ '\t' :: (i.mnemonic.toList ++ '\t' :: i.operands.toList)) := by
  simp [lineOf]

/-- Printable characters are listed, and there is no tab among them. -/
theorem isListed_of_isPrintable {c : Char} (h : isPrintable c = true) : isListed c = true := by
  rw [isListed, h, Bool.true_or]

theorem tab_not_mem {cs : List Char} (h : ∀ c ∈ cs, isPrintable c = true) : '\t' ∉ cs := fun hmem =>
  Bool.false_ne_true (h '\t' hmem)

/-- Digits are printable. -/
theorem isPrintable_hex8 (w : UInt32) : ∀ c ∈ (hex8 w).toList, isPrintable c = true :=
  forall_mem_hex8 (p := (isPrintable · = true)) (by decide) w

theorem isPrintable_hex (data : Bytes) : ∀ c ∈ (Bytes.hex data).toList, isPrintable c = true :=
  Bytes.forall_mem_hex (p := (isPrintable · = true)) (by decide) data

/-- A printable field and a tab go in front of what is listed. -/
theorem isListed_field {field rest : List Char} (hfield : ∀ c ∈ field, isPrintable c = true)
    (hrest : ∀ c ∈ rest, isListed c = true) : ∀ c ∈ field ++ '\t' :: rest, isListed c = true := by
  intro c hc
  rcases List.mem_append.1 hc with hc | hc
  · exact isListed_of_isPrintable (hfield c hc)
  rcases List.mem_cons.1 hc with rfl | hc
  · rfl
  · exact hrest c hc

/-- The line of a printable entry is listed. -/
theorem isListed_lineOf {i : Instruction} (hi : i.IsPrintable) : ∀ c ∈ (lineOf i).toList, isListed c = true := by
  rw [toList_lineOf]
  refine isListed_field (isPrintable_hex8 _) (isListed_field (isPrintable_hex _) ?_)
  exact isListed_field (printable_iff.1 hi.mnemonic) fun c hc =>
    isListed_of_isPrintable (printable_iff.1 hi.operands c hc)

/-- No line is blank: it begins with a digit. -/
theorem trim_lineOf_isEmpty (i : Instruction) : (trim (lineOf i).toList).isEmpty = false := by
  obtain ⟨c, hc⟩ := List.exists_mem_of_length_pos (l := (hex8 i.address).toList) (by rw [length_hex8]; decide)
  have hmem : c ∈ (lineOf i).toList := by
    rw [toList_lineOf]
    exact List.mem_append_left _ hc
  have hblank := forall_mem_hex8 (p := (isBlank · = false)) (by decide) i.address c hc
  exact List.isEmpty_eq_false_iff.2 (List.ne_nil_of_mem (mem_trim hmem hblank))

/-- **An entry** that is printable is read back from its line. -/
theorem parseLine_lineOf {i : Instruction} (hi : i.IsPrintable) : parseLine (lineOf i).toList = .ok i := by
  have haddress := tab_not_mem (isPrintable_hex8 i.address)
  have hbytes := tab_not_mem (isPrintable_hex i.bytes)
  have hmnemonic := tab_not_mem (printable_iff.1 hi.mnemonic)
  have htrim : trim (hex8 i.address).toList = (hex8 i.address).toList :=
    trim_of_no_blank (forall_mem_hex8 (p := (isBlank · = false)) (by decide) _)
  unfold parseLine
  -- No field but the last holds a tab, so each split ends where the field does.
  rw [toList_lineOf, splitOnce_append haddress]
  dsimp only
  rw [splitOnce_append hbytes]
  dsimp only
  rw [splitOnce_append hmnemonic, htrim, readUnsigned_hex8]
  dsimp only [Option.getD_some]
  rw [String.ofList_toList, Bytes.ofHex?_hex]
  dsimp only
  rw [String.ofList_toList, String.ofList_toList, UInt32.ofNat_toNat]

/-- Entries that are printable are read back from their lines. -/
theorem parseLines_lineOf {is : List Instruction} (his : ∀ i ∈ is, i.IsPrintable) (number : Nat) :
    parseLines number (is.map fun i => Bytes.ofText (lineOf i)) = .ok is := by
  induction is generalizing number with
  | nil => rfl
  | cons i is ih =>
    have hrest := ih (fun j hj => his j (List.mem_cons_of_mem _ hj)) (number + 1)
    rw [List.map_cons, parseLines, Bytes.text?_ofText]
    dsimp only
    rw [if_neg (by rw [trim_lineOf_isEmpty]; exact Bool.false_ne_true), parseLine_lineOf (his i List.mem_cons_self)]
    dsimp only
    rw [hrest]

end Listing

/-! ## Maps -/

/-- An entry behind all others is put at the end. -/
theorem insertInOrder_concat {i : Instruction} {is : List Instruction} (h : ∀ j ∈ is, j.address < i.address) :
    insertInOrder i is = is ++ [i] := by
  induction is with
  | nil => rfl
  | cons j is ih =>
    have hj := h j List.mem_cons_self
    rw [insertInOrder, if_neg (UInt32.lt_asymm hj), if_neg (UInt32.ne_of_lt hj).symm,
      ih fun k hk => h k (List.mem_cons_of_mem _ hk), List.cons_append]

namespace CodeMap

/-- Entries in ascending order behind those of a map are put at its end. -/
theorem instructions_foldl_insert {is : List Instruction} {map : CodeMap} (h : Ascending (map.instructions ++ is)) :
    (is.foldl insert map).instructions = map.instructions ++ is := by
  induction is generalizing map with
  | nil => exact (List.append_nil _).symm
  | cons i is ih =>
    have hinsert : (map.insert i).instructions = map.instructions ++ [i] :=
      insertInOrder_concat fun j hj => (List.pairwise_append.1 h).2.2 j hj i List.mem_cons_self
    have hmove : map.instructions ++ i :: is = (map.insert i).instructions ++ is := by
      rw [hinsert, List.append_assoc, List.singleton_append]
    rw [List.foldl_cons, ih (hmove ▸ h), hmove]

/-- **A map** is that of its entries. -/
theorem ofList_instructions (map : CodeMap) : ofList map.instructions = map := by
  have h : (ofList map.instructions).instructions = map.instructions :=
    @instructions_foldl_insert map.instructions empty map.ascending
  cases hmap : ofList map.instructions
  cases map
  rw [hmap] at h
  cases h
  rfl

end CodeMap

/-! ## Listings -/

namespace Listing

/-- Whether a text is made of hexadecimal digits, of either case. -/
def isDigest (h : String) : Bool := h.toList.all (isDigitOf 16)

/-- The digits of a digest are printable and no blanks. -/
theorem isPrintable_of_isDigitOf {c : Char} (h : isDigitOf 16 c = true) : isPrintable c = true ∧ isBlank c = false := by
  have hbounds := bounds_of_isDigitOf h
  constructor
  · simp only [isPrintable, Bool.and_eq_true, decide_eq_true_eq]
    omega
  · simp only [isBlank, Bool.or_eq_false_iff, Bool.and_eq_false_iff, decide_eq_false_iff_not, beq_eq_false_iff_ne]
    omega

/-- A listing is its lines. -/
theorem text_eq (code : CodeMap) (digest : String) :
    text code digest = String.join (((headerMark ++ digest) :: code.instructions.map lineOf).map (· ++ "\n")) := by
  rw [List.map_cons, String.join_cons, List.map_map]
  rfl

/-- **The lines of a listing** of printable entries. -/
theorem byteLines_text {code : CodeMap} (hcode : ∀ i ∈ code.instructions, i.IsPrintable) {digest : String}
    (hdigest : isDigest digest = true) : byteLines (Bytes.ofText (text code digest)) =
      Bytes.ofText (headerMark ++ digest) :: code.instructions.map fun i => Bytes.ofText (lineOf i) := by
  rw [text_eq, byteLines_ofText, List.map_cons, List.map_map]
  · rfl
  · intro line hline
    rcases List.mem_cons.1 hline with rfl | hline
    · intro c hc
      rw [String.toList_append] at hc
      rcases List.mem_append.1 hc with hc | hc
      · exact List.all_eq_true.1 (rfl : headerMark.toList.all isListed = true) c hc
      · exact isListed_of_isPrintable (isPrintable_of_isDigitOf (List.all_eq_true.1 hdigest c hc)).1
    · obtain ⟨i, hi, rfl⟩ := List.mem_map.1 hline
      exact isListed_lineOf (hcode i hi)

/-- **The first line** tells the digest up to case. -/
theorem isHeaderFor_append {written : String} (h : isDigest written = true) (digest : String) :
    isHeaderFor digest (headerMark ++ written).toList = equalIgnoringCase written digest := by
  have htrim : trim written.toList = written.toList :=
    trim_of_no_blank fun c hc => (isPrintable_of_isDigitOf (List.all_eq_true.1 h c hc)).2
  unfold isHeaderFor
  rw [String.toList_append, List.isPrefixOf_iff_prefix.2 (List.prefix_append _ _), Bool.true_and, List.drop_left,
    htrim, String.ofList_toList]

/-- **A listing read** for a digest: it gives the code when it was made for the digest, up to case, and nothing when
it was made for another one. -/
theorem read_text {code : CodeMap} (hcode : ∀ i ∈ code.instructions, i.IsPrintable) {written : String}
    (hwritten : isDigest written = true) (digest : String) : read (Bytes.ofText (text code written)) digest =
      .ok (if equalIgnoringCase written digest then some code else none) := by
  unfold read
  rw [byteLines_text hcode hwritten]
  dsimp only
  rw [Bytes.text?_ofText]
  dsimp only
  rw [isHeaderFor_append hwritten, parseLines_lineOf hcode]
  dsimp only
  rw [CodeMap.ofList_instructions]
  split <;> rfl

/-- **A listing saved and loaded** gives the code. -/
theorem load_save {tree after : FileTree} {code : CodeMap} (hcode : ∀ i ∈ code.instructions, i.IsPrintable)
    {written digest path : String} (hwritten : isDigest written = true)
    (hdigest : equalIgnoringCase written digest = true) (h : save tree code written path = .ok after) :
    load after path digest = .ok (some code) := by
  have hread : after.read path = .ok (Bytes.ofText (text code written)) := by
    unfold save at h
    split at h
    · rename_i files hfiles
      cases h
      exact FileTree.read_writeWithParents hfiles
    · cases h
  have hexists : after.exists? path = true := by
    obtain ⟨place, hplace, hnode⟩ := FileTree.read_eq_ok_iff.1 hread
    exact FileTree.exists?_eq_true_iff.2 ⟨place, _, hplace, hnode⟩
  unfold load
  rw [if_pos hexists, hread]
  dsimp only
  rw [read_text hcode hwritten, if_pos hdigest]

end Listing

end BinaryPatching
