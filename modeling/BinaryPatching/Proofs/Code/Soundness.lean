import BinaryPatching.Proofs.Code.Exploration

/-!
# `BinaryPatching.Proofs.Code.Soundness` — what the code of an image says

Every entry of the code of an image is explained by the bytes of the image: it is the instruction decoded from its own
bytes, with the word it loads in place of the operand, or it stands for two instructions that load the halves of a word.

## Contents
- `ShowsDecoded`, `ShowsPair`, `Explains`: the two kinds of entries, and what is said of both.
- `Section.holdsWord_of_readWord?`: words that are read without an overflow lie in their section.
- `shows_of_mem`, `explains_code`: all entries are explained, as long as the sections are apart.
- `explains_loading`, `not_explains_wrapping`: an image with an ordinary load, and one in which the word shown wraps
  around the last address, so that it does not lie in the section.
-/

namespace BinaryPatching

open Thumb Exploration

/-! ## Entries -/

/-- **An entry for a single instruction.** It is decoded from the bytes of the entry and takes the plain names of
    registers; where it loads a word of the section, `lies` being true of the address, the word is shown in place of the
    operand, and nowhere else. -/
structure ShowsDecoded (image : Image) (lies : UInt32 → Prop) (i : Instruction) : Prop where
  /-- It takes two or four bytes. -/
  length_bytes : i.bytes.length = 2 ∨ i.bytes.length = 4
  /-- It is decoded from them. -/
  decoded : ∃ j, decode i.bytes i.address = some j ∧
    ((∃ r word, LoadsWord image lies j.withPlainRegisters r word ∧ i = showing j.withPlainRegisters r word) ∨
      ((¬∃ r word, LoadsWord image lies j.withPlainRegisters r word) ∧ i = j.withPlainRegisters))

/-- **An entry for a pair.** The two halves of its bytes are decoded to the loads of the two halves of a word into one
    register, in either order; the entry loads the whole word, and no entry begins at the second half. -/
structure ShowsPair (code : CodeMap) (i : Instruction) : Prop where
  /-- It takes eight bytes. -/
  length_bytes : i.bytes.length = 8
  /-- Its halves make a pair. -/
  halves : ∃ first second register low high,
    decode (i.bytes.take 4) i.address = some first ∧ decode (i.bytes.drop 4) (i.address + 4) = some second ∧
    IsPair first.withPlainRegisters second.withPlainRegisters register low high ∧
    i.mnemonic = "mov" ∧ i.operands = register ++ ", #0x" ++ Text.lowerHex ((high <<< 16) + low).toNat ∧
    i.literalValue = some ((high <<< 16) + low)
  /-- The second half is no entry of its own. -/
  alone : code.get? (i.address + 4) = none

/-- **An entry explained by the image**, where `lies` says of which addresses a section is taken to hold a word. Its
    bytes are found where they lie in the section. That is at the offset of the address, as long as the file is not
    larger than offsets go. -/
structure Explains (image : Image) (lies : Section → UInt32 → Prop) (k : UInt32) (i : Instruction) : Prop where
  /-- Entries lie at even addresses. -/
  even : k.toNat % 2 = 0
  /-- An entry is kept under its own address. -/
  address_eq : i.address = k
  /-- The section, the bytes and the text of the entry. -/
  located : ∃ s ∈ image.sections, s.isCode = true ∧ s.containsAddress k = true ∧
    Bytes.slice? image.data (s.rawOffset.toNat + (k.toNat - s.address.toNat)) i.bytes.length = some i.bytes ∧
    (∃ offset, image.offsetOf k = .ok offset ∧
      offset.toNat = (s.rawOffset.toNat + (k.toNat - s.address.toNat)) % 0x100000000 ∧
      (image.data.length ≤ 0x100000000 →
        Bytes.slice? image.data offset.toNat i.bytes.length = some i.bytes)) ∧
    (ShowsDecoded image (lies s) i ∨ ShowsPair image.code i)

/-! ## The kinds of entries -/

/-- An entry of some code that stands for one instruction, where it makes no difference to the words that it loads
whether they lie somewhere or are taken to lie in its section. -/
theorem showsDecoded_entered {image : Image} {s : Section} {lies : UInt32 → Prop} {code : Bytes} {base : UInt32}
    {i : Instruction} (h : DecodedIn code base i)
    (hlies : ∀ r word, LoadsWord image s.AcceptsWord i.withPlainRegisters r word ↔
      LoadsWord image lies i.withPlainRegisters r word) :
    ShowsDecoded image lies (entered image s i.withPlainRegisters) := by
  have hdecode := decode_bytes h.2
  have hlen := length_of_decode h.2
  constructor
  · rw [bytes_entered]
    exact hlen
  · rw [bytes_entered, address_entered]
    refine ⟨i, hdecode, ?_⟩
    simp only [← hlies]
    cases hload : withLiteral? image s i.withPlainRegisters with
    | none =>
      refine .inr ⟨withLiteral?_eq_none_iff.1 hload, ?_⟩
      rw [entered, hload, Option.getD_none]
    | some j =>
      obtain ⟨r, word, hr, rfl⟩ := withLiteral?_eq_some_iff.1 hload
      refine .inl ⟨r, word, hr, ?_⟩
      rw [entered, hload, Option.getD_some]

/-- An entry of some code that stands for a pair. -/
theorem showsPair_entered {image : Image} {s : Section} {code : Bytes} {base : UInt32} {map : CodeMap}
    {first second : Instruction} {register : String} {low high : UInt32} (hfirst : DecodedIn code base first)
    (hsecond : DecodedIn code base second)
    (h : IsPair first.withPlainRegisters second.withPlainRegisters register low high)
    (halone : map.contains (first.address + 4) = false) :
    ShowsPair map
      (entered image s (joined first.withPlainRegisters second.withPlainRegisters register low high)) := by
  obtain ⟨hlen1, hlen2⟩ := h.length_halves hfirst.2 hsecond.2
  have hplain : entered image s (joined first.withPlainRegisters second.withPlainRegisters register low high) =
      joined first.withPlainRegisters second.withPlainRegisters register low high := by
    rw [entered, withLiteral?_joined h, Option.getD_none]
  have hadjacent : second.address = first.address + 4 := by
    have hstop : first.address + first.size = second.address := h.1
    rw [← hstop, Instruction.size, hlen1]
    rfl
  have htake : (first.bytes ++ second.bytes).take 4 = first.bytes := List.take_left' hlen1
  have hdrop : (first.bytes ++ second.bytes).drop 4 = second.bytes := List.drop_left' hlen1
  rw [hplain]
  refine ⟨?_, ⟨first, second, register, low, high, ?_, ?_, h, rfl, rfl, literalValue_joined _ _ _ _ _⟩, ?_⟩
  · show (first.bytes ++ second.bytes).length = 8
    rw [List.length_append, hlen1, hlen2]
  · show decode ((first.bytes ++ second.bytes).take 4) first.address = some first
    rw [htake]
    exact decode_bytes hfirst.2
  · show decode ((first.bytes ++ second.bytes).drop 4) (first.address + 4) = some second
    rw [hdrop, ← hadjacent]
    exact decode_bytes hsecond.2
  · exact CodeMap.get?_eq_none_iff.2 halone

/-! ## Words that are read -/

/-- **A word that is taken to lie in its section** lies there, if its file offset does not overflow and the file is not
larger than offsets go. One that wraps around the last address would begin farther behind the start of the section than
there are bytes in the file. -/
theorem Section.holdsWord_of_readWord? {image : Image} {s : Section} {p word : UInt32}
    (hs : image.sectionAt? p = some s) (haccept : s.AcceptsWord p) (hread : image.readWord? p = some word)
    (hcalm : image.offsetOverflows p = false) (hdata : image.data.length ≤ 0x100000000) : s.HoldsWord p := by
  rcases haccept with hholds | ⟨hwrap, hfirst, hlast⟩
  · exact hholds
  · have hoffset : (s.rawOffset + (p - s.address)).toNat = s.rawOffset.toNat + (p.toNat - s.address.toNat) := by
      rw [Image.offsetOverflows, hs, decide_eq_false_iff_not] at hcalm
      rw [Section.containsAddress_iff] at hfirst
      rw [UInt32.toNat_sub_of_le _ _ (UInt32.le_iff_toNat_le.2 hfirst.1)] at hcalm
      rw [UInt32.toNat_add, UInt32.toNat_sub_of_le _ _ (UInt32.le_iff_toNat_le.2 hfirst.1), Nat.mod_eq_of_lt (by omega)]
    have hinside : (s.rawOffset + (p - s.address)).toNat + 4 ≤ image.data.length := by
      rw [Image.readWord?, Image.offsetOf, hs] at hread
      exact Bytes.stop_le_of_word32? hread
    rw [Section.containsAddress_iff, UInt32.toNat_add] at hlast
    have hlt := p.toNat_lt
    have hthree : (3 : UInt32).toNat = 3 := rfl
    -- The last byte lies at one of the first three addresses, so that nearly all of them are between it and the first.
    omega

/-- So for the words that an entry loads it makes no difference. -/
theorem loadsWord_holdsWord_iff {image : Image} (hapart : image.sections.Pairwise Section.Apart)
    (hdata : image.data.length ≤ 0x100000000) {s : Section} (hs : s ∈ image.sections) {i : Instruction}
    (hcalm : literalOverflows image s i = false) (r : CounterReference) (word : UInt32) :
    LoadsWord image s.AcceptsWord i r word ↔ LoadsWord image s.HoldsWord i r word := by
  constructor
  · rintro ⟨hr, n, hn, haccept, hread⟩
    have hliteral := literal?_eq_some_iff.2 ⟨hr, n, hn, rfl, haccept⟩
    rw [literalOverflows, hliteral] at hcalm
    have hfirst := (Bool.and_eq_true_iff.1 (Section.acceptsWord_iff.2 haccept)).1
    have hsection := Image.sectionAt?_eq_some hapart hs hfirst
    exact ⟨hr, n, hn, Section.holdsWord_of_readWord? hsection haccept hread hcalm hdata, hread⟩
  · rintro ⟨hr, n, hn, hholds, hread⟩
    exact ⟨hr, n, hn, .inl hholds, hread⟩

/-! ## All entries -/

section

variable {image : Image} {i : Instruction}

/-- Every entry is of one of the two kinds, whether the sections are apart or not. Where its words lie does not matter
as far as it makes no difference to those entries whose literals do not overflow. -/
theorem shows_of_mem_of_iff (hmem : i ∈ image.code.instructions) {lies : Section → UInt32 → Prop}
    (hlies : ∀ s ∈ image.sections, ∀ j, ((explore image).overflows = 0 → literalOverflows image s j = false) →
      ∀ r word, LoadsWord image s.AcceptsWord j r word ↔ LoadsWord image (lies s) j r word) :
    ∃ s ∈ image.sections, s.isCode = true ∧ s.containsAddress i.address = true ∧ 0 < i.bytes.length ∧
      Bytes.slice? (image.sectionBytes s) (i.address.toNat - s.address.toNat) i.bytes.length = some i.bytes ∧
      (ShowsDecoded image (lies s) i ∨ ShowsPair image.code i) := by
  have hexplored := (explored_explore image).1
  obtain ⟨_, s, hs, hcode, ha, e, he, hentered, hcalm⟩ := hexplored.found i hmem
  have hlt := image.sectionBytes_lt ha
  have haddress : e.address = i.address := by rw [hentered, address_entered]
  have hbytes : e.bytes = i.bytes := by rw [hentered, bytes_entered]
  have hpos : 0 < i.bytes.length := hbytes ▸ (he.fits hlt).1
  have hslice := he.slice hlt
  rw [haddress, hbytes] at hslice
  refine ⟨s, hs, hcode, ha, hpos, hslice, ?_⟩
  cases he with
  | single hi => exact .inl (hentered ▸ showsDecoded_entered hi (hlies s hs _ hcalm))
  | @pair first second _ _ _ hfirst hsecond hpair =>
    have hlen : i.bytes.length = 8 := by
      obtain ⟨h1, h2⟩ := hpair.length_halves hfirst.2 hsecond.2
      rw [← hbytes]
      show (first.bytes ++ second.bytes).length = 8
      rw [List.length_append, h1, h2]
    have halone := hexplored.alone i hmem hlen
    rw [← haddress] at halone
    exact .inr (hentered ▸ showsPair_entered hfirst hsecond hpair halone)

theorem shows_of_mem (hmem : i ∈ image.code.instructions) :
    ∃ s ∈ image.sections, s.isCode = true ∧ s.containsAddress i.address = true ∧ 0 < i.bytes.length ∧
      Bytes.slice? (image.sectionBytes s) (i.address.toNat - s.address.toNat) i.bytes.length = some i.bytes ∧
      (ShowsDecoded image s.AcceptsWord i ∨ ShowsPair image.code i) :=
  shows_of_mem_of_iff hmem fun _ _ _ _ _ _ => Iff.rfl

/-- An entry of eight bytes stands for a pair. -/
theorem showsPair_of_length (hmem : i ∈ image.code.instructions) (hlen : i.bytes.length = 8) :
    ShowsPair image.code i := by
  obtain ⟨s, _, _, _, _, _, hdecoded | hpair⟩ := shows_of_mem hmem
  · have hshort := hdecoded.length_bytes
    omega
  · exact hpair

variable (hapart : image.sections.Pairwise Section.Apart)
include hapart

theorem explains_of_iff {k : UInt32} (h : image.code.get? k = some i) {lies : Section → UInt32 → Prop}
    (hlies : ∀ s ∈ image.sections, ∀ j, ((explore image).overflows = 0 → literalOverflows image s j = false) →
      ∀ r word, LoadsWord image s.AcceptsWord j r word ↔ LoadsWord image (lies s) j r word) :
    Explains image lies k i := by
  obtain ⟨hmem, rfl⟩ := CodeMap.get?_eq_some_iff.1 h
  obtain ⟨s, hs, hcode, ha, hpos, hslice, hshows⟩ := shows_of_mem_of_iff hmem hlies
  refine ⟨((explored_explore image).1.found i hmem).1, rfl, s, hs, hcode, ha,
    Image.slice?_sectionBytes hpos hslice, ?_, hshows⟩
  -- The section of the run is the one that is found for the address, since no other section maps it.
  exact ⟨_, Image.offsetOf_eq_ok (Image.sectionAt?_eq_some hapart hs ha), Image.toNat_offset ha,
    fun hdata => Image.slice?_offsetOf hdata ha hpos hslice⟩

/-- **The code of an image is explained by its bytes**, when no two sections map the same address. A word is shown in
place of an operand when it lies in the section, or when it wraps around the last address and its first and its last
byte lie in the section. Where sums are checked for overflow and the file is not larger than offsets go, there is either
no code or no word of the latter kind. -/
theorem explains_code {k : UInt32} (h : image.code.get? k = some i) :
    Explains image Section.AcceptsWord k i ∧
      (image.data.length ≤ 0x100000000 → (analyze image).isSome = true → Explains image Section.HoldsWord k i) := by
  refine ⟨explains_of_iff hapart h fun _ _ _ _ _ _ => Iff.rfl, fun hdata hanalyzed => ?_⟩
  have hzero : (explore image).overflows = 0 := by
    unfold analyze at hanalyzed
    dsimp only at hanalyzed
    split at hanalyzed
    · assumption
    · cases hanalyzed
  refine explains_of_iff hapart h fun s hs j hcalm r word => ?_
  exact loadsWord_holdsWord_iff hapart hdata hs (hcalm hzero) r word

end

/-- An image whose one section holds a load, a return and the word that is loaded. -/
def loadingImage : Image :=
  { Image.blank [0x00, 0x48, 0x70, 0x47, 0x78, 0x56, 0x34, 0x12] 0x1000 with
    sections := [.new ".text" 0x1000 0 8 Section.codeFlag] }

theorem explains_loading : loadingImage.sections.Pairwise Section.Apart ∧ loadingImage.data.length ≤ 0x100000000 ∧
    (analyze loadingImage).isSome = true ∧
    Explains loadingImage Section.AcceptsWord 0x1000 ⟨0x1000, [0x00, 0x48], "ldr", "r0, #0x12345678"⟩ ∧
    Explains loadingImage Section.HoldsWord 0x1000 ⟨0x1000, [0x00, 0x48], "ldr", "r0, #0x12345678"⟩ := by
  have hdata : loadingImage.data.length ≤ 0x100000000 := by decide
  have hanalyzed : (analyze loadingImage).isSome = true := by decide +kernel
  have hapart : loadingImage.sections.Pairwise Section.Apart := List.pairwise_singleton _ _
  have hentry : loadingImage.code.get? 0x1000 = some ⟨0x1000, [0x00, 0x48], "ldr", "r0, #0x12345678"⟩ := by
    decide +kernel
  obtain ⟨haccepted, hheld⟩ := explains_code hapart hentry
  exact ⟨hapart, hdata, hanalyzed, haccepted, hheld hdata hanalyzed⟩

/-- An image whose one section reaches to the last address but one, and whose first instruction loads a word from the
    last two addresses on. -/
def wrappingImage : Image :=
  { Image.blank (List.replicate 14 0 ++ [0xAB, 0xCD, 0x5F, 0xF8, 0x06, 0x00, 0x00, 0xDE] ++ List.replicate 10 0) 0 with
    sections := [.new ".text" 0 16 0xFFFFFFFF Section.codeFlag] }

/-- **A word that does not lie in the section** is shown nevertheless: its first byte and, after the last address, its
    last one do, but the one at the last address does not. Where sums are checked for overflow, there is no code at all:
    the file offset of the word is beyond the last one. -/
theorem not_explains_wrapping : wrappingImage.sections.Pairwise Section.Apart ∧
    (analyze wrappingImage).isNone = true ∧
    wrappingImage.code.get? 0 = some ⟨0, [0x5F, 0xF8, 0x06, 0x00], "ldr.w", "r0, #0xf85fcdab"⟩ ∧
    ¬Explains wrappingImage Section.HoldsWord 0 ⟨0, [0x5F, 0xF8, 0x06, 0x00], "ldr.w", "r0, #0xf85fcdab"⟩ := by
  refine ⟨List.pairwise_singleton _ _, by decide +kernel, by decide +kernel, fun h => ?_⟩
  have hdecode : decode [0x5F, 0xF8, 0x06, 0x00] 0 =
      some ⟨0, [0x5F, 0xF8, 0x06, 0x00], "ldr.w", "r0, [pc, #-0x6]"⟩ := by decide +kernel
  have hreference : (counterReference? (plainRegisterNames "r0, [pc, #-0x6]")).bind
      (fun r => Text.parseNumber (String.ofList r.displacement)) = some (-6) := by decide +kernel
  obtain ⟨s, hs, _, _, _, _, hshows | hshows⟩ := h.located
  · obtain ⟨j, hj, hkind⟩ := hshows.decoded
    cases hdecode.symm.trans hj
    rcases hkind with ⟨r, word, hload, _⟩ | ⟨_, hplain⟩
    · obtain ⟨n, hn, hholds, _⟩ := hload.located
      have hr : counterReference? (plainRegisterNames "r0, [pc, #-0x6]") = some r :=
        counterReference?_eq_some_iff.2 hload.reference
      rw [hr, Option.bind_some, hn] at hreference
      cases hreference
      -- The last byte of the word would lie behind the last address.
      cases List.mem_singleton.1 hs
      exact absurd hholds.2 (by decide +kernel)
    · exact absurd (congrArg Instruction.operands hplain) (by decide +kernel)
  · exact absurd hshows.length_bytes (by decide)

end BinaryPatching
