import BinaryPatching.Image.Basic

/-!
# `BinaryPatching.Proofs.Image.Mapping` — addresses, sections and bytes

What it means for a section to contain an address, without the arithmetic of words, and where the bytes of a section
are found in the file.

## Contents
- `Section.containsAddress_iff`: a section that contains anything does not wrap around.
- `Section.Apart`, `Image.sectionAt?_eq_some`: of sections that are apart, only one contains an address.
- `Image.slice?_sectionBytes`, `Image.slice?_offsetOf`: the bytes of a section as bytes of the file.
- `Image.offsetOf_of_addressOf?`: from an offset to its address and back.
-/

namespace BinaryPatching

namespace Section

/-- **Containment.** The mapped part of a section holds the addresses from its first on. One that would reach beyond
    the last address holds none. -/
theorem containsAddress_iff {s : Section} {a : UInt32} :
    s.containsAddress a = true ↔
      s.address.toNat ≤ a.toNat ∧ a.toNat < s.address.toNat + s.mappedSize.toNat ∧
        s.address.toNat + s.mappedSize.toNat < 0x100000000 := by
  have haddress := s.address.toNat_lt
  have hsize := s.mappedSize.toNat_lt
  have hstop : s.stop.toNat = (s.address.toNat + s.mappedSize.toNat) % 0x100000000 := UInt32.toNat_add _ _
  simp only [containsAddress, Bool.and_eq_true, decide_eq_true_eq, UInt32.le_iff_toNat_le,
    UInt32.lt_iff_toNat_lt, hstop]
  omega

/-- Containment of file offsets is the same, with the place in the file instead of that in memory. -/
theorem containsOffset_iff {s : Section} {offset : UInt32} :
    s.containsOffset offset = true ↔
      s.rawOffset.toNat ≤ offset.toNat ∧ offset.toNat < s.rawOffset.toNat + s.mappedSize.toNat ∧
        s.rawOffset.toNat + s.mappedSize.toNat < 0x100000000 := by
  have hraw := s.rawOffset.toNat_lt
  have hsize := s.mappedSize.toNat_lt
  have hstop : (s.rawOffset + s.mappedSize).toNat = (s.rawOffset.toNat + s.mappedSize.toNat) % 0x100000000 :=
    UInt32.toNat_add _ _
  simp only [containsOffset, Bool.and_eq_true, decide_eq_true_eq, UInt32.le_iff_toNat_le,
    UInt32.lt_iff_toNat_lt, hstop]
  omega

/-- **Disjoint sections**: no address is mapped by both. -/
def Apart (s t : Section) : Prop := ∀ a, ¬(s.containsAddress a = true ∧ t.containsAddress a = true)

/-- Sections of which one stops before the other begins are apart. -/
theorem apart_of_stop_le {s t : Section} (h : s.stop ≤ t.address ∨ t.stop ≤ s.address) : Apart s t := by
  rintro a ⟨hs, ht⟩
  simp only [containsAddress, Bool.and_eq_true, decide_eq_true_eq, UInt32.le_iff_toNat_le,
    UInt32.lt_iff_toNat_lt] at h hs ht
  omega

/-- Of sections that are apart, at most one contains an address. -/
theorem eq_of_apart {sections : List Section} (hp : sections.Pairwise Apart) {s t : Section} (hs : s ∈ sections)
    (ht : t ∈ sections) {a : UInt32} (hsa : s.containsAddress a = true) (hta : t.containsAddress a = true) :
    s = t := by
  induction sections with
  | nil => exact absurd hs List.not_mem_nil
  | cons r rest ih =>
    obtain ⟨hr, hrest⟩ := List.pairwise_cons.1 hp
    rcases List.mem_cons.1 hs with hs' | hs' <;> rcases List.mem_cons.1 ht with ht' | ht'
    · rw [hs', ht']
    · exact absurd ⟨hs' ▸ hsa, hta⟩ (hr t ht' a)
    · exact absurd ⟨ht' ▸ hta, hsa⟩ (hr s hs' a)
    · exact ih hrest hs' ht'

end Section

namespace Image

variable {image : Image} {s : Section} {a : UInt32}

/-! ## The section of an address -/

theorem mem_of_sectionAt? (h : image.sectionAt? a = some s) : s ∈ image.sections := List.mem_of_find?_eq_some h

theorem containsAddress_of_sectionAt? (h : image.sectionAt? a = some s) : s.containsAddress a = true := by
  have hfound := List.find?_some (p := fun t : Section => t.containsAddress a) h
  exact hfound

/-- Of sections that are apart, the one that contains an address is the one found for it. -/
theorem sectionAt?_eq_some (hp : image.sections.Pairwise Section.Apart) (hs : s ∈ image.sections)
    (ha : s.containsAddress a = true) : image.sectionAt? a = some s := by
  cases hf : image.sectionAt? a with
  | none => exact absurd ha (List.find?_eq_none.1 hf s hs)
  | some t =>
    have heq := Section.eq_of_apart hp (mem_of_sectionAt? hf) hs (containsAddress_of_sectionAt? hf) ha
    rw [heq]

theorem offsetOf_eq_ok (h : image.sectionAt? a = some s) :
    image.offsetOf a = .ok (s.rawOffset + (a - s.address)) := by
  rw [offsetOf, h]

/-! ## The bytes of a section -/

/-- A section that contains anything has its bytes at addresses that do not wrap around. -/
theorem sectionBytes_lt (image : Image) (ha : s.containsAddress a = true) :
    s.address.toNat + (image.sectionBytes s).length < 0x100000000 := by
  obtain ⟨_, _, hlt⟩ := Section.containsAddress_iff.1 ha
  have hle : (image.sectionBytes s).length ≤ s.mappedSize.toNat := by
    rw [sectionBytes, List.length_take]
    exact Nat.min_le_left _ _
  omega

/-- The addresses of the bytes that a section has in the file are contained in it. -/
theorem containsAddress_of_lt (image : Image) {b : UInt32} (ha : s.containsAddress a = true)
    (hge : s.address.toNat ≤ b.toNat)
    (hlt : b.toNat < s.address.toNat + (image.sectionBytes s).length) : s.containsAddress b = true := by
  obtain ⟨_, _, hsize⟩ := Section.containsAddress_iff.1 ha
  have hle : (image.sectionBytes s).length ≤ s.mappedSize.toNat := by
    rw [sectionBytes, List.length_take]
    exact Nat.min_le_left _ _
  exact Section.containsAddress_iff.2 ⟨hge, by omega, hsize⟩

/-- A stretch of the bytes of a section is a stretch of the file. -/
theorem slice?_sectionBytes {start length : Nat} {bytes : Bytes} (hpos : 0 < length)
    (h : Bytes.slice? (image.sectionBytes s) start length = some bytes) :
    Bytes.slice? image.data (s.rawOffset.toNat + start) length = some bytes := by
  obtain ⟨hle, rfl⟩ := Bytes.slice?_eq_some.1 h
  rw [sectionBytes, List.length_take, List.length_drop] at hle
  refine Bytes.slice?_eq_some.2 ⟨by omega, ?_⟩
  rw [sectionBytes, List.drop_take, List.take_take, List.drop_drop, Nat.min_eq_left (by omega)]

/-- The offset of an address is its distance from the start of the section, counted from the offset of the section,
    as a word. -/
theorem toNat_offset (ha : s.containsAddress a = true) :
    (s.rawOffset + (a - s.address)).toNat =
      (s.rawOffset.toNat + (a.toNat - s.address.toNat)) % 0x100000000 := by
  have hge : s.address ≤ a := by
    rw [UInt32.le_iff_toNat_le]
    exact (Section.containsAddress_iff.1 ha).1
  rw [UInt32.toNat_add, UInt32.toNat_sub_of_le _ _ hge]

/-- **The bytes at an address** of a section are found in the file at the offset of the address, unless the file is
    larger than offsets can tell. -/
theorem slice?_offsetOf {length : Nat} {bytes : Bytes} (hdata : image.data.length ≤ 0x100000000)
    (ha : s.containsAddress a = true) (hpos : 0 < length)
    (h : Bytes.slice? (image.sectionBytes s) (a.toNat - s.address.toNat) length = some bytes) :
    Bytes.slice? image.data (s.rawOffset + (a - s.address)).toNat length = some bytes := by
  have hfile := slice?_sectionBytes hpos h
  have hle := (Bytes.slice?_eq_some.1 hfile).1
  rw [toNat_offset ha, Nat.mod_eq_of_lt (by omega)]
  exact hfile

/-! ## From offsets to addresses and back -/

/-- **The address of an offset leads back** to the offset, when no two sections map the same address and none reaches
    the last one. The sections may share bytes of the file: it is the first of them that gives the address, and only
    that one maps it. -/
theorem offsetOf_of_addressOf? (hp : image.sections.Pairwise Section.Apart)
    (hends : ∀ t ∈ image.sections, t.address.toNat + t.mappedSize.toNat < 0x100000000) {offset : UInt32}
    (h : image.addressOf? offset = some a) : image.offsetOf a = .ok offset := by
  obtain ⟨s, hfound, rfl⟩ := Option.map_eq_some_iff.1 h
  have hs : s ∈ image.sections := List.mem_of_find?_eq_some hfound
  have hcontains := List.find?_some (p := fun t : Section => t.containsOffset offset) hfound
  obtain ⟨hge, hlt, _⟩ := Section.containsOffset_iff.1 hcontains
  have hend := hends s hs
  have hdistance : (offset - s.rawOffset).toNat = offset.toNat - s.rawOffset.toNat :=
    UInt32.toNat_sub_of_le _ _ (UInt32.le_iff_toNat_le.2 hge)
  have haddress : (s.address + (offset - s.rawOffset)).toNat
      = s.address.toNat + (offset.toNat - s.rawOffset.toNat) := by
    rw [UInt32.toNat_add, hdistance, Nat.mod_eq_of_lt (by omega)]
  have ha : s.containsAddress (s.address + (offset - s.rawOffset)) = true :=
    Section.containsAddress_iff.2 ⟨by omega, by omega, hend⟩
  rw [offsetOf_eq_ok (sectionAt?_eq_some hp hs ha), UInt32.add_comm s.address, UInt32.add_sub_cancel,
    UInt32.add_comm, UInt32.sub_add_cancel]

end Image

end BinaryPatching
