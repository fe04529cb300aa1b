import BinaryPatching.Proofs.Image.Mapping
import Mathlib.Data.List.Pairwise

/-!
# `BinaryPatching.Proofs.Image.Conversion` — conversion in words and in numbers

A section table converts addresses to file offsets and back. Counted as numbers, without a bound, the first section
whose mapped part holds the one gives the other. The conversion is done in words, and so it differs in two ways: a
section whose mapped part reaches the last word holds nothing, and what lies beyond the last word on the other side
comes out at the front again.

Both directions are one thing: `near` and `far` are the starts of a section on the side that is left and on the other.

## Contents
- `IsFirst`: the first section of a table with a property.
- `Section.Spans`, `ConvertsExactly`, `IsExact`: conversion in numbers.
- `Section.EndsBelow`, `Converts`: conversion in words.
- `Section.Fits`, `convertsExactly_iff_of_fits`, `fits_of_isExact`: when the two are the same.
- `Conversion`, `Image.conversions`: addresses and offsets of an image, with two images for which they are not exact.
-/

namespace BinaryPatching

/-! ## The first section -/

/-- **The first section** of a table with a property. -/
def IsFirst (P : Section → Prop) (sections : List Section) (s : Section) : Prop :=
  P s ∧ ∃ before after, sections = before ++ s :: after ∧ ∀ t ∈ before, ¬P t

namespace IsFirst

variable {P Q : Section → Prop} {sections : List Section} {s t : Section}

theorem mem (h : IsFirst P sections s) : s ∈ sections := by
  obtain ⟨_, before, after, rfl, _⟩ := h
  simp

/-- It is the one that a search finds. -/
theorem iff_find? {p : Section → Bool} (hp : ∀ t, p t = true ↔ P t) :
    IsFirst P sections s ↔ sections.find? p = some s := by
  have hnot : ∀ t, p t = false ↔ ¬P t := by
    intro t
    rw [← hp t, Bool.not_eq_true]
  simp [IsFirst, List.find?_eq_some_iff_append, hp, hnot]

/-- Properties that agree on the table have the same first section. -/
theorem congr (h : ∀ t ∈ sections, P t ↔ Q t) : IsFirst P sections s ↔ IsFirst Q sections s := by
  constructor
  · rintro ⟨hs, before, after, rfl, hbefore⟩
    refine ⟨(h s (by simp)).1 hs, before, after, rfl, ?_⟩
    intro t ht hQ
    exact hbefore t ht ((h t (by simp [ht])).2 hQ)
  · rintro ⟨hs, before, after, rfl, hbefore⟩
    refine ⟨(h s (by simp)).2 hs, before, after, rfl, ?_⟩
    intro t ht hP
    exact hbefore t ht ((h t (by simp [ht])).1 hP)

/-- There is only one first section. -/
theorem unique (hs : IsFirst P sections s) (ht : IsFirst P sections t) : s = t := by
  classical
  have hp : ∀ u, decide (P u) = true ↔ P u := fun u => decide_eq_true_iff
  exact Option.some.inj (((iff_find? hp).1 hs).symm.trans ((iff_find? hp).1 ht))

/-- Where no two sections have the property, one that has it is the first. -/
theorem of_pairwise (hapart : sections.Pairwise fun t u => ¬(P t ∧ P u)) (hmem : s ∈ sections) (hs : P s) :
    IsFirst P sections s := by
  obtain ⟨before, after, rfl⟩ := List.append_of_mem hmem
  refine ⟨hs, before, after, rfl, ?_⟩
  intro t ht hP
  exact (List.pairwise_append.1 hapart).2.2 t ht s List.mem_cons_self ⟨hP, hs⟩

end IsFirst

/-! ## Conversion in numbers -/

/-- **The mapped part of a section**, counted without a bound from one of its starts, holds a word. -/
def Section.Spans (s : Section) (start x : UInt32) : Prop :=
  start.toNat ≤ x.toNat ∧ x.toNat < start.toNat + s.mappedSize.toNat

/-- **Exact conversion.** The first section whose mapped part holds `x` on the near side has `y` as far from its start
on the far side. -/
def ConvertsExactly (near far : Section → UInt32) (sections : List Section) (x y : UInt32) : Prop :=
  ∃ s, IsFirst (fun t => t.Spans (near t) x) sections s ∧
    y.toNat = (far s).toNat + (x.toNat - (near s).toNat)

/-- **A way of converting is exact** if it gives what exact conversion gives, and nothing else. -/
def IsExact (near far : Section → UInt32) (sections : List Section) (gives : UInt32 → UInt32 → Prop) : Prop :=
  ∀ x y, gives x y ↔ ConvertsExactly near far sections x y

/-! ## Conversion in words -/

/-- The mapped part of a section, counted from one of its starts, ends before the last word. -/
def Section.EndsBelow (s : Section) (start : UInt32) : Prop := start.toNat + s.mappedSize.toNat < 0x100000000

/-- **Conversion in words.** Sections that reach the last word on the near side are passed over, and what lies beyond it
on the far side comes out at the front. -/
def Converts (near far : Section → UInt32) (sections : List Section) (x y : UInt32) : Prop :=
  ∃ s, IsFirst (fun t => t.Spans (near t) x ∧ t.EndsBelow (near t)) sections s ∧
    y.toNat = ((far s).toNat + (x.toNat - (near s).toNat)) % 0x100000000

theorem toNat_moved {near far x : UInt32} (h : near.toNat ≤ x.toNat) :
    (far + (x - near)).toNat = (far.toNat + (x.toNat - near.toNat)) % 0x100000000 := by
  rw [UInt32.toNat_add, UInt32.toNat_sub_of_le _ _ (UInt32.le_iff_toNat_le.2 h)]

/-- A search for the section that holds a word, and the word moved to the other side, are a conversion in words. -/
theorem map_find?_eq_some_iff {near far : Section → UInt32} {sections : List Section} {x y : UInt32}
    {p : Section → Bool} (hp : ∀ t, p t = true ↔ t.Spans (near t) x ∧ t.EndsBelow (near t)) :
    (sections.find? p).map (fun s => far s + (x - near s)) = some y ↔ Converts near far sections x y := by
  rw [Option.map_eq_some_iff]
  constructor
  · rintro ⟨s, hfound, rfl⟩
    have hfirst := (IsFirst.iff_find? hp).2 hfound
    exact ⟨s, hfirst, toNat_moved hfirst.1.1.1⟩
  · rintro ⟨s, hfirst, hy⟩
    refine ⟨s, (IsFirst.iff_find? hp).1 hfirst, ?_⟩
    apply UInt32.toNat_inj.1
    rw [hy, toNat_moved hfirst.1.1.1]

namespace Image

theorem offsetOf_eq_ok_iff_map {image : Image} {a o : UInt32} :
    image.offsetOf a = .ok o ↔
      (image.sections.find? (·.containsAddress a)).map (fun s => s.rawOffset + (a - s.address)) = some o := by
  unfold offsetOf sectionAt?
  cases image.sections.find? (·.containsAddress a) with
  | none => simp
  | some s => simp

/-- Addresses are converted in words. -/
theorem offsetOf_eq_ok_iff {image : Image} {a o : UInt32} :
    image.offsetOf a = .ok o ↔ Converts Section.address Section.rawOffset image.sections a o := by
  rw [offsetOf_eq_ok_iff_map]
  refine map_find?_eq_some_iff ?_
  intro t
  rw [Section.containsAddress_iff, Section.Spans, Section.EndsBelow, and_assoc]

/-- File offsets are converted in words. -/
theorem addressOf?_eq_some_iff {image : Image} {o a : UInt32} :
    image.addressOf? o = some a ↔ Converts Section.rawOffset Section.address image.sections o a := by
  refine map_find?_eq_some_iff ?_
  intro t
  rw [Section.containsOffset_iff, Section.Spans, Section.EndsBelow, and_assoc]

end Image

/-! ## When conversion is exact -/

/-- **A section that fits** maps nothing, or its mapped part ends before the last word on the near side and with it on
the far side. -/
def Section.Fits (s : Section) (near far : UInt32) : Prop :=
  s.mappedSize = 0 ∨ s.EndsBelow near ∧ far.toNat + s.mappedSize.toNat ≤ 0x100000000

/-- A section that holds a word and fits ends before the last word, and the word stays below it. -/
theorem Section.Fits.bounds {s : Section} {near far x : UInt32} (h : s.Fits near far) (hx : s.Spans near x) :
    s.EndsBelow near ∧ far.toNat + (x.toNat - near.toNat) < 0x100000000 := by
  unfold Spans at hx
  rcases h with hzero | ⟨hnear, hfar⟩
  · rw [hzero, UInt32.toNat_zero] at hx
    omega
  · exact ⟨hnear, by omega⟩

section

variable {near far : Section → UInt32} {sections : List Section}

/-- **Where all sections fit**, words and numbers come to the same, however the sections overlap. -/
theorem convertsExactly_iff_of_fits (h : ∀ s ∈ sections, s.Fits (near s) (far s)) (x y : UInt32) :
    Converts near far sections x y ↔ ConvertsExactly near far sections x y := by
  have hsame : ∀ t ∈ sections, t.Spans (near t) x ∧ t.EndsBelow (near t) ↔ t.Spans (near t) x := by
    intro t ht
    exact ⟨fun hx => hx.1, fun hx => ⟨hx, ((h t ht).bounds hx).1⟩⟩
  unfold Converts ConvertsExactly
  refine exists_congr fun s => ?_
  rw [IsFirst.congr hsame]
  refine and_congr_right fun hfirst => ?_
  have hlt := ((h s hfirst.mem).bounds hfirst.1).2
  rw [Nat.mod_eq_of_lt hlt]

/-- No word is held by two sections. -/
def SpansApart (near : Section → UInt32) (sections : List Section) : Prop :=
  ∀ x, sections.Pairwise fun s t => ¬(s.Spans (near s) x ∧ t.Spans (near t) x)

/-- **Where no two sections hold the same word**, words and numbers come to the same only if all sections fit. -/
theorem fits_of_isExact (hapart : SpansApart near sections)
    (h : IsExact near far sections (Converts near far sections)) : ∀ s ∈ sections, s.Fits (near s) (far s) := by
  intro s hs
  by_cases hzero : s.mappedSize = 0
  · exact .inl hzero
  have hpos : 0 < s.mappedSize.toNat := by
    have hne : s.mappedSize.toNat ≠ 0 := fun h0 => hzero (UInt32.toNat_inj.1 h0)
    omega
  have hfirst : ∀ x, s.Spans (near s) x → IsFirst (fun t => t.Spans (near t) x) sections s :=
    fun x hx => IsFirst.of_pairwise (hapart x) hs hx
  -- The first word shows that the section is not passed over.
  have hnear : s.EndsBelow (near s) := by
    have hx : s.Spans (near s) (near s) := ⟨Nat.le_refl _, by omega⟩
    have hexact : ConvertsExactly near far sections (near s) (far s) := ⟨s, hfirst _ hx, by omega⟩
    obtain ⟨t, ht, _⟩ := (h _ _).2 hexact
    have hts : t = s := (IsFirst.of_pairwise (hapart _) ht.mem ht.1.1).unique (hfirst _ hx)
    exact hts ▸ ht.1.2
  -- The last one shows that nothing comes out at the front.
  refine .inr ⟨hnear, ?_⟩
  have hlast : (near s + (s.mappedSize - 1)).toNat = (near s).toNat + (s.mappedSize.toNat - 1) := by
    have hone : (s.mappedSize - 1).toNat = s.mappedSize.toNat - 1 :=
      UInt32.toNat_sub_of_le _ _ (UInt32.le_iff_toNat_le.2 hpos)
    unfold Section.EndsBelow at hnear
    rw [UInt32.toNat_add, hone, Nat.mod_eq_of_lt (by omega)]
  have hx : s.Spans (near s) (near s + (s.mappedSize - 1)) := by
    unfold Section.Spans
    omega
  have hwords : Converts near far sections (near s + (s.mappedSize - 1)) (far s + (s.mappedSize - 1)) := by
    refine ⟨s, ?_, ?_⟩
    · obtain ⟨_, before, after, hsplit, hbefore⟩ := hfirst _ hx
      exact ⟨⟨hx, hnear⟩, before, after, hsplit, fun t ht hP => hbefore t ht hP.1⟩
    · rw [← toNat_moved hx.1, UInt32.add_comm (near s), UInt32.add_sub_cancel]
  obtain ⟨t, ht, hy⟩ := (h _ _).1 hwords
  have hts : t = s := ht.unique (hfirst _ hx)
  subst hts
  have hbound := (far t + (t.mappedSize - 1)).toNat_lt
  omega

/-- **What is known of a way of converting** words from the near side of a section table to the far side. -/
structure Conversion (near far : Section → UInt32) (sections : List Section) (gives : UInt32 → UInt32 → Prop) :
    Prop where
  /-- It is done in words. -/
  words : ∀ x y, gives x y ↔ Converts near far sections x y
  /-- It is exact where all sections fit. -/
  isExact_of_fits : (∀ s ∈ sections, s.Fits (near s) (far s)) → IsExact near far sections gives
  /-- Where no two sections hold the same word it is exact only there. -/
  fits_of_isExact : SpansApart near sections → IsExact near far sections gives →
    ∀ s ∈ sections, s.Fits (near s) (far s)

theorem conversion_of_words {gives : UInt32 → UInt32 → Prop}
    (h : ∀ x y, gives x y ↔ Converts near far sections x y) : Conversion near far sections gives where
  words := h
  isExact_of_fits hfits x y := (h x y).trans (convertsExactly_iff_of_fits hfits x y)
  fits_of_isExact hapart hexact := fits_of_isExact hapart fun x y => (h x y).symm.trans (hexact x y)

end

namespace Image

/-- **Addresses and file offsets.** Either is converted to the other in words: sections that reach the last word are
passed over, and what lies beyond the last word of the other side comes out at the front. -/
theorem conversions (image : Image) :
    Conversion Section.address Section.rawOffset image.sections (fun a o => image.offsetOf a = .ok o) ∧
      Conversion Section.rawOffset Section.address image.sections (fun o a => image.addressOf? o = some a) :=
  ⟨conversion_of_words fun _ _ => offsetOf_eq_ok_iff, conversion_of_words fun _ _ => addressOf?_eq_some_iff⟩

/-- An image whose only section maps its sixteen bytes to the last addresses. -/
def lastAddresses : Image :=
  (blank (List.replicate 16 0) 0xFFFFFFF0).withSection (.new ".text" 0xFFFFFFF0 0 16 Section.codeFlag)

/-- An image whose only section claims to lie at the end of the largest file. -/
def beyondOffsets : Image :=
  (blank (List.replicate 16 0) 0x1000).withSection (.new ".text" 0x1000 0xFFFFFFF8 16 Section.codeFlag)

/-- **Conversion is not exact** in either way: no offset is given for one of the last addresses, and an offset at the
front is given for an address that lies beyond all of them. -/
theorem exists_not_isExact :
    ¬(∀ image : Image,
        IsExact Section.address Section.rawOffset image.sections (fun a o => image.offsetOf a = .ok o) ∧
          IsExact Section.rawOffset Section.address image.sections (fun o a => image.addressOf? o = some a))
      ∧ lastAddresses.offsetOf 0xFFFFFFF4 = .error (.addressNotMapped 0xFFFFFFF4)
      ∧ ConvertsExactly Section.address Section.rawOffset lastAddresses.sections 0xFFFFFFF4 4
      ∧ beyondOffsets.offsetOf 0x100C = .ok 4
      ∧ ¬ConvertsExactly Section.address Section.rawOffset beyondOffsets.sections 0x100C 4 := by
  have hnone : lastAddresses.offsetOf 0xFFFFFFF4 = .error (.addressNotMapped 0xFFFFFFF4) := rfl
  have hexact : ConvertsExactly Section.address Section.rawOffset lastAddresses.sections 0xFFFFFFF4 4 :=
    ⟨.new ".text" 0xFFFFFFF0 0 16 Section.codeFlag, ⟨⟨by decide, by decide⟩, [], [], rfl, by simp⟩, by decide⟩
  refine ⟨fun h => ?_, hnone, hexact, rfl, ?_⟩
  · have hok := ((h lastAddresses).1 _ _).2 hexact
    dsimp only at hok
    rw [hnone] at hok
    cases hok
  · rintro ⟨s, hfirst, hy⟩
    have hs : s = .new ".text" 0x1000 0xFFFFFFF8 16 Section.codeFlag := List.mem_singleton.1 hfirst.mem
    subst hs
    exact absurd hy (by decide)

end Image

end BinaryPatching
