import BinaryPatching.Proofs.Code.Soundness

/-!
# `BinaryPatching.Proofs.Code.Closure` — where branches lead

The code of an image contains the targets of its branches, as far as they are code. Only a target that lies in the run
of its own branch is not followed, so that one may lie behind the beginning of an instruction.

## Contents
- `SecondHalf`: the second half of a pair.
- `branch_closed`: where the target of a branch is found.
- `BranchClosed`, `not_branchClosed`: two images in which a target is not followed.
-/

namespace BinaryPatching

open Thumb Exploration

/-- **The second half of a pair** that is entered as one instruction. -/
def SecondHalf (code : CodeMap) (u : UInt32) : Prop := ∃ i, code.get? (u - 4) = some i ∧ ShowsPair code i

/-- What a search knows at its end is an entry or the second half of a pair. -/
theorem secondHalf_of_knows {image : Image} {u : UInt32} (h : (explore image).knows u = true) :
    image.code.contains u = true ∨ SecondHalf image.code u := by
  rcases knows_iff.1 h with hcontains | hhalf
  · exact .inl hcontains
  · obtain ⟨i, hi, haddress, hlen⟩ := isSecondHalf_iff.1 hhalf
    exact .inr ⟨i, CodeMap.get?_eq_some_iff.2 ⟨hi, haddress⟩, showsPair_of_length hi hlen⟩

/-- An address that was met is known at the end when an instruction is decoded there. -/
theorem knows_of_mem_met {image : Image} {s : Section} {u : UInt32} {j : Instruction} (hu : u ∈ (explore image).met)
    (hs : image.sectionAt? u = some s) (hcode : s.isCode = true)
    (hj : decode ((image.sectionBytes s).drop (u.toNat - s.address.toNat)) u = some j) :
    (explore image).knows u = true := by
  obtain ⟨hexplored, hdone⟩ := explored_explore image
  obtain ⟨n, hn⟩ := List.mem_iff_getElem?.1 hu
  have hlt := (List.getElem?_eq_some_iff.1 hn).1
  rcases hexplored.settled n u (by omega) hn with hknows | hnone
  · exact hknows
  · rw [hnone s hs hcode] at hj
    cases hj

/-- **The target of a branch**, rounded down, is an entry or the second half of a pair, when the section found for it is
    one of code and an instruction is decoded from the bytes of that section. Otherwise it belongs to the same gap-free
    stretch of entries as the branch and lies behind the beginning of an entry there. -/
theorem branch_closed {image : Image} {i : Instruction} (hi : i ∈ image.code.instructions) {t : UInt32}
    (ht : i.branchTarget = some t) {s : Section} (hs : image.sectionAt? (evenPart t) = some s)
    (hcode : s.isCode = true) {j : Instruction}
    (hj : decode ((image.sectionBytes s).drop ((evenPart t).toNat - s.address.toNat)) (evenPart t) = some j) :
    image.code.contains (evenPart t) = true ∨ SecondHalf image.code (evenPart t) ∨
      Overlapped image.code i (evenPart t) := by
  rcases (explored_explore image).1.followed i hi t ht with hmet | hknows | hover
  · rcases secondHalf_of_knows (knows_of_mem_met hmet hs hcode hj) with hcontains | hhalf
    · exact .inl hcontains
    · exact .inr (.inl hhalf)
  · rcases secondHalf_of_knows hknows with hcontains | hhalf
    · exact .inl hcontains
    · exact .inr (.inl hhalf)
  · exact .inr (.inr hover)

/-- An image whose one section holds a branch into the middle of the wide instruction behind it. -/
def skippingImage : Image :=
  { Image.blank [0x00, 0xE0, 0x40, 0xF2, 0x70, 0x47, 0x00, 0xDE] 0x1000 with
    sections := [.new ".text" 0x1000 0 8 Section.codeFlag] }

theorem branch_closed_skipping :
    ⟨0x1000, [0x00, 0xE0], "b", "#0x1004"⟩ ∈ skippingImage.code.instructions ∧
      (skippingImage.code.contains (evenPart 0x1004) = true ∨ SecondHalf skippingImage.code (evenPart 0x1004) ∨
        Overlapped skippingImage.code ⟨0x1000, [0x00, 0xE0], "b", "#0x1004"⟩ (evenPart 0x1004)) := by
  refine ⟨by decide +kernel, ?_⟩
  exact branch_closed (t := 0x1004) (s := .new ".text" 0x1000 0 8 Section.codeFlag)
    (j := ⟨0x1004, [0x70, 0x47], "bx", "lr"⟩) (by decide +kernel) (by decide +kernel) (by decide +kernel)
    (by decide +kernel) (by decide +kernel)

/-! ## Targets that are not followed -/

/-- **Closure without exception**: the target of every branch is an entry or the second half of a pair, when it lies in
    some section of code from whose bytes an instruction is decoded there. -/
def BranchClosed (image : Image) : Prop :=
  ∀ i ∈ image.code.instructions, ∀ t, i.branchTarget = some t → ∀ s ∈ image.sections, s.isCode = true →
    s.containsAddress (evenPart t) = true → ∀ j,
      decode ((image.sectionBytes s).drop ((evenPart t).toNat - s.address.toNat)) (evenPart t) = some j →
        image.code.contains (evenPart t) = true ∨ SecondHalf image.code (evenPart t)

/-- An image with the target of a branch in two sections, the first of which is one of data. -/
def shadowingImage : Image :=
  { Image.blank [0x00, 0xE0, 0x00, 0xDE, 0x70, 0x47, 0x00, 0xDE] 0x1000 with
    sections := [.new ".data" 0x1004 4 4 Section.dataFlag, .new ".text" 0x1000 0 8 Section.codeFlag] }

/-- A single branch refutes closure: its target is no entry, and the entry before it does not take eight bytes. -/
theorem not_branchClosed_of {image : Image} {i j p : Instruction} {t : UInt32} {s : Section}
    (hi : i ∈ image.code.instructions) (ht : i.branchTarget = some t) (hs : s ∈ image.sections)
    (hcode : s.isCode = true) (ha : s.containsAddress (evenPart t) = true)
    (hj : decode ((image.sectionBytes s).drop ((evenPart t).toNat - s.address.toNat)) (evenPart t) = some j)
    (hno : image.code.contains (evenPart t) = false) (hp : image.code.get? (evenPart t - 4) = some p)
    (hlen : p.bytes.length ≠ 8) : ¬BranchClosed image := by
  intro hclosed
  rcases hclosed i hi t ht s hs hcode ha j hj with hcontains | ⟨q, hq, hpair⟩
  · rw [hno] at hcontains
    cases hcontains
  · rw [hp] at hq
    cases hq
    exact hlen hpair.length_bytes

/-- **Two targets that are not followed**: one inside the run of its branch, and one for which a section of data is
    found before that of the code. -/
theorem not_branchClosed : ¬BranchClosed skippingImage ∧ ¬BranchClosed shadowingImage := by
  constructor
  · exact not_branchClosed_of (i := ⟨0x1000, [0x00, 0xE0], "b", "#0x1004"⟩) (t := 0x1004)
      (s := .new ".text" 0x1000 0 8 Section.codeFlag) (j := ⟨0x1004, [0x70, 0x47], "bx", "lr"⟩)
      (p := ⟨0x1000, [0x00, 0xE0], "b", "#0x1004"⟩) (by decide +kernel) (by decide +kernel) (by decide +kernel)
      (by decide) (by decide) (by decide +kernel) (by decide +kernel) (by decide +kernel) (by decide)
  · exact not_branchClosed_of (i := ⟨0x1000, [0x00, 0xE0], "b", "#0x1004"⟩) (t := 0x1004)
      (s := .new ".text" 0x1000 0 8 Section.codeFlag) (j := ⟨0x1004, [0x70, 0x47], "bx", "lr"⟩)
      (p := ⟨0x1000, [0x00, 0xE0], "b", "#0x1004"⟩) (by decide +kernel) (by decide +kernel) (by decide +kernel)
      (by decide) (by decide) (by decide +kernel) (by decide +kernel) (by decide +kernel) (by decide)

end BinaryPatching
