import BinaryPatching.Proofs.Code.Exploration
import BinaryPatching.Proofs.Thumb.Halves
import Mathlib.Data.List.Chain

/-!
# `BinaryPatching.Proofs.Code.Adjacency` — loads of two halves that are not joined

Two neighbours that load the halves of a word into one register are joined when one run decodes them both. A run stops
at an address that is known already, and at the end of its section. So two halves stay apart only if the second was
entered before the first, or if the section of the first ends between them.

## Contents
- `isChain_joinPairs`, `Tiles.next`: neighbours in a run, none of which make a pair.
- `EntryOf.halfLoad`, `HalfLoad.loadsHalf`, `HalfLoad.entered_eq`: the entries that load half of a word.
- `Reached`, `Origin`, `exists_origin`: the states of a search, and the run from which an entry comes.
- `EnteredBefore`, `EndsBehind`, `halves_apart`: two halves that stay apart.
- `Coalesced`, `not_coalesced`: two images with such halves.
-/

namespace BinaryPatching

open Text Thumb

/-! ## Neighbours in a run -/

theorem mnemonic_joinHalves? {first second i : Instruction} (h : joinHalves? first second = some i) :
    i.mnemonic = "mov" := by
  obtain ⟨register, low, high, _, rfl⟩ := joinHalves?_eq_some_iff.1 h
  rfl

/-- A load of a whole word makes a pair with nothing. -/
theorem joinHalves?_of_mov {i : Instruction} (h : i.mnemonic = "mov") (j : Instruction) :
    joinHalves? i j = none ∧ joinHalves? j i = none := by
  have hne : ∀ {first second : Instruction} {register : String} {low high : UInt32},
      IsPair first second register low high → first.mnemonic ≠ "mov" ∧ second.mnemonic ≠ "mov" := by
    rintro first second register low high ⟨_, ⟨h1, h2⟩ | ⟨h1, h2⟩⟩
    · rw [h1.mnemonic_eq, h2.mnemonic_eq]
      decide
    · rw [h1.mnemonic_eq, h2.mnemonic_eq]
      decide
  constructor
  · refine Option.eq_none_iff_forall_ne_some.2 fun k hk => ?_
    obtain ⟨register, low, high, hpair, _⟩ := joinHalves?_eq_some_iff.1 hk
    exact (hne hpair).1 h
  · refine Option.eq_none_iff_forall_ne_some.2 fun k hk => ?_
    obtain ⟨register, low, high, hpair, _⟩ := joinHalves?_eq_some_iff.1 hk
    exact (hne hpair).2 h

/-- The first entry of a run is its first instruction, or a load of a whole word. -/
theorem head?_joinPairs {i j : Instruction} {rest : List Instruction} (h : (joinPairs (i :: rest)).head? = some j) :
    j = i ∨ j.mnemonic = "mov" := by
  cases rest with
  | nil =>
    rw [joinPairs] at h
    · exact .inl (Option.some.inj h).symm
    · intro first second more heq
      cases heq
  | cons k rest =>
    rw [joinPairs] at h
    split at h
    · rename_i joined hjoin
      cases h
      exact .inr (mnemonic_joinHalves? hjoin)
    · cases h
      exact .inl rfl

/-- **No two neighbours are left to be joined** when the pairs of a run have been. -/
theorem isChain_joinPairs (is : List Instruction) :
    (joinPairs is).IsChain fun i j => joinHalves? i j = none := by
  fun_induction joinPairs is with
  | case1 first second rest joined h ih =>
    -- Two were joined, and the result makes a pair with nothing.
    exact ih.cons fun j _ => (joinHalves?_of_mov (mnemonic_joinHalves? h) j).1
  | case2 first second rest h ih =>
    -- The second may have been joined with the third meanwhile.
    refine ih.cons fun j hj => ?_
    rcases head?_joinPairs hj with rfl | hmov
    · exact h
    · exact (joinHalves?_of_mov hmov first).2
  | case3 is hshort =>
    rcases is with _ | ⟨i, _ | ⟨j, rest⟩⟩
    · exact .nil
    · exact .singleton i
    · exact absurd rfl (hshort i j rest)

/-- **The next instruction of a stretch** stands where the one before ends, unless the stretch ends there. -/
theorem Thumb.Tiles.next {R : Instruction → Instruction → Prop} {a b : UInt32} {is : List Instruction}
    (h : Tiles a is b) (hchain : is.IsChain R) {i : Instruction} (hi : i ∈ is) :
    i.stop = b ∨ ∃ j ∈ is, j.address = i.stop ∧ R i j := by
  induction is generalizing a with
  | nil => cases hi
  | cons k rest ih =>
    obtain ⟨_, hrest⟩ := h
    rcases List.mem_cons.1 hi with rfl | hi
    · cases rest with
      | nil => exact .inl hrest
      | cons j rest => exact .inr ⟨j, by simp, hrest.1, hchain.rel_head? rfl⟩
    · rcases ih hrest hchain.tail hi with hend | ⟨j, hj, haddress, hR⟩
      · exact .inl hend
      · exact .inr ⟨j, List.mem_cons_of_mem _ hj, haddress, hR⟩

/-! ## Entries that load half of a word -/

/-- An entry with the mnemonic of a load of half a word is one. -/
theorem EntryOf.halfLoad {code : Bytes} {base : UInt32} {i : Instruction} (h : EntryOf code base i)
    (hhalf : isHalf i.mnemonic = true) : ∃ r v, HalfLoad i r v := by
  cases h with
  | single hi => exact halfLoad_withPlainRegisters hi.2 hhalf
  | pair hfirst hsecond hpair => cases hhalf

namespace Thumb.HalfLoad

variable {i : Instruction} {r : Register} {v : UInt32}

theorem not_mem_plainName (r : Register) : ',' ∉ r.plainName := fun h => (plain_plainName r _ h).1 rfl

/-- What a load of half a word is joined by. -/
theorem loadsHalf (h : HalfLoad i r v) : LoadsHalf i.mnemonic i (String.ofList r.plainName) v := by
  have hlt := v.toNat_lt
  have hbefore : ∀ c ∈ r.plainName, (c != ',') = true := fun c hc => bne_iff_ne.2 (plain_plainName r c hc).1
  have hsplit : splitOnce ',' i.operands.toList
      = some (r.plainName, ' ' :: '#' :: '0' :: 'x' :: Nat.toDigits 16 v.toNat) := by
    rw [splitOnce, h.operands_eq, List.dropWhile_append_of_pos hbefore, List.takeWhile_append_of_pos hbefore,
      List.dropWhile_cons_of_neg (by decide), List.takeWhile_cons_of_neg (by decide), List.append_nil]
  have htrim : trim (' ' :: '#' :: '0' :: 'x' :: Nat.toDigits 16 v.toNat)
      = '#' :: '0' :: 'x' :: Nat.toDigits 16 v.toNat := by
    have hblank : ∀ c ∈ '#' :: '0' :: 'x' :: Nat.toDigits 16 v.toNat, isBlank c = false := by
      intro c hc
      rcases List.mem_cons.1 hc with rfl | hc
      · decide
      · exact isBlank_hexLiteral _ c hc
    exact trim_of_no_blank hblank
  have hname : trim r.plainName = r.plainName := trim_of_no_blank fun c hc => (plain_plainName r c hc).2.2
  refine ⟨rfl, ?_⟩
  unfold registerAndValue?
  simp only [hsplit, htrim]
  rw [parseNumber_toDigits (by omega), Option.map_some, lowWord_toNat, onChars, String.toList_ofList, hname]

/-- A load of half a word loads nothing from beside the code. -/
theorem entered_eq (h : HalfLoad i r v) (image : Image) (s : Section) : Exploration.entered image s i = i := by
  have hnone : withLiteral? image s i = none := by
    refine withLiteral?_eq_none_iff.2 ?_
    rintro ⟨reference, word, hload⟩
    have href := hload.reference.1
    rw [h.operands_eq] at href
    have hclosed : ']' ∈ ' ' :: '#' :: '0' :: 'x' :: Nat.toDigits 16 v.toNat := href.closed (not_mem_plainName r)
    rcases List.mem_cons.1 hclosed with h | h
    · cases h
    rcases List.mem_cons.1 h with h | h
    · cases h
    · exact not_mem_hexLiteral (by decide) (by decide) _ h
  rw [Exploration.entered, hnone, Option.getD_none]

end Thumb.HalfLoad

/-! ## The states of a search -/

namespace Exploration

/-- **The states of a search**, from the one in which the first addresses have been met. -/
inductive Reached (image : Image) : Exploration → Prop where
  /-- Nothing has been taken up. -/
  | seeds : Reached image ((seeds image).foldl meet start)
  /-- One more address has been taken up. -/
  | visit {e : Exploration} {a : UInt32} (h : Reached image e) (ha : e.met[e.done]? = some a) :
      Reached image { e.visit image a with done := e.done + 1 }

theorem Reached.run {image : Image} {e : Exploration} (h : Reached image e) : Reached image (e.run image) := by
  fun_induction Exploration.run image e with
  | case1 e hnone => exact h
  | case2 e a ha ih => exact ih (h.visit ha)

/-- The last state is one of them. -/
theorem reached_explore (image : Image) : Reached image (explore image) := Reached.seeds.run

/-- **The run from which an entry comes**: it was followed from an unknown address of a section of code, in some state
    of the search, and the entry is one of its entries. -/
structure Origin (image : Image) (e : Exploration) (s : Section) (a : UInt32) (j : Instruction) : Prop where
  /-- The state is one of the search. -/
  reached : Reached image e
  /-- The run begins at an unknown address. -/
  unknown : e.knows a = false
  /-- The section is the one found for it. -/
  section_eq : image.sectionAt? a = some s
  /-- It is one of code. -/
  isCode : s.isCode = true
  /-- The entry is one of the run. -/
  entry : ∃ i ∈ (e.runFrom image s a).entries, j = entered image s i

theorem code_foldl_meet (l : List UInt32) (e : Exploration) : (l.foldl meet e).code = e.code := by
  induction l generalizing e with
  | nil => rfl
  | cons a l ih => rw [List.foldl_cons, ih, code_meet]

/-- Taking up an address leaves the code as it is, unless a run is followed from there. -/
theorem visit_cases (image : Image) (e : Exploration) (a : UInt32) :
    (e.visit image a).code = e.code ∨ ∃ s, e.knows a = false ∧ image.sectionAt? a = some s ∧ s.isCode = true ∧
      e.visit image a = e.follow image s a := by
  unfold Exploration.visit
  split
  · exact .inl rfl
  · rename_i hunknown
    split
    · rename_i s hs
      split
      · rename_i hcode
        exact .inr ⟨s, Bool.eq_false_iff.2 hunknown, hs, hcode, rfl⟩
      · exact .inl rfl
    · exact .inl rfl

/-- **Every entry comes from a run**. What was known before the run is still there, and so are the entries of the
    run. -/
theorem exists_origin {image : Image} {e : Exploration} (h : Reached image e) {j : Instruction}
    (hj : j ∈ e.code.instructions) :
    ∃ f s a, Origin image f s a j ∧ (∀ k ∈ f.code.instructions, k ∈ e.code.instructions) ∧
      ∀ k ∈ (f.runFrom image s a).entries, entered image s k ∈ e.code.instructions := by
  induction h with
  | seeds =>
    rw [code_foldl_meet] at hj
    cases hj
  | @visit e a hreached ha ih =>
    dsimp only at hj ⊢
    rcases visit_cases image e a with hsame | ⟨s, hunknown, hs, hcode, hfollow⟩
    · rw [hsame] at hj ⊢
      exact ih hj
    · -- A run was followed: the entry is one of it, or it was there before.
      rw [hfollow] at hj ⊢
      have hadds := adds_follow image (Image.containsAddress_of_sectionAt? hs) hunknown
      have hgrows := hadds.grows.code
      rcases (hadds.code j).1 hj with hold | hnew
      · obtain ⟨f, t, b, horigin, hbefore, hall⟩ := ih hold
        exact ⟨f, t, b, horigin, fun k hk => hgrows k (hbefore k hk), fun k hk => hgrows _ (hall k hk)⟩
      · exact ⟨e, s, a, ⟨hreached, hunknown, hs, hcode, hnew⟩, hgrows, fun k hk => (hadds.code _).2 (.inr ⟨k, hk, rfl⟩)⟩

end Exploration

open Exploration

/-! ## Two halves that stay apart -/

/-- **One entry was made before another**: in some state of the search the one is there, and the other is not. -/
def EnteredBefore (image : Image) (i j : Instruction) : Prop :=
  ∃ e, Reached image e ∧ i ∈ e.code.instructions ∧ j ∉ e.code.instructions

/-- **A section that ends behind an entry**: it holds the bytes of the entry, but nothing is decoded from those that
    follow. -/
def EndsBehind (image : Image) (i : Instruction) : Prop :=
  ∃ s ∈ image.sections, s.isCode = true ∧ s.containsAddress i.address = true ∧
    Bytes.slice? (image.sectionBytes s) (i.address.toNat - s.address.toNat) i.bytes.length = some i.bytes ∧
    decode ((image.sectionBytes s).drop (i.stop.toNat - s.address.toNat)) i.stop = none

/-- **Two neighbours that load the halves of a word**, in either order, into one register. -/
structure AdjacentHalves (i j : Instruction) : Prop where
  /-- One begins where the other ends. -/
  stop_eq : i.stop = j.address
  /-- They load different halves. -/
  mnemonics : (i.mnemonic = "movw" ∧ j.mnemonic = "movt") ∨ (i.mnemonic = "movt" ∧ j.mnemonic = "movw")
  /-- They write the same register. -/
  register_eq : i.writtenRegister = j.writtenRegister

theorem AdjacentHalves.isHalf {i j : Instruction} (h : AdjacentHalves i j) :
    isHalf i.mnemonic = true ∧ isHalf j.mnemonic = true := by
  rcases h.mnemonics with ⟨hi, hj⟩ | ⟨hi, hj⟩
  · rw [hi, hj]
    decide
  · rw [hi, hj]
    decide

/-- Two neighbours that load the halves of a word make a pair. -/
theorem AdjacentHalves.joinHalves?_ne_none {i j : Instruction} (h : AdjacentHalves i j) {r s : Register} {v w : UInt32}
    (hi : HalfLoad i r v) (hj : HalfLoad j s w) : joinHalves? i j ≠ none := by
  have hregister : String.ofList r.plainName = String.ofList s.plainName := by
    have heq := h.register_eq
    rw [hi.writtenRegister_eq, hj.writtenRegister_eq] at heq
    exact Option.some.inj heq
  have hfirst := hi.loadsHalf
  have hsecond := hj.loadsHalf
  rw [← hregister] at hsecond
  refine Option.ne_none_iff_exists'.2 ?_
  rcases h.mnemonics with ⟨hm, hm'⟩ | ⟨hm, hm'⟩
  · rw [hm] at hfirst
    rw [hm'] at hsecond
    exact ⟨_, joinHalves?_eq_some_iff.2 ⟨_, _, _, ⟨h.stop_eq, .inl ⟨hfirst, hsecond⟩⟩, rfl⟩⟩
  · rw [hm] at hfirst
    rw [hm'] at hsecond
    exact ⟨_, joinHalves?_eq_some_iff.2 ⟨_, _, _, ⟨h.stop_eq, .inr ⟨hfirst, hsecond⟩⟩, rfl⟩⟩

/-- An entry at a known address was made before every entry of a run that stops there. -/
theorem enteredBefore_of_knows {image : Image} {e : Exploration} {s : Section} {a : UInt32} {i j : Instruction}
    (hi : Origin image e s a i) (hj : j ∈ image.code.instructions) (hknows : e.knows j.address = true)
    (hgrows : ∀ k ∈ e.code.instructions, k ∈ image.code.instructions) : EnteredBefore image j i := by
  refine ⟨e, hi.reached, ?_, fun hmem => ?_⟩
  · rcases knows_iff.1 hknows with hcontains | hhalf
    · obtain ⟨k, hk, haddress⟩ := CodeMap.contains_iff.1 hcontains
      rwa [← CodeMap.eq_of_address_eq (hgrows k hk) hj haddress]
    · -- The second half of a pair is no entry of its own.
      obtain ⟨k, hk, haddress, hlen⟩ := isSecondHalf_iff.1 hhalf
      have halone : image.code.contains (k.address + 4) = false :=
        (explored_explore image).1.alone k (hgrows k hk) hlen
      rw [haddress, UInt32.sub_add_cancel, CodeMap.contains_iff.2 ⟨j, hj, rfl⟩] at halone
      cases halone
  · obtain ⟨k, hk, rfl⟩ := hi.entry
    have ha := Image.containsAddress_of_sectionAt? hi.section_eq
    have hfresh := (known_eq_false_of_mem (spans_runFrom image ha e) hi.unknown hk).1
    exact (not_knows hfresh hmem).1 (address_entered image s k)

/-- The mnemonic of an entry stays when it is kept. -/
theorem mnemonic_entered (image : Image) (s : Section) (i : Instruction) :
    (entered image s i).mnemonic = i.mnemonic := by
  unfold entered
  cases h : withLiteral? image s i with
  | none => rfl
  | some j => exact (withLiteral?_frame h).2.2

/-- **Two halves that stay apart.** If two entries load the halves of a word into one register and lie next to each
    other, then the second was made before the first, or the section of the first ends between them. -/
theorem halves_apart {image : Image} {i j : Instruction} (hi : i ∈ image.code.instructions)
    (hj : j ∈ image.code.instructions) (h : AdjacentHalves i j) : EnteredBefore image j i ∨ EndsBehind image i := by
  obtain ⟨e, s, a, horigin, hgrows, hall⟩ := exists_origin (reached_explore image) hi
  have ha := Image.containsAddress_of_sectionAt? horigin.section_eq
  have hspans := spans_runFrom image ha e
  obtain ⟨k, hk, hik⟩ := horigin.entry
  -- A load of half a word is kept as it was decoded.
  have hmnemonic : isHalf k.mnemonic = true := by
    rw [← mnemonic_entered image s k, ← hik]
    exact h.isHalf.1
  obtain ⟨r, v, hhalf⟩ := (entryOf_runFrom ha hk).halfLoad hmnemonic
  rw [hhalf.entered_eq] at hik
  subst hik
  rcases (tiles_entries hspans).next (isChain_joinPairs _) hk with hend | ⟨l, hl, haddress, hnot⟩
  · -- The first half is the last entry of its run.
    rcases hspans.ended with ⟨_, hknown⟩ | hnone
    · rw [← hend, h.stop_eq] at hknown
      exact .inl (enteredBefore_of_knows horigin hj hknown hgrows)
    · have hlt := image.sectionBytes_lt ha
      have hentry := entryOf_runFrom ha hk
      have hbounds := hentry.bounds hlt
      rw [← hend] at hnone
      have hpos := (hentry.fits hlt).1
      refine .inr ⟨s, Image.mem_of_sectionAt? horigin.section_eq, horigin.isCode, ?_, hentry.slice hlt, hnone⟩
      exact image.containsAddress_of_lt ha hbounds.1 (by omega)
  · -- The entry behind it is the second half, and the two would have been joined.
    have hsame : entered image s l = j := by
      refine CodeMap.eq_of_address_eq (hall l hl) hj ?_
      rw [address_entered, haddress, h.stop_eq]
    have hmnemonic' : isHalf l.mnemonic = true := by
      rw [← mnemonic_entered image s l, hsame]
      exact h.isHalf.2
    obtain ⟨r', w, hhalf'⟩ := (entryOf_runFrom ha hl).halfLoad hmnemonic'
    rw [hhalf'.entered_eq] at hsame
    subst hsame
    exact absurd hnot (h.joinHalves?_ne_none hhalf hhalf')

/-- The loads of the two halves of a word into one register, and a return. -/
def halvesCode : Bytes := [0x46, 0xF2, 0x10, 0x03, 0xC1, 0xF2, 0x00, 0x03, 0x70, 0x47, 0x00, 0xDE]

/-- The load of the low half. -/
def lowHalf : Instruction := ⟨0x1000, [0x46, 0xF2, 0x10, 0x03], "movw", "r3, #0x6010"⟩

/-- The load of the high half. -/
def highHalf : Instruction := ⟨0x1004, [0xC1, 0xF2, 0x00, 0x03], "movt", "r3, #0x1000"⟩

theorem adjacentHalves_low_high : AdjacentHalves lowHalf highHalf :=
  ⟨by decide, .inl ⟨rfl, rfl⟩, by decide +kernel⟩

/-- An image that is entered at the second half, and whose one symbol is the first. -/
def enteredBetweenImage : Image :=
  { Image.blank halvesCode 0x1000 with
    entry := 0x1004
    sections := [.new ".text" 0x1000 0 12 Section.codeFlag]
    exports := [⟨"Start", 0x1000⟩] }

/-- An image with a section for the first half, and another one for what follows. -/
def dividedImage : Image :=
  { Image.blank halvesCode 0x1000 with
    sections := [.new ".text" 0x1000 0 4 Section.codeFlag, .new ".more" 0x1004 4 8 Section.codeFlag]
    exports := [⟨"More", 0x1004⟩] }

theorem halves_apart_enteredBetween :
    lowHalf ∈ enteredBetweenImage.code.instructions ∧ highHalf ∈ enteredBetweenImage.code.instructions ∧
      AdjacentHalves lowHalf highHalf ∧
        (EnteredBefore enteredBetweenImage highHalf lowHalf ∨ EndsBehind enteredBetweenImage lowHalf) := by
  have hlow : lowHalf ∈ enteredBetweenImage.code.instructions := by decide +kernel
  have hhigh : highHalf ∈ enteredBetweenImage.code.instructions := by decide +kernel
  exact ⟨hlow, hhigh, adjacentHalves_low_high, halves_apart hlow hhigh adjacentHalves_low_high⟩

/-- **Joining without exception**: no two neighbours among the entries load the halves of a word into one register. -/
def Coalesced (image : Image) : Prop :=
  ∀ i ∈ image.code.instructions, ∀ j ∈ image.code.instructions, ¬AdjacentHalves i j

/-- **Two images in which halves stay apart**: one that is entered between them, and one whose sections divide them. -/
theorem not_coalesced : ¬Coalesced enteredBetweenImage ∧ ¬Coalesced dividedImage := by
  constructor
  · intro h
    exact h lowHalf (by decide +kernel) highHalf (by decide +kernel) adjacentHalves_low_high
  · intro h
    exact h lowHalf (by decide +kernel) highHalf (by decide +kernel) adjacentHalves_low_high

end BinaryPatching
