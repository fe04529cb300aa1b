import BinaryPatching.Proofs.Image.Mapping
import BinaryPatching.Proofs.Pattern.Occurrences
import BinaryPatching.Script.Execution

/-!
# `BinaryPatching.Proofs.Script.ByteSearches` — a search for bytes carried on to its end

A first search takes the first hit in the file, and a next one the first hit behind the cursor. The cursor is an
address, so every search goes from an offset to an address and back. Where the sections are apart nothing gets lost on
the way: searching until nothing is found visits every hit that has an address, once and in order. A file may however be
larger than offsets go, and positions that are cut to an offset with an address keep the search from ending.

## Contents
- `OpenFile.HitAt`, `OpenFile.FarHit`: what is to be found, and what is found by mistake.
- `firstMapped_cases`: what a single search finds.
- `Session.Visits`: a search carried on until nothing is found.
- `Session.exists_visits`, `Session.not_visits_of_farHit`: when it comes to an end, and what it has visited then.
- `Session.visits_hits`: all hits are visited if and only if none lies too far behind.
- `Session.not_visits_farSession`: a search that never ends.
-/

namespace BinaryPatching

/-! ## A single search -/

/-- **A hit**: the pattern occurs at a file offset that has an address. -/
def OpenFile.HitAt (f : OpenFile) (p : BytePattern) (offset : UInt32) : Prop :=
  p.OccursAt f.data offset.toNat ∧ ∃ place, f.image.addressOf? offset = some place

/-- **A hit too far behind**: the pattern occurs at a position that is no offset any more, and the offset to which the
position is cut has an address. -/
def OpenFile.FarHit (f : OpenFile) (p : BytePattern) : Prop :=
  ∃ position, 0x100000000 ≤ position ∧ p.OccursAt f.data position ∧
    ∃ place, f.image.addressOf? (UInt32.ofNat position) = some place

/-- Every search starts at a position that is no offset any more at the latest. -/
theorem OpenFile.searchStart_le (f : OpenFile) (cursor : UInt32) (scope : Scope) :
    f.searchStart cursor scope ≤ 0x100000000 := by
  unfold searchStart
  split
  · exact Nat.zero_le _
  all_goals
    split
    · exact UInt32.toNat_lt _
    · exact Nat.zero_le _

/-- **What a search finds**: the address of the first occurrence from its start on that has one. The others are passed
over. It looks at enough of them when it may look at as many as there are positions left. -/
theorem firstMapped_cases (image : Image) {data : Bytes} {p : BytePattern} (hp : p.items ≠ []) {count start : Nat}
    (hcount : data.length < start + count) :
    (∃ hit place, start ≤ hit ∧ p.OccursAt data hit ∧ image.addressOf? (UInt32.ofNat hit) = some place ∧
      (∀ j, start ≤ j → j < hit → p.OccursAt data j → image.addressOf? (UInt32.ofNat j) = none) ∧
      firstMapped image data p count start = some place) ∨
    (∀ j, start ≤ j → p.OccursAt data j → image.addressOf? (UInt32.ofNat j) = none) ∧
      firstMapped image data p count start = none := by
  induction count generalizing start with
  | zero =>
    refine .inr ⟨fun j hge hoccurs => ?_, rfl⟩
    have hlt := hoccurs.lt_length hp
    omega
  | succ count ih =>
    unfold firstMapped
    cases hfind : p.findFrom data start with
    | none =>
      have hnone := (BytePattern.findFrom_eq_none_iff hp).1 hfind
      exact .inr ⟨fun j hge hoccurs => absurd hoccurs (hnone j hge), rfl⟩
    | some hit =>
      obtain ⟨hge, hoccurs, hbefore⟩ := (BytePattern.findFrom_eq_some_iff hp).1 hfind
      dsimp only
      cases haddress : image.addressOf? (UInt32.ofNat hit) with
      | some place =>
        exact .inl ⟨hit, place, hge, hoccurs, haddress,
          fun j hj hlt hother => absurd hother (hbefore j hj hlt), rfl⟩
      | none =>
        -- This hit has no address, so what is found is found behind it.
        have hpassed : ∀ j, start ≤ j → j ≤ hit → p.OccursAt data j →
            image.addressOf? (UInt32.ofNat j) = none := by
          intro j hj hle hother
          rcases Nat.eq_or_lt_of_le hle with rfl | hlt
          · exact haddress
          · exact absurd hother (hbefore j hj hlt)
        have hleft : data.length < hit + 1 + count := by omega
        rcases ih hleft with ⟨next, place, hnext, hat, hplace, hskipped, hfound⟩ | ⟨hnone, hfound⟩
        · refine .inl ⟨next, place, by omega, hat, hplace, fun j hj hlt hother => ?_, hfound⟩
          by_cases hle : j ≤ hit
          · exact hpassed j hj hle hother
          · exact hskipped j (by omega) hlt hother
        · refine .inr ⟨fun j hj hother => ?_, hfound⟩
          by_cases hle : j ≤ hit
          · exact hpassed j hj hle hother
          · exact hnone j (by omega) hother

/-! ## Searches in a row -/

/-- **A search carried on to its end.** The command is performed with a scope and from then on with the scope of the
next hit, until nothing is found. After each hit the cursor is at the address of one of the offsets, which are in the
order of the visits; the open file stays as it is throughout. -/
inductive Session.Visits (script : Script) (f : OpenFile) (p : BytePattern) (what : String) :
    Session → Scope → List UInt32 → Session → Prop
  /-- Nothing is found. -/
  | miss {s t : Session} {scope : Scope} (h : s.perform script (.findBytes scope p what) = (.ok (), t))
      (file_eq : t.file = some f) (found_eq : t.found = false) : Visits script f p what s scope [] t
  /-- There is a hit, and the search is carried on behind it. -/
  | hit {s t u : Session} {scope : Scope} {offset : UInt32} {offsets : List UInt32}
      (h : s.perform script (.findBytes scope p what) = (.ok (), t)) (file_eq : t.file = some f)
      (found_eq : t.found = true) (offset_eq : f.image.offsetOf t.cursor = .ok offset)
      (rest : Visits script f p what t .next offsets u) :
      Visits script f p what s scope (offset :: offsets) u

namespace Session

variable {f : OpenFile} {p : BytePattern}

theorem perform_findBytes (script : Script) {s : Session} (hfile : s.file = some f) (scope : Scope) (what : String) :
    s.perform script (.findBytes scope p what) = (.ok (), s.findBytes f scope p what) := by
  show s.withFile _ = _
  rw [withFile, hfile]

/-- **A search from an offset on**, carried on to its end, visits the hits from there on, unless one lies too far
behind. -/
theorem exists_visits (script : Script) (hapart : f.image.sections.Pairwise Section.Apart)
    (hends : ∀ t ∈ f.image.sections, t.address.toNat + t.mappedSize.toNat < 0x100000000) (hp : p.items ≠ [])
    (hnear : ¬f.FarHit p) (what : String) {s : Session} (hfile : s.file = some f) (scope : Scope) :
    ∃ offsets t, s.Visits script f p what scope offsets t ∧ offsets.Pairwise (· < ·) ∧
      ∀ offset, offset ∈ offsets ↔ f.searchStart s.cursor scope ≤ offset.toNat ∧ f.HitAt p offset := by
  -- Every search starts behind the hit of the one before, and there is no hit behind the end of the file.
  generalize hmeasure : f.data.length - f.searchStart s.cursor scope = n
  induction n using Nat.strongRecOn generalizing s scope with
  | ind n ih =>
    generalize hstart : f.searchStart s.cursor scope = start at hmeasure
    have hperform := perform_findBytes (p := p) script hfile scope what
    unfold findBytes at hperform
    rw [hstart] at hperform
    have hcount : f.data.length < start + (f.data.length + 1) := by omega
    rcases firstMapped_cases f.image hp hcount with
      ⟨hit, place, hge, hoccurs, hplace, hbefore, hfound⟩ | ⟨hnone, hfound⟩
    · rw [hfound] at hperform
      have hlow : hit < 0x100000000 :=
        Nat.lt_of_not_le fun hfar => hnear ⟨hit, hfar, hoccurs, place, hplace⟩
      have hword : (UInt32.ofNat hit).toNat = hit := UInt32.toNat_ofNat_of_lt' hlow
      have hoffset := Image.offsetOf_of_addressOf? hapart hends hplace
      have hlt := hoccurs.lt_length hp
      let t := s.settle (some place) what
      have hnext : f.searchStart t.cursor .next = hit + 1 := by
        rw [OpenFile.searchStart, show f.image.offsetOf t.cursor = .ok (UInt32.ofNat hit) from hoffset]
        dsimp only
        rw [hword]
      obtain ⟨offsets, u, hvisits, hascending, hmem⟩ :=
        ih (f.data.length - (hit + 1)) (by omega) (s := t) hfile .next (by rw [hnext])
      rw [hnext] at hmem
      refine ⟨UInt32.ofNat hit :: offsets, u, .hit hperform hfile rfl hoffset hvisits, ?_, fun offset => ?_⟩
      · refine List.pairwise_cons.2 ⟨fun later hlater => ?_, hascending⟩
        rw [UInt32.lt_iff_toNat_lt, hword]
        exact ((hmem later).1 hlater).1
      · rw [List.mem_cons, hmem]
        constructor
        · rintro (rfl | ⟨hlater, hhit⟩)
          · exact ⟨by omega, hword.symm ▸ hoccurs, place, hplace⟩
          · exact ⟨by omega, hhit⟩
        · rintro ⟨hfrom, hhit⟩
          obtain ⟨hhitOccurs, later, hlater⟩ := hhit
          rcases Nat.lt_trichotomy offset.toNat hit with hlt' | heq | hgt
          · -- An earlier occurrence was passed over because it has no address.
            have hpassed := hbefore offset.toNat hfrom hlt' hhitOccurs
            rw [UInt32.ofNat_toNat, hlater] at hpassed
            cases hpassed
          · exact .inl (by rw [← heq, UInt32.ofNat_toNat])
          · exact .inr ⟨hgt, hhitOccurs, later, hlater⟩
    · rw [hfound] at hperform
      refine ⟨[], _, .miss hperform hfile rfl, List.Pairwise.nil, fun offset => ?_⟩
      refine iff_of_false List.not_mem_nil ?_
      rintro ⟨hfrom, hoccurs, place, hplace⟩
      have hnot := hnone offset.toNat hfrom hoccurs
      rw [UInt32.ofNat_toNat, hplace] at hnot
      cases hnot

/-- **A search that never ends.** As long as a hit lies too far behind, every search finds something, that hit at the
latest. -/
theorem not_visits_of_farHit {script : Script} (hp : p.items ≠ []) (hfar : f.FarHit p) {what : String} {s t : Session}
    {scope : Scope} {offsets : List UInt32} (hfile : s.file = some f) :
    ¬s.Visits script f p what scope offsets t := by
  obtain ⟨position, hge, hoccurs, place, hplace⟩ := hfar
  intro h
  induction h with
  | @miss s t scope h _ hmissed =>
    rw [perform_findBytes script hfile] at h
    cases h
    -- No search starts behind the hit, so none can miss it.
    have hstart := f.searchStart_le s.cursor scope
    have hcount : f.data.length < f.searchStart s.cursor scope + (f.data.length + 1) := by omega
    rcases firstMapped_cases f.image hp hcount with ⟨_, _, _, _, _, _, hfound⟩ | ⟨hnone, _⟩
    · rw [findBytes, hfound] at hmissed
      cases hmissed
    · rw [hnone position (by omega) hoccurs] at hplace
      cases hplace
  | hit _ hkept _ _ _ ih => exact ih hkept

/-- **All hits are visited.** Searching from the first hit on until nothing is found comes to an end and visits, in
ascending order and once each, exactly the offsets at which the pattern occurs and that have an address, if and only if
no hit lies too far behind. This holds when no two sections map the same address and none of them reaches the last
one. -/
theorem visits_hits (script : Script) {s : Session} (hfile : s.file = some f)
    (hapart : f.image.sections.Pairwise Section.Apart)
    (hends : ∀ t ∈ f.image.sections, t.address.toNat + t.mappedSize.toNat < 0x100000000) (hp : p.items ≠ [])
    (what : String) :
    (∃ offsets t, s.Visits script f p what .first offsets t ∧ offsets.Pairwise (· < ·) ∧
      ∀ offset, offset ∈ offsets ↔ f.HitAt p offset) ↔ ¬f.FarHit p := by
  constructor
  · rintro ⟨offsets, t, hvisits, _⟩ hfar
    exact not_visits_of_farHit hp hfar hfile hvisits
  · intro hnear
    obtain ⟨offsets, t, hvisits, hascending, hmem⟩ := exists_visits script hapart hends hp hnear what hfile .first
    refine ⟨offsets, t, hvisits, hascending, fun offset => (hmem offset).trans ?_⟩
    exact and_iff_right (Nat.zero_le _)

end Session

/-- A file with two sections between which a byte is not mapped, and which share two bytes. -/
def repeatingImage : Image :=
  { Image.blank [0xAB, 0xCD, 0xAB, 0xCD, 0xAB, 0xCD] 0x1000 with
    sections := [.new ".text" 0x2000 0 2 Section.codeFlag, .new ".data" 0x1000 4 2 Section.dataFlag,
      .new ".more" 0x3000 4 2 Section.dataFlag] }

/-- The file, opened. -/
def repeatingSession : Session :=
  { Session.start ⟨[]⟩ with file := some (OpenFile.start "a" "a" repeatingImage .empty) }

/-- Of the three occurrences the one between the sections is passed over. -/
theorem Session.visits_hits_repeatingSession :
    repeatingImage.sections.Pairwise Section.Apart ∧
    ¬(OpenFile.start "a" "a" repeatingImage .empty).FarHit (.ofBytes [0xAB, 0xCD]) ∧
    ∃ offsets t, repeatingSession.Visits ⟨[], []⟩ (OpenFile.start "a" "a" repeatingImage .empty)
        (.ofBytes [0xAB, 0xCD]) "bytes" .first offsets t ∧ offsets.Pairwise (· < ·) ∧
      ∀ offset, offset ∈ offsets ↔
        (OpenFile.start "a" "a" repeatingImage .empty).HitAt (.ofBytes [0xAB, 0xCD]) offset := by
  have hnear : ¬(OpenFile.start "a" "a" repeatingImage .empty).FarHit (.ofBytes [0xAB, 0xCD]) := by
    rintro ⟨position, hge, hoccurs, _⟩
    have hlt : position < 6 := hoccurs.lt_length (by decide)
    omega
  have happart : repeatingImage.sections.Pairwise Section.Apart :=
    List.Pairwise.imp (R := fun s t => s.stop ≤ t.address ∨ t.stop ≤ s.address) Section.apart_of_stop_le
      (by decide)
  exact ⟨happart, hnear, (Session.visits_hits _ rfl happart (by decide) (by decide) _).2 hnear⟩

/-- A file of zeros that ends in a one. Its only section is at its start. -/
def farImage (zeros : Nat) : Image :=
  { Image.blank (List.replicate zeros 0 ++ [1]) 0x1000 with
    sections := [.new ".data" 0x1000 0 16 Section.dataFlag] }

/-- The file, opened. -/
def farSession (zeros : Nat) : Session :=
  { Session.start ⟨[]⟩ with file := some (OpenFile.start "a" "a" (farImage zeros) .empty) }

/-- **No end to a search.** In a file with as many zeros as there are offsets, the byte at the end is found again and
again, as if it were at the start of the section. It is no hit: its position is not an offset. -/
theorem Session.not_visits_farSession :
    (farImage 0x100000000).sections.Pairwise Section.Apart ∧
    (∀ t ∈ (farImage 0x100000000).sections, t.address.toNat + t.mappedSize.toNat < 0x100000000 ∧
      t.rawOffset.toNat + t.rawSize.toNat < 0x100000000) ∧
    (BytePattern.ofBytes [1]).items ≠ [] ∧
    ¬∃ offsets t, (farSession 0x100000000).Visits ⟨[], []⟩ (OpenFile.start "a" "a" (farImage 0x100000000) .empty)
      (.ofBytes [1]) "bytes" .first offsets t := by
  have hp : (BytePattern.ofBytes [1]).items ≠ [] := by decide
  -- The bytes of the file are never listed: all that counts is how many there are, and which is the last.
  have hfar : (OpenFile.start "a" "a" (farImage 0x100000000) .empty).FarHit (.ofBytes [1]) := by
    refine ⟨0x100000000, Nat.le_refl _, ?_, 0x1000, by decide⟩
    have hlen : (List.replicate 0x100000000 (0 : UInt8)).length = 0x100000000 := List.length_replicate
    show (BytePattern.ofBytes [1]).OccursAt (List.replicate 0x100000000 0 ++ [1]) 0x100000000
    refine ⟨?_, fun i b hi => ?_⟩
    · rw [List.length_append, hlen]
      exact Nat.le_refl _
    · rw [List.getElem?_append_right (by omega), hlen, Nat.add_sub_cancel_left]
      cases i with
      | zero => exact congrArg some (Option.some.inj (Option.some.inj hi))
      | succ i => cases hi
  refine ⟨List.pairwise_singleton _ _, by decide, hp, ?_⟩
  rintro ⟨offsets, t, hvisits⟩
  exact not_visits_of_farHit hp hfar rfl hvisits

end BinaryPatching
