import BinaryPatching.Proofs.Code.Growth

/-!
# `BinaryPatching.Proofs.Code.Exploration` — what holds throughout a search for code

The invariant of the search: where its code comes from, that nothing is entered twice, that every address taken up is
settled, and where the targets of branches have gone. It holds at the start, one address taken up keeps it, and so it
holds at the end, when all addresses met have been taken up.

## Contents
- `NoCode`, `Found`, `Overlapped`: an address without an instruction, an entry with its origin, a target that is not
  followed.
- `Explored`: the invariant.
- `explored_seeds`, `Explored.meet`, `Explored.visit`, `explored_explore`: it holds throughout.
-/

namespace BinaryPatching

open Thumb

namespace Exploration

/-- **No instruction at an address**: it lies outside code, or nothing is decoded from the bytes of its section. -/
def NoCode (image : Image) (a : UInt32) : Prop :=
  ∀ s, image.sectionAt? a = some s → s.isCode = true →
    decode ((image.sectionBytes s).drop (a.toNat - s.address.toNat)) a = none

/-- **The origin of an entry**: it lies at an even address of a section of code, is an entry of the bytes of the
    section, and is kept with the literal it loads, whose file offset is one of those that have overflowed if it does
    so. -/
def Found (image : Image) (overflows : Nat) (j : Instruction) : Prop :=
  j.address.toNat % 2 = 0 ∧ ∃ s ∈ image.sections, s.isCode = true ∧ s.containsAddress j.address = true ∧
    ∃ i, EntryOf (image.sectionBytes s) s.address i ∧ j = entered image s i ∧
      (overflows = 0 → literalOverflows image s i = false)

theorem Found.mono {image : Image} {m n : Nat} {j : Instruction} (h : Found image m j) (hle : m ≤ n) :
    Found image n j := by
  obtain ⟨heven, s, hs, hcode, ha, i, hi, hj, hcalm⟩ := h
  exact ⟨heven, s, hs, hcode, ha, i, hi, hj, fun hzero => hcalm (by omega)⟩

/-- **A target that is not followed.** An entry and the target of its branch belong to one gap-free stretch of the
    code, and the target is not where an entry of the stretch begins but behind that. -/
def Overlapped (code : CodeMap) (j : Instruction) (u : UInt32) : Prop :=
  ∃ a is b, Tiles a is b ∧ (∀ i ∈ is, i ∈ code.instructions) ∧ j ∈ is ∧
    ∃ i ∈ is, i.address.toNat < u.toNat ∧ u.toNat < i.address.toNat + i.bytes.length

/-- **What holds throughout a search.** -/
structure Explored (image : Image) (e : Exploration) : Prop where
  /-- Only even addresses are met. -/
  even : ∀ b ∈ e.met, b.toNat % 2 = 0
  /-- Every entry has its origin. -/
  found : ∀ j ∈ e.code.instructions, Found image e.overflows j
  /-- The second half of a pair is no entry. -/
  alone : ∀ j ∈ e.code.instructions, j.bytes.length = 8 → e.code.contains (j.address + 4) = false
  /-- An address that was taken up is known, or there is no instruction. -/
  settled : ∀ n b, n < e.done → e.met[n]? = some b → e.knows b = true ∨ NoCode image b
  /-- The target of a branch is met or known, unless it is one that is not followed. -/
  followed : ∀ j ∈ e.code.instructions, ∀ t, j.branchTarget = some t →
    evenPart t ∈ e.met ∨ e.knows (evenPart t) = true ∨ Overlapped e.code j (evenPart t)

theorem Overlapped.mono {code code' : CodeMap} {j : Instruction} {u : UInt32}
    (hcode : ∀ i ∈ code.instructions, i ∈ code'.instructions) (h : Overlapped code j u) : Overlapped code' j u := by
  obtain ⟨a, is, b, htiles, his, hj, hu⟩ := h
  exact ⟨a, is, b, htiles, fun i hi => hcode i (his i hi), hj, hu⟩

/-! ## The start -/

theorem explored_start (image : Image) : Explored image start :=
  ⟨fun _ hb => absurd hb List.not_mem_nil, fun _ hj => absurd hj List.not_mem_nil,
    fun _ hj => absurd hj List.not_mem_nil, fun n _ hn => absurd hn (Nat.not_lt_zero n),
    fun _ hj => absurd hj List.not_mem_nil⟩

/-- Meeting an even address before any is taken up keeps the invariant. -/
theorem Explored.meet {image : Image} {e : Exploration} (h : Explored image e) (hdone : e.done = 0) {a : UInt32}
    (ha : a.toNat % 2 = 0) : Explored image (e.meet a) := by
  refine ⟨fun b hb => ?_, fun j hj => ?_, fun j hj => ?_, fun n b hn => ?_, fun j hj t ht => ?_⟩
  · rcases mem_of_mem_meet hb with hb | rfl
    · exact h.even b hb
    · exact ha
  · rw [code_meet] at hj
    rw [overflows_meet]
    exact h.found j hj
  · rw [code_meet] at hj ⊢
    exact h.alone j hj
  · rw [done_meet, hdone] at hn
    exact absurd hn (Nat.not_lt_zero n)
  · rw [code_meet] at hj ⊢
    rw [knows_meet]
    rcases h.followed j hj t ht with hmet | hrest
    · exact .inl ((e.grows_meet a).met.subset hmet)
    · exact .inr hrest

/-- **The addresses at which the search begins** are met without harm. -/
theorem explored_seeds (image : Image) : Explored image ((seeds image).foldl meet start) := by
  -- The induction is on the addresses, with no condition on the search but that none is taken up.
  have hall (l : List UInt32) (hl : ∀ a ∈ l, a.toNat % 2 = 0) (e : Exploration) (h : Explored image e)
      (hdone : e.done = 0) : Explored image (l.foldl meet e) := by
    induction l generalizing e with
    | nil => exact h
    | cons a l ih =>
      have ha := hl a List.mem_cons_self
      exact ih (fun b hb => hl b (List.mem_cons_of_mem _ hb)) _ (h.meet hdone ha) (by rw [done_meet, hdone])
  refine hall _ (fun a ha => ?_) _ (explored_start image) rfl
  obtain ⟨b, _, rfl⟩ := List.mem_map.1 ha
  exact even_evenPart b

/-! ## One run -/

section

variable {image : Image} {s : Section} {a : UInt32} {e : Exploration}

/-- The entries of a run in the form in which they are kept are a stretch without a gap just as well. -/
theorem tiles_map_entered {first stop : UInt32} {is : List Instruction} (h : Tiles first is stop) :
    Tiles first (is.map (entered image s)) stop := by
  induction is generalizing first with
  | nil => exact h
  | cons i rest ih =>
    obtain ⟨haddress, hrest⟩ := h
    refine ⟨by rw [address_entered, haddress], ?_⟩
    have hstop : (entered image s i).stop = i.stop := by
      rw [Instruction.stop, Instruction.size, address_entered, bytes_entered]
      rfl
    rw [hstop]
    exact ih hrest

/-- Every entry of a run that is followed has its origin in the section. -/
theorem found_of_mem_entries (hs : s ∈ image.sections) (hcode : s.isCode = true)
    (ha : s.containsAddress a = true) (heven : a.toNat % 2 = 0) {i : Instruction}
    (hi : i ∈ (e.runFrom image s a).entries) (hunknown : e.knows a = false) :
    Found image (e.follow image s a).overflows (entered image s i) := by
  have hlen : ∀ k ∈ (e.runFrom image s a).entries, k.bytes.length % 2 = 0 := by
    intro k hk
    rcases (entryOf_runFrom ha hk).length_bytes with h | h | h <;> rw [h]
  have hbounds := (entryOf_runFrom ha hi).bounds (image.sectionBytes_lt ha)
  have hpos := (fits_runFrom ha hi).1
  refine ⟨?_, s, hs, hcode, ?_, i, entryOf_runFrom ha hi, rfl, fun hzero => ?_⟩
  · rw [address_entered]
    exact (tiles_entries (spans_runFrom image ha e)).even (fun k hk => fits_runFrom ha hk) hlen heven i hi
  · rw [address_entered]
    exact image.containsAddress_of_lt ha hbounds.1 (by omega)
  · exact (adds_follow image ha hunknown).calm hzero i hi

/-- A run that is followed makes its start known, unless there is no instruction. -/
theorem knows_follow (hs : image.sectionAt? a = some s) (hunknown : e.knows a = false) :
    (e.follow image s a).knows a = true ∨ NoCode image a := by
  have ha := Image.containsAddress_of_sectionAt? hs
  have hspans := spans_runFrom image ha e
  have hadds := adds_follow image ha hunknown
  have htiles := tiles_entries hspans
  cases hentries : (e.runFrom image s a).entries with
  | nil =>
    rw [hentries] at htiles
    have hstop : (e.runFrom image s a).stop = a := (show a = _ from htiles).symm
    -- Nothing was decoded, and it is not a known address that stopped the run.
    rcases hspans.ended with ⟨hne, _⟩ | hnone
    · exact absurd hstop hne
    · rw [hstop] at hnone
      refine .inr fun t ht _ => ?_
      rw [hs] at ht
      cases ht
      exact hnone
  | cons i rest =>
    rw [hentries] at htiles
    have hi : i ∈ (e.runFrom image s a).entries := hentries ▸ List.mem_cons_self
    refine .inl (knows_iff.2 (.inl (CodeMap.contains_iff.2 ⟨entered image s i, ?_, ?_⟩)))
    · exact (hadds.code _).2 (.inr ⟨i, hi, rfl⟩)
    · rw [address_entered, htiles.1]

/-- **The second half of a pair** is no entry after a run either. -/
theorem alone_follow (h : Explored image e) (ha : s.containsAddress a = true) (hunknown : e.knows a = false)
    {j : Instruction} (hj : j ∈ (e.follow image s a).code.instructions) (hlen : j.bytes.length = 8) :
    (e.follow image s a).code.contains (j.address + 4) = false := by
  have hspans := spans_runFrom image ha e
  have hadds := adds_follow image ha hunknown
  have hfits : ∀ k ∈ (e.runFrom image s a).entries, k.Fits := fun k hk => fits_runFrom ha hk
  refine Bool.eq_false_iff.2 fun hcontains => ?_
  obtain ⟨k, hk, haddress⟩ := CodeMap.contains_iff.1 hcontains
  -- Either entry is an old one or one of the run.
  rcases (hadds.code j).1 hj with hj | ⟨i, hi, rfl⟩ <;> rcases (hadds.code k).1 hk with hk | ⟨l, hl, rfl⟩
  · have halone := h.alone j hj hlen
    rw [CodeMap.contains_iff.2 ⟨k, hk, haddress⟩] at halone
    cases halone
  · have hfresh := (known_eq_false_of_mem hspans hunknown hl).1
    rw [address_entered] at haddress
    exact (not_knows hfresh hj).2 hlen haddress.symm
  · have hfresh := (known_eq_false_of_mem hspans hunknown hi).2 (by rwa [bytes_entered] at hlen)
    rw [address_entered] at haddress
    exact (not_knows hfresh hk).1 haddress
  · rw [address_entered, address_entered] at haddress
    rw [bytes_entered] at hlen
    have hnat : l.address.toNat = i.address.toNat + 4 := by
      have hfit := (hfits i hi).2
      rw [haddress, UInt32.toNat_add, show (4 : UInt32).toNat = 4 from rfl, Nat.mod_eq_of_lt (by omega)]
    have hpos := (hfits l hl).1
    rcases (tiles_entries hspans).apart hfits hi hl with heq | hle | hle
    · rw [heq] at hnat
      omega
    · omega
    · omega

/-- **The targets of branches** of a run are met, known or not followed. -/
theorem followed_follow (ha : s.containsAddress a = true) (hunknown : e.knows a = false) {i : Instruction}
    (hi : i ∈ (e.runFrom image s a).entries) {t : UInt32} (ht : (entered image s i).branchTarget = some t) :
    evenPart t ∈ (e.follow image s a).met ∨ (e.follow image s a).knows (evenPart t) = true ∨
      Overlapped (e.follow image s a).code (entered image s i) (evenPart t) := by
  have hspans := spans_runFrom image ha e
  have hadds := adds_follow image ha hunknown
  have hfits : ∀ k ∈ (e.runFrom image s a).entries, k.Fits := fun k hk => fits_runFrom ha hk
  by_cases hout : evenPart t < a ∨ (e.runFrom image s a).stop ≤ evenPart t
  · rcases hadds.targets i hi t ht hout with hmet | hknows
    · exact .inl hmet
    · exact .inr (.inl hknows)
  · rw [UInt32.lt_iff_toNat_lt, UInt32.le_iff_toNat_le, not_or] at hout
    -- A target inside the run is where an entry begins, or overlaps one.
    obtain ⟨k, hk, hge, hlt'⟩ :=
      (tiles_entries hspans).exists_covering hfits (Nat.not_lt.1 hout.1) (Nat.not_le.1 hout.2)
    have hmem : ∀ l ∈ (e.runFrom image s a).entries,
        entered image s l ∈ (e.follow image s a).code.instructions :=
      fun l hl => (hadds.code _).2 (.inr ⟨l, hl, rfl⟩)
    by_cases heq : k.address.toNat = (evenPart t).toNat
    · refine .inr (.inl (knows_iff.2 (.inl (CodeMap.contains_iff.2 ⟨_, hmem k hk, ?_⟩))))
      rw [address_entered, UInt32.toNat_inj.1 heq]
    · refine .inr (.inr ⟨a, _, _, tiles_map_entered (tiles_entries hspans), ?_,
        List.mem_map_of_mem hi, entered image s k, List.mem_map_of_mem hk, ?_⟩)
      · intro l hl
        obtain ⟨m, hm, rfl⟩ := List.mem_map.1 hl
        exact hmem m hm
      · rw [address_entered, bytes_entered]
        omega

/-- **Following a run** keeps the invariant. -/
theorem Explored.follow (h : Explored image e) (hdone : e.done < e.met.length) (hs : image.sectionAt? a = some s)
    (hcode : s.isCode = true) (heven : a.toNat % 2 = 0) (hunknown : e.knows a = false) :
    Explored image (e.follow image s a) := by
  have ha := Image.containsAddress_of_sectionAt? hs
  have hadds := adds_follow image ha hunknown
  refine ⟨fun b hb => ?_, fun j hj => ?_, fun j hj hlen => alone_follow h ha hunknown hj hlen, fun n b hn hb => ?_,
    fun j hj t ht => ?_⟩
  · rcases hadds.even b hb with hb | hb
    · exact h.even b hb
    · exact hb
  · rcases (hadds.code j).1 hj with hj | ⟨i, hi, rfl⟩
    · exact (h.found j hj).mono hadds.overflows_le
    · exact found_of_mem_entries (Image.mem_of_sectionAt? hs) hcode ha heven hi hunknown
  · -- Only addresses met before the run have been taken up.
    rw [hadds.done] at hn
    obtain ⟨l, hl⟩ := hadds.grows.met
    rw [← hl, List.getElem?_append_left (by omega)] at hb
    rcases h.settled n b hn hb with hknows | hnone
    · exact .inl (hadds.grows.knows hknows)
    · exact .inr hnone
  · rcases (hadds.code j).1 hj with hj | ⟨i, hi, rfl⟩
    · rcases h.followed j hj t ht with hmet | hknows | hover
      · exact .inl (hadds.grows.met.subset hmet)
      · exact .inr (.inl (hadds.grows.knows hknows))
      · exact .inr (.inr (hover.mono hadds.grows.code))
    · exact followed_follow ha hunknown hi ht

/-! ## The whole search -/

/-- An address that is settled may count as taken up. -/
theorem Explored.advance (h : Explored image e) (ha : e.met[e.done]? = some a)
    (hsettled : e.knows a = true ∨ NoCode image a) : Explored image { e with done := e.done + 1 } := by
  refine ⟨h.even, h.found, h.alone, fun n b hn hb => ?_, h.followed⟩
  rcases Nat.lt_succ_iff_lt_or_eq.1 hn with hn | rfl
  · exact h.settled n b hn hb
  · have hb' : e.met[e.done]? = some b := hb
    rw [ha] at hb'
    cases hb'
    exact hsettled

/-- **Taking up an address** keeps the invariant. -/
theorem Explored.visit (h : Explored image e) (ha : e.met[e.done]? = some a) :
    Explored image { e.visit image a with done := e.done + 1 } := by
  have hdone := (List.getElem?_eq_some_iff.1 ha).1
  have heven := h.even a (List.mem_of_getElem? ha)
  have hdropped : Explored image { e with dropped := e.dropped + 1 } :=
    ⟨h.even, h.found, h.alone, h.settled, h.followed⟩
  unfold Exploration.visit
  split
  · -- A known address is settled already.
    rename_i hknows
    exact h.advance ha (.inl hknows)
  · rename_i hunknown
    have hunknown := Bool.eq_false_iff.2 hunknown
    split
    · rename_i t ht
      split
      · -- In code the run is followed, and the addresses met before it are still in their places.
        rename_i hcode
        have hfollow := h.follow hdone ht hcode heven hunknown
        have hadds := adds_follow image (Image.containsAddress_of_sectionAt? ht) hunknown
        obtain ⟨l, hl⟩ := hadds.grows.met
        rw [← hadds.done]
        refine hfollow.advance ?_ (knows_follow ht hunknown)
        rw [hadds.done, ← hl, List.getElem?_append_left hdone, ha]
      · -- Outside code there is no instruction to be entered.
        rename_i hcode
        refine hdropped.advance ha (.inr fun t' ht' hcode' => ?_)
        rw [ht] at ht'
        cases ht'
        exact absurd hcode' hcode
    · rename_i hnone
      refine hdropped.advance ha (.inr fun t ht _ => ?_)
      rw [hnone] at ht
      cases ht

end

/-- **The search** keeps the invariant to its end, where all addresses met have been taken up. -/
theorem Explored.run {image : Image} {e : Exploration} (h : Explored image e) :
    Explored image (e.run image) ∧ (e.run image).met.length ≤ (e.run image).done := by
  fun_induction Exploration.run image e with
  | case1 e hnone => exact ⟨h, List.getElem?_eq_none_iff.1 hnone⟩
  | case2 e a ha ih => exact ih (h.visit ha)

/-- **Every search** for the code of an image keeps the invariant. -/
theorem explored_explore (image : Image) :
    Explored image (explore image) ∧ (explore image).met.length ≤ (explore image).done :=
  (explored_seeds image).run

end Exploration

end BinaryPatching
