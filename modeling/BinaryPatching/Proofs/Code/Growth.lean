import BinaryPatching.Code.Flow
import BinaryPatching.Proofs.Code.Pairs

/-!
# `BinaryPatching.Proofs.Code.Growth` — what one run adds to a search

A search for code only ever grows: no instruction is lost or replaced, and the addresses met stay in their order. One
run adds its entries, each with the literal it loads, and meets the branch targets that lie outside the run.

## Contents
- `CodeMap.contains_iff`, `CodeMap.get?_eq_none_iff`: look-up in a map.
- `Grows`, `Grows.knows`: more code and more addresses met; what is known stays known.
- `entered`: the form in which an entry is kept.
- `Adds`, `adds_foldl_record`: what recording entries adds.
- `entryOf_runFrom`, `fits_runFrom`, `adds_follow`: the run that is followed, and what it adds.
-/

namespace BinaryPatching

open Thumb

/-! ## Look-up -/

namespace CodeMap

theorem contains_iff {map : CodeMap} {a : UInt32} :
    map.contains a = true ↔ ∃ i ∈ map.instructions, i.address = a := by
  rw [contains, Option.isSome_iff_exists]
  constructor
  · rintro ⟨i, hi⟩
    exact ⟨i, get?_eq_some_iff.1 hi⟩
  · rintro ⟨i, hi⟩
    exact ⟨i, get?_eq_some_iff.2 hi⟩

theorem get?_eq_none_iff {map : CodeMap} {a : UInt32} : map.get? a = none ↔ map.contains a = false := by
  rw [contains, Option.isSome_eq_false_iff, Option.isNone_iff_eq_none]

end CodeMap

namespace Exploration

/-- An address is the second half of a pair when an entry of eight bytes lies four bytes before it. -/
theorem isSecondHalf_iff {e : Exploration} {a : UInt32} :
    e.isSecondHalf a = true ↔ ∃ i ∈ e.code.instructions, i.address = a - 4 ∧ i.bytes.length = 8 := by
  unfold isSecondHalf
  constructor
  · intro h
    split at h
    · rename_i i hi
      obtain ⟨hmem, haddress⟩ := CodeMap.get?_eq_some_iff.1 hi
      exact ⟨i, hmem, haddress, beq_iff_eq.1 h⟩
    · cases h
  · rintro ⟨i, hmem, haddress, hlen⟩
    rw [CodeMap.get?_eq_some_iff.2 ⟨hmem, haddress⟩]
    exact beq_iff_eq.2 hlen

theorem knows_iff {e : Exploration} {a : UInt32} :
    e.knows a = true ↔ e.code.contains a = true ∨ e.isSecondHalf a = true := by
  rw [knows, Bool.or_eq_true]

/-- Nothing that is unknown is the address of an entry or the second half of one. -/
theorem not_knows {e : Exploration} {a : UInt32} (h : e.knows a = false) {i : Instruction}
    (hi : i ∈ e.code.instructions) : i.address ≠ a ∧ (i.bytes.length = 8 → i.address + 4 ≠ a) := by
  rw [knows, Bool.or_eq_false_iff] at h
  refine ⟨fun heq => ?_, fun hlen heq => ?_⟩
  · rw [CodeMap.contains_iff.2 ⟨i, hi, heq⟩] at h
    cases h.1
  · have haddress : i.address = a - 4 := by rw [← heq, UInt32.add_sub_cancel]
    rw [isSecondHalf_iff.2 ⟨i, hi, haddress, hlen⟩] at h
    cases h.2

/-! ## Growth -/

/-- **Growth of a search.** No code is lost, and the addresses met stay where they are. -/
structure Grows (e f : Exploration) : Prop where
  /-- The code stays. -/
  code : ∀ i ∈ e.code.instructions, i ∈ f.code.instructions
  /-- The addresses met stay. -/
  met : e.met <+: f.met

theorem Grows.refl (e : Exploration) : Grows e e := ⟨fun _ hi => hi, List.prefix_refl _⟩

theorem Grows.trans {e f g : Exploration} (h : Grows e f) (h' : Grows f g) : Grows e g :=
  ⟨fun i hi => h'.code i (h.code i hi), h.met.trans h'.met⟩

/-- **What is known stays known.** -/
theorem Grows.knows {e f : Exploration} (h : Grows e f) {a : UInt32} (ha : e.knows a = true) :
    f.knows a = true := by
  rcases knows_iff.1 ha with ha | ha
  · obtain ⟨i, hi, haddress⟩ := CodeMap.contains_iff.1 ha
    exact knows_iff.2 (.inl (CodeMap.contains_iff.2 ⟨i, h.code i hi, haddress⟩))
  · obtain ⟨i, hi, haddress, hlen⟩ := isSecondHalf_iff.1 ha
    exact knows_iff.2 (.inr (isSecondHalf_iff.2 ⟨i, h.code i hi, haddress, hlen⟩))

/-! ## Meeting an address -/

@[simp] theorem code_meet (e : Exploration) (a : UInt32) : (e.meet a).code = e.code := by
  unfold meet
  split <;> rfl

@[simp] theorem done_meet (e : Exploration) (a : UInt32) : (e.meet a).done = e.done := by
  unfold meet
  split <;> rfl

@[simp] theorem overflows_meet (e : Exploration) (a : UInt32) : (e.meet a).overflows = e.overflows := by
  unfold meet
  split <;> rfl

@[simp] theorem knows_meet (e : Exploration) (a b : UInt32) : (e.meet a).knows b = e.knows b := by
  unfold knows isSecondHalf
  rw [code_meet]

theorem grows_meet (e : Exploration) (a : UInt32) : Grows e (e.meet a) := by
  refine ⟨fun i hi => by rwa [code_meet], ?_⟩
  unfold meet
  split
  · exact List.prefix_append _ _
  · exact List.prefix_refl _

/-- Only the address itself is met. -/
theorem mem_of_mem_meet {e : Exploration} {a b : UInt32} (h : b ∈ (e.meet a).met) : b ∈ e.met ∨ b = a := by
  unfold meet at h
  split at h
  · rcases List.mem_append.1 h with h | h
    · exact .inl h
    · exact .inr (List.mem_singleton.1 h)
  · exact .inl h

/-- An address is met unless it is known. -/
theorem mem_meet_or_knows (e : Exploration) (a : UInt32) : a ∈ (e.meet a).met ∨ e.knows a = true := by
  unfold meet
  split
  · exact .inl (List.mem_append_right _ List.mem_cons_self)
  · rename_i h
    by_cases hk : e.knows a = true
    · exact .inr hk
    · have hk := Bool.eq_false_iff.2 hk
      exact .inl (Decidable.not_not.1 fun hnot => h ⟨hk, hnot⟩)

/-! ## Recording entries -/

/-- **The form in which an entry is kept**: with the literal that it loads, if there is one. -/
def entered (image : Image) (s : Section) (i : Instruction) : Instruction := (withLiteral? image s i).getD i

theorem entered_frame (image : Image) (s : Section) (i : Instruction) :
    (entered image s i).address = i.address ∧ (entered image s i).bytes = i.bytes := by
  unfold entered
  cases h : withLiteral? image s i with
  | none => exact ⟨rfl, rfl⟩
  | some j => exact ⟨(withLiteral?_frame h).1, (withLiteral?_frame h).2.1⟩

@[simp] theorem address_entered (image : Image) (s : Section) (i : Instruction) :
    (entered image s i).address = i.address := (entered_frame image s i).1

@[simp] theorem bytes_entered (image : Image) (s : Section) (i : Instruction) :
    (entered image s i).bytes = i.bytes := (entered_frame image s i).2

section

variable {image : Image} {s : Section} {first stop : UInt32}

@[simp] theorem code_record (e : Exploration) (i : Instruction) :
    (record image s first stop e i).code = e.code.insert (entered image s i) := by
  unfold record
  dsimp only
  split
  · split
    · rw [code_meet]
      rfl
    · rfl
  · rfl

@[simp] theorem done_record (e : Exploration) (i : Instruction) :
    (record image s first stop e i).done = e.done := by
  unfold record
  dsimp only
  split
  · split
    · rw [done_meet]
    · rfl
  · rfl

/-- A literal whose file offset overflows is counted. -/
@[simp] theorem overflows_record (e : Exploration) (i : Instruction) :
    (record image s first stop e i).overflows
      = e.overflows + (if literalOverflows image s i then 1 else 0) := by
  unfold record
  dsimp only
  split
  · split
    · rw [overflows_meet]
    · rfl
  · rfl

/-- Recording an entry at a new address loses nothing. -/
theorem grows_record {e : Exploration} {i : Instruction} (hnew : e.code.contains i.address = false) :
    Grows e (record image s first stop e i) := by
  constructor
  · intro j hj
    rw [code_record]
    refine CodeMap.mem_insert.2 (.inr ⟨hj, fun heq => ?_⟩)
    rw [address_entered] at heq
    rw [CodeMap.contains_iff.2 ⟨j, hj, heq⟩] at hnew
    cases hnew
  · unfold record
    dsimp only
    split
    · split
      · -- The addresses met are those of `e` until the target is met.
        have hmeet (f : Exploration) (b : UInt32) (hf : f.met = e.met) : e.met <+: (f.meet b).met :=
          hf ▸ (grows_meet f b).met
        exact hmeet _ _ rfl
      · exact List.prefix_refl _
    · exact List.prefix_refl _

theorem even_evenPart (a : UInt32) : (evenPart a).toNat % 2 = 0 := by
  rw [toNat_evenPart, Nat.mul_mod_left]

/-- Only even addresses are met. -/
theorem mem_of_mem_record {e : Exploration} {i : Instruction} {b : UInt32}
    (h : b ∈ (record image s first stop e i).met) : b ∈ e.met ∨ b.toNat % 2 = 0 := by
  unfold record at h
  dsimp only at h
  split at h
  · split at h
    · rcases mem_of_mem_meet h with h | rfl
      · exact .inl h
      · exact .inr (even_evenPart _)
    · exact .inl h
  · exact .inl h

/-- The target of a branch is met when it is outside the run, unless it is known. -/
theorem mem_record_or_knows {e : Exploration} {i : Instruction} {t : UInt32}
    (ht : (entered image s i).branchTarget = some t)
    (hout : evenPart t < first ∨ stop ≤ evenPart t) :
    evenPart t ∈ (record image s first stop e i).met ∨
      (record image s first stop e i).knows (evenPart t) = true := by
  unfold record
  dsimp only
  have ht' : ((withLiteral? image s i).getD i).branchTarget = some t := ht
  rw [ht']
  dsimp only
  rw [if_pos hout, knows_meet]
  exact mem_meet_or_knows _ _

/-- **What a run adds** to a search: its entries in the form in which they are kept, and nothing else; and the branch
    targets that lie outside it. -/
structure Adds (image : Image) (s : Section) (first stop : UInt32) (es : List Instruction) (e f : Exploration) :
    Prop where
  /-- Nothing is lost. -/
  grows : Grows e f
  /-- The code is the old one and the entries. -/
  code : ∀ j, j ∈ f.code.instructions ↔ j ∈ e.code.instructions ∨ ∃ i ∈ es, j = entered image s i
  /-- Only even addresses are met. -/
  even : ∀ b ∈ f.met, b ∈ e.met ∨ b.toNat % 2 = 0
  /-- Targets outside the run are met or known. -/
  targets : ∀ i ∈ es, ∀ t, (entered image s i).branchTarget = some t →
    evenPart t < first ∨ stop ≤ evenPart t → evenPart t ∈ f.met ∨ f.knows (evenPart t) = true
  /-- None of the addresses met is taken up. -/
  done : f.done = e.done
  /-- No overflow is forgotten. -/
  overflows_le : e.overflows ≤ f.overflows
  /-- Where there is none, none of the entries has one. -/
  calm : f.overflows = 0 → ∀ i ∈ es, literalOverflows image s i = false

/-- **Recording entries** at different and new addresses adds them. -/
theorem adds_foldl_record {es : List Instruction} {e : Exploration}
    (hdistinct : es.Pairwise fun i j => i.address ≠ j.address)
    (hnew : ∀ i ∈ es, e.code.contains i.address = false) :
    Adds image s first stop es e (es.foldl (record image s first stop) e) := by
  induction es generalizing e with
  | nil =>
    exact ⟨Grows.refl e, fun j => by simp, fun b hb => .inl hb, fun i hi => absurd hi List.not_mem_nil, rfl,
      Nat.le_refl _, fun _ i hi => absurd hi List.not_mem_nil⟩
  | cons i es ih =>
    obtain ⟨hi, hes⟩ := List.pairwise_cons.1 hdistinct
    have hgrows : Grows e (record image s first stop e i) := grows_record (hnew i List.mem_cons_self)
    have hmem (j : Instruction) : j ∈ (record image s first stop e i).code.instructions ↔
        j = entered image s i ∨ (j ∈ e.code.instructions ∧ j.address ≠ i.address) := by
      rw [code_record, CodeMap.mem_insert, address_entered]
    -- The remaining entries are new to the code with this one in it.
    have hrest : Adds image s first stop es (record image s first stop e i)
        (es.foldl (record image s first stop) (record image s first stop e i)) := by
      refine ih hes fun j hj => Bool.eq_false_iff.2 fun hcontains => ?_
      obtain ⟨k, hk, haddress⟩ := CodeMap.contains_iff.1 hcontains
      rcases (hmem k).1 hk with rfl | ⟨hk, _⟩
      · rw [address_entered] at haddress
        exact hi j hj haddress
      · have hfalse := hnew j (List.mem_cons_of_mem _ hj)
        rw [CodeMap.contains_iff.2 ⟨k, hk, haddress⟩] at hfalse
        cases hfalse
    have hcount : (record image s first stop e i).overflows
        = e.overflows + (if literalOverflows image s i then 1 else 0) := overflows_record e i
    have hle := hrest.overflows_le
    rw [List.foldl_cons]
    refine ⟨hgrows.trans hrest.grows, fun j => ?_, fun b hb => ?_, ?_, hrest.done.trans (done_record e i), by omega,
      fun hzero k hk => ?_⟩
    · rw [hrest.code j, hmem]
      constructor
      · rintro ((rfl | ⟨hj, _⟩) | ⟨k, hk, rfl⟩)
        · exact .inr ⟨i, List.mem_cons_self, rfl⟩
        · exact .inl hj
        · exact .inr ⟨k, List.mem_cons_of_mem _ hk, rfl⟩
      · rintro (hj | ⟨k, hk, rfl⟩)
        · exact .inl ((hmem j).1 (hgrows.code j hj))
        · rcases List.mem_cons.1 hk with rfl | hk
          · exact .inl (.inl rfl)
          · exact .inr ⟨k, hk, rfl⟩
    · rcases hrest.even b hb with hb | hb
      · exact mem_of_mem_record hb
      · exact .inr hb
    · intro k hk t ht hout
      rcases List.mem_cons.1 hk with rfl | hk
      · rcases mem_record_or_knows (e := e) ht hout with hmet | hknows
        · exact .inl (hrest.grows.met.subset hmet)
        · exact .inr (hrest.grows.knows hknows)
      · exact hrest.targets k hk t ht hout
    · rcases List.mem_cons.1 hk with rfl | hk
      · cases hoverflow : literalOverflows image s k with
        | false => rfl
        | true =>
          rw [hoverflow, if_pos rfl] at hcount
          omega
      · exact hrest.calm hzero k hk

end

/-! ## Following a run -/

/-- The run that is followed from an address of a section. -/
def runFrom (image : Image) (s : Section) (a : UInt32) (e : Exploration) : Run :=
  decodeUntil e.knows (image.sectionBytes s) s.address a

/-- **A run that is followed** is a gap-free stretch of the bytes of the section. -/
theorem spans_runFrom (image : Image) {s : Section} {a : UInt32} (ha : s.containsAddress a = true)
    (e : Exploration) :
    Spans e.knows (image.sectionBytes s) s.address a a (e.runFrom image s a) :=
  decodeUntil_spans (image.sectionBytes_lt ha) (Section.containsAddress_iff.1 ha).1

theorem entryOf_runFrom {image : Image} {s : Section} {a : UInt32} {e : Exploration}
    (ha : s.containsAddress a = true) {i : Instruction} (hi : i ∈ (e.runFrom image s a).entries) :
    EntryOf (image.sectionBytes s) s.address i := entryOf_of_mem (spans_runFrom image ha e) hi

theorem fits_runFrom {image : Image} {s : Section} {a : UInt32} {e : Exploration}
    (ha : s.containsAddress a = true) {i : Instruction} (hi : i ∈ (e.runFrom image s a).entries) : i.Fits :=
  (entryOf_runFrom ha hi).fits (image.sectionBytes_lt ha)

/-- **Following a run** from an unknown address adds its entries. -/
theorem adds_follow (image : Image) {s : Section} {a : UInt32} {e : Exploration}
    (ha : s.containsAddress a = true) (hunknown : e.knows a = false) :
    Adds image s a (e.runFrom image s a).stop (e.runFrom image s a).entries e (e.follow image s a) := by
  have hspans := spans_runFrom image ha e
  have hadds : Adds image s a (e.runFrom image s a).stop (e.runFrom image s a).entries e
      ((e.runFrom image s a).entries.foldl (record image s a (e.runFrom image s a).stop) e) := by
    refine adds_foldl_record ((tiles_entries hspans).distinct fun i hi => fits_runFrom ha hi) fun i hi => ?_
    have hnot := (known_eq_false_of_mem hspans hunknown hi).1
    rw [knows, Bool.or_eq_false_iff] at hnot
    exact hnot.1
  -- The counts of runs and of joined pairs are all that is left.
  exact ⟨⟨hadds.grows.code, hadds.grows.met⟩, hadds.code, hadds.even, hadds.targets, hadds.done, hadds.overflows_le,
    hadds.calm⟩

end Exploration

end BinaryPatching
