import BinaryPatching.Code.Pairs
import BinaryPatching.Proofs.Code.Literals
import BinaryPatching.Proofs.Thumb.Groups
import BinaryPatching.Proofs.Thumb.Operands
import BinaryPatching.Proofs.Thumb.Run

/-!
# `BinaryPatching.Proofs.Code.Pairs` — what a run of code is entered as

The instructions of a run are entered one by one, except that two neighbours which load the halves of a word are entered
as one. The entries cover the same stretch of addresses as the run, and a joined entry says which word it loads.

## Contents
- `LoadsHalf`, `IsPair`, `joined`, `joinHalves?_eq_some_iff`: pairs, and what they are entered as.
- `literalValue_joined`, `withLiteral?_joined`: the operands of a joined entry.
- `EntryOf`, `entryOf_of_mem`, `tiles_entries`: the entries of a run.
-/

namespace BinaryPatching

open Text Thumb

/-! ## Pairs -/

/-- **A load of half a word**: a mnemonic, and operands that name a register and a value. -/
structure LoadsHalf (mnemonic : String) (i : Instruction) (register : String) (value : UInt32) : Prop where
  /-- The mnemonic. -/
  mnemonic_eq : i.mnemonic = mnemonic
  /-- The operands. -/
  operands_eq : registerAndValue? i.operands = some (register, value)

/-- **A pair**: two neighbours that load the low and the high half of a word into one register, in either order. -/
def IsPair (first second : Instruction) (register : String) (low high : UInt32) : Prop :=
  first.stop = second.address ∧
    ((LoadsHalf "movw" first register low ∧ LoadsHalf "movt" second register high) ∨
      (LoadsHalf "movt" first register high ∧ LoadsHalf "movw" second register low))

/-- **What a pair is entered as**: one load of the whole word, over the bytes of both. -/
def joined (first second : Instruction) (register : String) (low high : UInt32) : Instruction :=
  ⟨first.address, first.bytes ++ second.bytes, "mov",
    register ++ ", #0x" ++ lowerHex ((high <<< 16) + low).toNat⟩

/-- **Joining succeeds** just on pairs. -/
theorem joinHalves?_eq_some_iff {first second i : Instruction} :
    joinHalves? first second = some i ↔
      ∃ register low high, IsPair first second register low high ∧ i = joined first second register low high := by
  unfold joinHalves?
  constructor
  · intro h
    split at h
    · cases h
    · rename_i hstop
      have hstop := Decidable.not_not.1 hstop
      dsimp only at h
      split at h
      · cases h
      · rename_i low high hhalves
        split at h
        · rename_i register lowValue other highValue hlow hhigh
          split at h
          · rename_i hregister
            subst hregister
            cases h
            refine ⟨register, lowValue, highValue, ⟨hstop, ?_⟩, rfl⟩
            split at hhalves
            · rename_i hm
              cases hhalves
              exact .inl ⟨⟨hm.1, hlow⟩, ⟨hm.2, hhigh⟩⟩
            · split at hhalves
              · rename_i hm
                cases hhalves
                exact .inr ⟨⟨hm.1, hhigh⟩, ⟨hm.2, hlow⟩⟩
              · cases hhalves
          · cases h
        · cases h
  · rintro ⟨register, low, high, ⟨hstop, hhalves⟩, rfl⟩
    rw [if_neg (Decidable.not_not.2 hstop)]
    rcases hhalves with ⟨hfirst, hsecond⟩ | ⟨hfirst, hsecond⟩
    · rw [if_pos ⟨hfirst.mnemonic_eq, hsecond.mnemonic_eq⟩]
      simp only [hfirst.operands_eq, hsecond.operands_eq, if_pos]
      rfl
    · have hne : ¬(first.mnemonic = "movw" ∧ second.mnemonic = "movt") := by
        rintro ⟨hm, _⟩
        rw [hfirst.mnemonic_eq] at hm
        exact absurd hm (by decide)
      rw [if_neg hne, if_pos ⟨hfirst.mnemonic_eq, hsecond.mnemonic_eq⟩]
      simp only [hfirst.operands_eq, hsecond.operands_eq, if_pos]
      rfl

/-- A joined entry ends where the second of the pair does. -/
theorem IsPair.stop_joined {first second : Instruction} {register : String} {low high : UInt32}
    (h : IsPair first second register low high) : (joined first second register low high).stop = second.stop := by
  have hadd : UInt32.ofNat (first.bytes ++ second.bytes).length = first.size + second.size := by
    rw [List.length_append, UInt32.ofNat_add]
    rfl
  show first.address + UInt32.ofNat (first.bytes ++ second.bytes).length = second.stop
  rw [hadd, ← UInt32.add_assoc]
  show first.stop + second.size = second.address + second.size
  rw [h.1]

/-- Both halves of a pair are wide. -/
theorem IsPair.length_halves {first second : Instruction} {register : String} {low high : UInt32}
    {code code' : Bytes} {a b : UInt32}
    (h : IsPair first.withPlainRegisters second.withPlainRegisters register low high)
    (hfirst : decode code a = some first) (hsecond : decode code' b = some second) :
    first.bytes.length = 4 ∧ second.bytes.length = 4 := by
  obtain ⟨_, ⟨h1, h2⟩ | ⟨h1, h2⟩⟩ := h
  all_goals
    have hm1 : first.mnemonic = _ := h1.mnemonic_eq
    have hm2 : second.mnemonic = _ := h2.mnemonic_eq
    exact ⟨(half_cases hfirst (by rw [hm1]; rfl)).1, (half_cases hsecond (by rw [hm2]; rfl)).1⟩

/-! ## The operands of a joined entry -/

theorem toList_operands_joined (first second : Instruction) (register : String) (low high : UInt32) :
    (joined first second register low high).operands.toList =
      (register.toList ++ [',', ' ']) ++ '#' :: '0' :: 'x' :: Nat.toDigits 16 ((high <<< 16) + low).toNat := by
  simp [joined]

/-- **The literal of a joined entry** is the word whose halves the pair loads. -/
theorem literalValue_joined (first second : Instruction) (register : String) (low high : UInt32) :
    (joined first second register low high).literalValue = some ((high <<< 16) + low) :=
  literalValue_of_operands (toList_operands_joined first second register low high)

/-- Trimming adds no character. -/
theorem mem_of_mem_trim {c : Char} {cs : List Char} (h : c ∈ trim cs) : c ∈ cs := by
  rw [trim, trimEnd, List.mem_reverse] at h
  have hstart := List.mem_reverse.1 ((List.dropWhile_sublist _).mem h)
  exact (List.dropWhile_sublist _).mem hstart

/-- The register of a half is what stands before the first comma. -/
theorem LoadsHalf.not_mem_register {mnemonic register : String} {i : Instruction} {value : UInt32}
    (h : LoadsHalf mnemonic i register value) : ',' ∉ register.toList := by
  have hoperands := h.operands_eq
  unfold registerAndValue? at hoperands
  split at hoperands
  · cases hoperands
  · rename_i before after hsplit
    split at hoperands
    · obtain ⟨v, _, hv⟩ := Option.map_eq_some_iff.1 hoperands
      cases hv
      rw [toList_onChars, String.toList_ofList]
      exact fun hc => (splitOnce_eq_some hsplit).2 (mem_of_mem_trim hc)
    · cases hoperands

/-- In an operand relative to the program counter, a bracket is closed behind the first comma of the text. -/
theorem IsReference.closed {front behind : List Char} {r : CounterReference} (hcomma : ',' ∉ front)
    (h : IsReference (front ++ ',' :: behind) r) : ']' ∈ behind := by
  have htext : front ++ ',' :: behind =
      (r.before ++ ['[', 'p', 'c']) ++ ',' :: ([' ', '#'] ++ (r.displacement ++ ']' :: r.after)) := by
    rw [h.1, List.append_assoc]
    rfl
  have hmem : ']' ∈ [' ', '#'] ++ (r.displacement ++ ']' :: r.after) := by simp
  -- The comma of the mark is the first of the text or a later one, as there is none in front of that.
  rcases List.append_eq_append_iff.1 htext with ⟨middle, _, hbehind⟩ | ⟨middle, hfront, hbehind⟩
  · cases middle with
    | nil => exact (List.cons.inj hbehind).2 ▸ hmem
    | cons c middle =>
      rw [(List.cons.inj hbehind).2]
      exact List.mem_append_right _ (List.mem_cons_of_mem _ hmem)
  · cases middle with
    | nil => exact (List.cons.inj hbehind).2 ▸ hmem
    | cons c middle =>
      have hc : ',' = c := (List.cons.inj hbehind).1
      rw [hfront, ← hc] at hcomma
      exact absurd (List.mem_append_right _ List.mem_cons_self) hcomma

/-- A joined entry loads no word from beside the code. -/
theorem withLiteral?_joined {first second : Instruction} {register : String} {low high : UInt32}
    (h : IsPair first second register low high) (image : Image) (s : Section) :
    withLiteral? image s (joined first second register low high) = none := by
  have hcomma : ',' ∉ register.toList := by
    rcases h.2 with ⟨hfirst, _⟩ | ⟨hfirst, _⟩
    · exact hfirst.not_mem_register
    · exact hfirst.not_mem_register
  refine withLiteral?_eq_none_iff.2 ?_
  rintro ⟨r, word, hload⟩
  have href := hload.reference.1
  rw [toList_operands_joined, List.append_assoc] at href
  -- Behind the comma there are a blank, the marks and digits, but no bracket.
  have hclosed : ']' ∈ ' ' :: '#' :: '0' :: 'x' :: Nat.toDigits 16 ((high <<< 16) + low).toNat :=
    href.closed hcomma
  rcases List.mem_cons.1 hclosed with h | h
  · cases h
  rcases List.mem_cons.1 h with h | h
  · cases h
  · exact not_mem_hexLiteral (by decide) (by decide) _ h

/-! ## The entries of a run -/

/-- **The entries of some code**: its instructions with the plain names of registers, and its pairs. -/
inductive EntryOf (code : Bytes) (base : UInt32) : Instruction → Prop where
  /-- An instruction by itself. -/
  | single {i : Instruction} (h : DecodedIn code base i) : EntryOf code base i.withPlainRegisters
  /-- Two instructions that make a pair. -/
  | pair {first second : Instruction} {register : String} {low high : UInt32} (hfirst : DecodedIn code base first)
      (hsecond : DecodedIn code base second)
      (h : IsPair first.withPlainRegisters second.withPlainRegisters register low high) :
      EntryOf code base (joined first.withPlainRegisters second.withPlainRegisters register low high)

section

variable {code : Bytes} {base : UInt32} {e : Instruction}

/-- An entry takes two, four or eight bytes. -/
theorem EntryOf.length_bytes (h : EntryOf code base e) :
    e.bytes.length = 2 ∨ e.bytes.length = 4 ∨ e.bytes.length = 8 := by
  cases h with
  | single hi =>
    rcases length_of_decode hi.2 with hlen | hlen
    · exact .inl hlen
    · exact .inr (.inl hlen)
  | @pair first second _ _ _ hfirst hsecond hpair =>
    obtain ⟨h1, h2⟩ := hpair.length_halves hfirst.2 hsecond.2
    refine .inr (.inr ?_)
    show (first.bytes ++ second.bytes).length = 8
    rw [List.length_append, h1, h2]

/-- An entry lies in the code. -/
theorem EntryOf.bounds (h : EntryOf code base e) (hcode : base.toNat + code.length < 0x100000000) :
    base.toNat ≤ e.address.toNat ∧ e.address.toNat + e.bytes.length ≤ base.toNat + code.length := by
  cases h with
  | single hi => exact ⟨hi.1, hi.stop_le⟩
  | @pair first second _ _ _ hfirst hsecond hpair =>
    have hstop : first.stop = second.address := hpair.1
    have hend := hsecond.stop_le
    rw [← hstop, (hfirst.fits hcode).toNat_stop] at hend
    refine ⟨hfirst.1, ?_⟩
    show first.address.toNat + (first.bytes ++ second.bytes).length ≤ _
    rw [List.length_append]
    omega

theorem EntryOf.fits (h : EntryOf code base e) (hcode : base.toNat + code.length < 0x100000000) : e.Fits := by
  have hlen := h.length_bytes
  have hbounds := h.bounds hcode
  exact ⟨by omega, by omega⟩

/-- The bytes of an entry are those of the code at its place. -/
theorem EntryOf.slice (h : EntryOf code base e) (hcode : base.toNat + code.length < 0x100000000) :
    Bytes.slice? code (e.address.toNat - base.toNat) e.bytes.length = some e.bytes := by
  cases h with
  | single hi => exact hi.slice
  | @pair first second _ _ _ hfirst hsecond hpair =>
    have hstop : first.stop = second.address := hpair.1
    have hoffset : second.address.toNat - base.toNat = first.address.toNat - base.toNat + first.bytes.length := by
      have hle := hfirst.1
      rw [← hstop, (hfirst.fits hcode).toNat_stop]
      omega
    obtain ⟨_, h1⟩ := Bytes.slice?_eq_some.1 hfirst.slice
    obtain ⟨hle, h2⟩ := Bytes.slice?_eq_some.1 hsecond.slice
    rw [hoffset] at hle h2
    refine Bytes.slice?_eq_some.2 ?_
    show first.address.toNat - base.toNat + (first.bytes ++ second.bytes).length ≤ _ ∧
      first.bytes ++ second.bytes =
        (code.drop (first.address.toNat - base.toNat)).take (first.bytes ++ second.bytes).length
    rw [List.length_append]
    refine ⟨by omega, ?_⟩
    -- The second half begins where the first ends, so their bytes are one stretch.
    rw [List.take_add, List.drop_drop, ← h1, ← h2]

end

/-- The entries of a run. -/
def Thumb.Run.entries (run : Run) : List Instruction := joinPairs (run.instructions.map Instruction.withPlainRegisters)

/-- Joining pairs keeps a stretch without a gap. -/
theorem Thumb.Tiles.joinPairs {a b : UInt32} {is : List Instruction} (h : Tiles a is b) :
    Tiles a (joinPairs is) b := by
  fun_induction BinaryPatching.joinPairs is generalizing a with
  | case1 first second rest i hjoin ih =>
    obtain ⟨register, low, high, hpair, rfl⟩ := joinHalves?_eq_some_iff.1 hjoin
    obtain ⟨rfl, _, hrest⟩ := h
    refine ⟨rfl, ?_⟩
    rw [hpair.stop_joined]
    exact ih hrest
  | case2 first second rest _ ih => exact ⟨h.1, ih h.2⟩
  | case3 => exact h

/-- Every entry is an instruction of the run or stands for two neighbours. -/
theorem mem_joinPairs {is : List Instruction} {e : Instruction} (h : e ∈ joinPairs is) :
    e ∈ is ∨ ∃ first ∈ is, ∃ second ∈ is, joinHalves? first second = some e := by
  fun_induction joinPairs is with
  | case1 first second rest i hjoin ih =>
    rcases List.mem_cons.1 h with rfl | h
    · exact .inr ⟨first, by simp, second, by simp, hjoin⟩
    · rcases ih h with h | ⟨a, ha, b, hb, hab⟩
      · exact .inl (by simp [h])
      · exact .inr ⟨a, by simp [ha], b, by simp [hb], hab⟩
  | case2 first second rest _ ih =>
    rcases List.mem_cons.1 h with rfl | h
    · exact .inl (by simp)
    · rcases ih h with h | ⟨a, ha, b, hb, hab⟩
      · exact .inl (List.mem_cons_of_mem _ h)
      · exact .inr ⟨a, List.mem_cons_of_mem _ ha, b, List.mem_cons_of_mem _ hb, hab⟩
  | case3 => exact .inl h

section

variable {known : UInt32 → Bool} {code : Bytes} {base start : UInt32} {run : Run}

theorem tiles_map_withPlainRegisters {a b : UInt32} {is : List Instruction} (h : Tiles a is b) :
    Tiles a (is.map Instruction.withPlainRegisters) b := by
  induction is generalizing a with
  | nil => exact h
  | cons i rest ih => exact ⟨h.1, ih h.2⟩

/-- **The entries cover the run.** -/
theorem tiles_entries (h : Spans known code base start start run) : Tiles start run.entries run.stop :=
  (tiles_map_withPlainRegisters h.tiles).joinPairs

/-- **The entries of a run** are those of its code. -/
theorem entryOf_of_mem (h : Spans known code base start start run) {e : Instruction} (he : e ∈ run.entries) :
    EntryOf code base e := by
  rcases mem_joinPairs he with he | ⟨first, hfirst, second, hsecond, hjoin⟩
  · obtain ⟨i, hi, rfl⟩ := List.mem_map.1 he
    exact .single (h.decoded i hi)
  · obtain ⟨i, hi, rfl⟩ := List.mem_map.1 hfirst
    obtain ⟨j, hj, rfl⟩ := List.mem_map.1 hsecond
    obtain ⟨register, low, high, hpair, rfl⟩ := joinHalves?_eq_some_iff.1 hjoin
    exact .pair (h.decoded i hi) (h.decoded j hj) hpair

/-- **Known addresses are left alone** by the entries of a run, and so are those of the second halves. -/
theorem known_eq_false_of_mem (h : Spans known code base start start run) (hstart : known start = false)
    {e : Instruction} (he : e ∈ run.entries) :
    known e.address = false ∧ (e.bytes.length = 8 → known (e.address + 4) = false) := by
  -- The run may begin at a known address, but this one does not.
  have hfresh : ∀ i ∈ run.instructions, known i.address = false := by
    intro i hi
    by_cases hne : i.address = start
    · rw [hne, hstart]
    · exact h.fresh i hi hne
  rcases mem_joinPairs he with he | ⟨first, hfirst, second, hsecond, hjoin⟩
  · obtain ⟨i, hi, rfl⟩ := List.mem_map.1 he
    refine ⟨hfresh i hi, fun hlen => ?_⟩
    have hshort := length_of_decode (h.decoded i hi).2
    rw [Instruction.bytes_withPlainRegisters] at hlen
    omega
  · obtain ⟨i, hi, rfl⟩ := List.mem_map.1 hfirst
    obtain ⟨j, hj, rfl⟩ := List.mem_map.1 hsecond
    obtain ⟨register, low, high, hpair, rfl⟩ := joinHalves?_eq_some_iff.1 hjoin
    refine ⟨hfresh i hi, fun _ => ?_⟩
    show known (i.address + 4) = false
    have hadjacent : i.address + i.size = j.address := hpair.1
    rw [Instruction.size, (hpair.length_halves (h.decoded i hi).2 (h.decoded j hj).2).1] at hadjacent
    rw [show (4 : UInt32) = UInt32.ofNat 4 from rfl, hadjacent]
    exact hfresh j hj

end

end BinaryPatching
