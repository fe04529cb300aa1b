import BinaryPatching.Thumb.Decode

/-!
# `BinaryPatching.Proofs.Thumb.Run` — what one run of decoding yields

Code is decoded in runs. A run is a gap-free stretch of instructions, each of them decoded from the bytes at its own
address, and it ends only before an address that is known already or where no instruction is.

## Contents
- `Instruction.Fits`, `Tiles`: instructions that lie one behind the other.
- `decode_bytes`: an instruction is decoded from its own bytes just as from the code.
- `DecodedIn`: an instruction of a stretch of code.
- `Spans`, `decodeFrom_spans`, `decodeUntil_spans`: what a run is, and that decoding yields one.
-/

namespace BinaryPatching.Thumb

/-! ## Stretches without a gap -/

/-- **Room for an instruction.** It takes at least one byte, and addresses do not wrap around before its end. -/
def Instruction.Fits (i : Instruction) : Prop :=
  0 < i.bytes.length ∧ i.address.toNat + i.bytes.length < 0x100000000

theorem Instruction.Fits.toNat_stop {i : Instruction} (h : i.Fits) :
    i.stop.toNat = i.address.toNat + i.bytes.length := by
  obtain ⟨_, hlt⟩ := h
  have hlen : i.bytes.length < UInt32.size := show _ < 0x100000000 by omega
  have hsize : i.size.toNat = i.bytes.length := UInt32.toNat_ofNat_of_lt' hlen
  rw [Instruction.stop, UInt32.toNat_add, hsize, Nat.mod_eq_of_lt hlt]

/-- **A gap-free stretch.** The instructions lie one behind the other, from an address up to another one. -/
def Tiles : UInt32 → List Instruction → UInt32 → Prop
  | a, [], b => a = b
  | a, i :: rest, b => i.address = a ∧ Tiles i.stop rest b

/-- Every instruction of a stretch lies between its two ends. -/
theorem Tiles.bounds {a b : UInt32} {is : List Instruction} (h : Tiles a is b) (hf : ∀ i ∈ is, i.Fits) :
    a.toNat ≤ b.toNat ∧ ∀ i ∈ is, a.toNat ≤ i.address.toNat ∧ i.address.toNat + i.bytes.length ≤ b.toNat := by
  induction is generalizing a with
  | nil =>
    have hab : a = b := h
    exact ⟨hab ▸ Nat.le_refl _, fun i hi => absurd hi List.not_mem_nil⟩
  | cons i rest ih =>
    obtain ⟨rfl, hrest⟩ := h
    have hstop := (hf i List.mem_cons_self).toNat_stop
    obtain ⟨hle, hall⟩ := ih hrest fun j hj => hf j (List.mem_cons_of_mem _ hj)
    refine ⟨by omega, fun j hj => ?_⟩
    rcases List.mem_cons.1 hj with rfl | hj
    · omega
    · have := hall j hj
      omega

/-- The instructions of a stretch are in the order of their addresses. -/
theorem Tiles.ordered {a b : UInt32} {is : List Instruction} (h : Tiles a is b) (hf : ∀ i ∈ is, i.Fits) :
    is.Pairwise fun i j => i.address.toNat + i.bytes.length ≤ j.address.toNat := by
  induction is generalizing a with
  | nil => exact List.Pairwise.nil
  | cons i rest ih =>
    have hrest : ∀ j ∈ rest, j.Fits := fun j hj => hf j (List.mem_cons_of_mem _ hj)
    refine List.pairwise_cons.2 ⟨fun j hj => ?_, ih h.2 hrest⟩
    have hj := ((h.2.bounds hrest).2 j hj).1
    rw [(hf i List.mem_cons_self).toNat_stop] at hj
    exact hj

theorem Tiles.distinct {a b : UInt32} {is : List Instruction} (h : Tiles a is b) (hf : ∀ i ∈ is, i.Fits) :
    is.Pairwise fun i j => i.address ≠ j.address := by
  refine List.Pairwise.imp_of_mem (fun {i j} hi _ hle heq => ?_) (h.ordered hf)
  have hpos := (hf i hi).1
  rw [heq] at hle
  omega

/-- Of two instructions of a stretch one ends before the other begins. -/
theorem Tiles.apart {a b : UInt32} {is : List Instruction} (h : Tiles a is b) (hf : ∀ i ∈ is, i.Fits)
    {i j : Instruction} (hi : i ∈ is) (hj : j ∈ is) :
    i = j ∨ i.address.toNat + i.bytes.length ≤ j.address.toNat ∨
      j.address.toNat + j.bytes.length ≤ i.address.toNat := by
  have hordered := h.ordered hf
  clear h hf
  induction is with
  | nil => exact absurd hi List.not_mem_nil
  | cons k rest ih =>
    obtain ⟨hk, hrest⟩ := List.pairwise_cons.1 hordered
    rcases List.mem_cons.1 hi with hi' | hi' <;> rcases List.mem_cons.1 hj with hj' | hj'
    · exact .inl (hi'.trans hj'.symm)
    · exact .inr (.inl (hi' ▸ hk j hj'))
    · exact .inr (.inr (hj' ▸ hk i hi'))
    · exact ih hi' hj' hrest

/-- Every address between the two ends of a stretch belongs to one of its instructions. -/
theorem Tiles.exists_covering {a b : UInt32} {is : List Instruction} (h : Tiles a is b) (hf : ∀ i ∈ is, i.Fits)
    {u : Nat} (ha : a.toNat ≤ u) (hb : u < b.toNat) :
    ∃ i ∈ is, i.address.toNat ≤ u ∧ u < i.address.toNat + i.bytes.length := by
  induction is generalizing a with
  | nil =>
    have hab : a = b := h
    rw [hab] at ha
    omega
  | cons i rest ih =>
    obtain ⟨rfl, hrest⟩ := h
    by_cases hu : u < i.address.toNat + i.bytes.length
    · exact ⟨i, List.mem_cons_self, ha, hu⟩
    · have hstop := (hf i List.mem_cons_self).toNat_stop
      obtain ⟨j, hj, hcover⟩ := ih hrest (fun j hj => hf j (List.mem_cons_of_mem _ hj)) (by omega)
      exact ⟨j, List.mem_cons_of_mem _ hj, hcover⟩

/-- Instructions of even lengths lie at even addresses when the first of them does. -/
theorem Tiles.even {a b : UInt32} {is : List Instruction} (h : Tiles a is b) (hf : ∀ i ∈ is, i.Fits)
    (hlen : ∀ i ∈ is, i.bytes.length % 2 = 0) (ha : a.toNat % 2 = 0) : ∀ i ∈ is, i.address.toNat % 2 = 0 := by
  induction is generalizing a with
  | nil => exact fun i hi => absurd hi List.not_mem_nil
  | cons i rest ih =>
    obtain ⟨rfl, hrest⟩ := h
    have hstop := (hf i List.mem_cons_self).toNat_stop
    have heven := hlen i List.mem_cons_self
    intro j hj
    rcases List.mem_cons.1 hj with rfl | hj
    · exact ha
    · exact ih hrest (fun k hk => hf k (List.mem_cons_of_mem _ hk))
        (fun k hk => hlen k (List.mem_cons_of_mem _ hk)) (by omega) j hj

/-! ## Single instructions -/

/-- **Decoding is local.** An instruction is decoded from its own bytes just as from the code that begins with
    them. -/
theorem decode_bytes {code : Bytes} {address : UInt32} {i : Instruction} (h : decode code address = some i) :
    decode i.bytes address = some i := by
  unfold decode at h
  split at h
  · rename_i b0 b1 rest
    dsimp only at h
    split at h
    · rename_i hw
      split at h
      · obtain ⟨op, hop, rfl⟩ := Option.map_eq_some_iff.1 h
        simp only [Operation.toInstruction, decode, if_pos hw, hop, Option.map_some]
      · cases h
    · rename_i hw
      obtain ⟨op, hop, rfl⟩ := Option.map_eq_some_iff.1 h
      simp only [Operation.toInstruction, decode, if_neg hw, hop, Option.map_some]
  · cases h

/-- **An instruction of some code** that begins at `base`: the one decoded from the bytes at its address. -/
def DecodedIn (code : Bytes) (base : UInt32) (i : Instruction) : Prop :=
  base.toNat ≤ i.address.toNat ∧ decode (code.drop (i.address.toNat - base.toNat)) i.address = some i

/-- An instruction of some code ends within it. -/
theorem DecodedIn.stop_le {code : Bytes} {base : UInt32} {i : Instruction} (h : DecodedIn code base i) :
    i.address.toNat + i.bytes.length ≤ base.toNat + code.length := by
  obtain ⟨hbase, hdecode⟩ := h
  have hle := length_le_of_decode hdecode
  have hlen := length_of_decode hdecode
  rw [List.length_drop] at hle
  omega

theorem DecodedIn.fits {code : Bytes} {base : UInt32} {i : Instruction} (h : DecodedIn code base i)
    (hcode : base.toNat + code.length < 0x100000000) : i.Fits := by
  have hstop := h.stop_le
  have hlen := length_of_decode h.2
  exact ⟨by omega, by omega⟩

/-- The bytes of an instruction are those of the code at its place. -/
theorem DecodedIn.slice {code : Bytes} {base : UInt32} {i : Instruction} (h : DecodedIn code base i) :
    Bytes.slice? code (i.address.toNat - base.toNat) i.bytes.length = some i.bytes := by
  have hstop := h.stop_le
  have hbase := h.1
  exact Bytes.slice?_eq_some.2 ⟨by omega, bytes_of_decode h.2⟩

/-! ## Runs -/

/-- **What a run is.** Its instructions are a gap-free stretch of the code from `address` on. None but the one at
    `start` lies at a known address, and the stretch ends before a known address or where nothing is decoded. -/
structure Spans (known : UInt32 → Bool) (code : Bytes) (base start address : UInt32) (run : Run) : Prop where
  /-- There is no gap. -/
  tiles : Tiles address run.instructions run.stop
  /-- All instructions are those of the code. -/
  decoded : ∀ i ∈ run.instructions, DecodedIn code base i
  /-- Known addresses are left alone. -/
  fresh : ∀ i ∈ run.instructions, i.address ≠ start → known i.address = false
  /-- Nothing but a known address cuts the run short. -/
  ended : (run.stop ≠ start ∧ known run.stop = true) ∨
    decode (code.drop (run.stop.toNat - base.toNat)) run.stop = none

/-- **Decoding yields a run**, as long as the addresses of the code do not wrap around. -/
theorem decodeFrom_spans {known : UInt32 → Bool} {code : Bytes} {base start address : UInt32}
    (hcode : base.toNat + code.length < 0x100000000) (hbase : base.toNat ≤ address.toNat) :
    Spans known code base start address
      (decodeFrom known base start address (code.drop (address.toNat - base.toNat))) := by
  -- The recursion is on the rest of the code, which begins at `address` all along.
  generalize hrest : code.drop (address.toNat - base.toNat) = rest
  fun_induction decodeFrom known base start address rest with
  | case1 address rest hend =>
    refine ⟨rfl, by simp, by simp, .inl ?_⟩
    have hge : ¬address < base := by rw [UInt32.lt_iff_toNat_lt]; omega
    simpa [hge] using hend
  | case2 address rest _ hnone => exact ⟨rfl, by simp, by simp, .inr (by rw [hrest]; exact hnone)⟩
  | case3 address rest hgo i hi run ih =>
    have haddress := address_of_decode hi
    have hin : DecodedIn code base i := by
      rw [DecodedIn, haddress, hrest]
      exact ⟨hbase, hi⟩
    have hstop := (hin.fits hcode).toNat_stop
    rw [haddress] at hstop
    have hdrop : code.drop (i.stop.toNat - base.toNat) = rest.drop i.bytes.length := by
      rw [← hrest, List.drop_drop]
      congr 1
      omega
    -- The rest is a run from the end of this instruction, by the induction hypothesis.
    have hspans := ih (by omega) hdrop
    refine ⟨⟨haddress, hspans.tiles⟩, ?_, ?_, hspans.ended⟩
    · intro j hj
      rcases List.mem_cons.1 hj with rfl | hj
      · exact hin
      · exact hspans.decoded j hj
    · intro j hj hne
      rcases List.mem_cons.1 hj with rfl | hj
      · rw [haddress] at hne ⊢
        simp only [Bool.or_eq_true, Bool.and_eq_true, decide_eq_true_eq, not_or, not_and] at hgo
        exact Bool.eq_false_iff.2 (hgo.1 hne)
      · exact hspans.fresh j hj hne

theorem decodeUntil_spans {known : UInt32 → Bool} {code : Bytes} {base start : UInt32}
    (hcode : base.toNat + code.length < 0x100000000) (hbase : base.toNat ≤ start.toNat) :
    Spans known code base start start (decodeUntil known code base start) := by
  have hge : ¬start < base := by rw [UInt32.lt_iff_toNat_lt]; omega
  rw [decodeUntil, if_neg hge]
  exact decodeFrom_spans hcode hbase

end BinaryPatching.Thumb
