import BinaryPatching.Proofs.Thumb.Run

/-!
# `BinaryPatching.Proofs.Thumb.LinearDecoding` — decoding straight through some code

Decoding straight through takes one instruction after the other, each at the address where the one before it ends, until
there is none. `decodeAll` is defined by recursion on the rest of the code. Here the run is described from its addresses
instead, by what is taken at each of them, and the bytes of its instructions are those of the code up to the address at
which it stops.

## Contents
- `next?`: the instruction at an address.
- `Sweeps`: a run that has come to its end, with `Sweeps.unique`.
- `sweeps_of_tiles`: a gap-free stretch of the code that nothing follows is such a run.
- `Tiles.flatMap_bytes`: the bytes of a stretch.
- `decodeAll_tiles`: what `decodeAll` yields.
-/

namespace BinaryPatching.Thumb

/-! ## Runs from their addresses -/

/-- **The instruction at an address** of the code that begins at `base`. There is none before the code or behind it. -/
def next? (code : Bytes) (base address : UInt32) : Option Instruction :=
  if address < base then none else decode (code.drop (address.toNat - base.toNat)) address

/-- **A run that has come to its end**: from an address on, the instructions taken one after the other, and the address
at which there is none. -/
inductive Sweeps (code : Bytes) (base : UInt32) : UInt32 → List Instruction → UInt32 → Prop where
  /-- There is no instruction at the address. -/
  | stop {address : UInt32} (hnone : next? code base address = none) : Sweeps code base address [] address
  /-- There is one, and the run goes on where it ends. -/
  | step {address stop : UInt32} {i : Instruction} {rest : List Instruction} (hnext : next? code base address = some i)
    (hrest : Sweeps code base i.stop rest stop) : Sweeps code base address (i :: rest) stop

section Sweeping

variable {code : Bytes} {base : UInt32}

theorem next?_of_le {address : UInt32} (h : base.toNat ≤ address.toNat) :
    next? code base address = decode (code.drop (address.toNat - base.toNat)) address := by
  have hge : ¬address < base := by rw [UInt32.lt_iff_toNat_lt]; omega
  exact if_neg hge

/-- An instruction of the code is the one at its address. -/
theorem DecodedIn.next? {i : Instruction} (h : DecodedIn code base i) : Thumb.next? code base i.address = some i :=
  (next?_of_le h.1).trans h.2

/-- **A run is determined** by where it begins. -/
theorem Sweeps.unique {address stop stop' : UInt32} {is is' : List Instruction} (h : Sweeps code base address is stop)
    (h' : Sweeps code base address is' stop') : is = is' ∧ stop = stop' := by
  induction h generalizing is' stop' with
  | stop hnone =>
    cases h' with
    | stop => exact ⟨rfl, rfl⟩
    | step hnext =>
      rw [hnone] at hnext
      cases hnext
  | step hnext _ ih =>
    cases h' with
    | stop hnone =>
      rw [hnext] at hnone
      cases hnone
    | step hnext' hrest' =>
      rw [hnext] at hnext'
      cases hnext'
      obtain ⟨rfl, rfl⟩ := ih hrest'
      exact ⟨rfl, rfl⟩

/-- **A gap-free stretch that nothing follows** is a run. -/
theorem sweeps_of_tiles {address stop : UInt32} {is : List Instruction} (htiles : Tiles address is stop)
    (hdecoded : ∀ i ∈ is, DecodedIn code base i) (hend : next? code base stop = none) :
    Sweeps code base address is stop := by
  induction is generalizing address with
  | nil =>
    have haddress : address = stop := htiles
    rw [haddress]
    exact .stop hend
  | cons i rest ih =>
    obtain ⟨rfl, hrest⟩ := htiles
    exact .step (hdecoded i List.mem_cons_self).next? (ih hrest fun j hj => hdecoded j (List.mem_cons_of_mem i hj))

/-- **The bytes of a gap-free stretch** of the code are those between its two ends. -/
theorem Tiles.flatMap_bytes {address stop : UInt32} {is : List Instruction} (htiles : Tiles address is stop)
    (hcode : base.toNat + code.length < 0x100000000) (hdecoded : ∀ i ∈ is, DecodedIn code base i)
    (hbase : base.toNat ≤ address.toNat) :
    is.flatMap (·.bytes) = code.extract (address.toNat - base.toNat) (stop.toNat - base.toNat) := by
  induction is generalizing address with
  | nil =>
    have haddress : address = stop := htiles
    simp [haddress]
  | cons i rest ih =>
    obtain ⟨rfl, hrest⟩ := htiles
    have hbehind : ∀ j ∈ rest, DecodedIn code base j := fun j hj => hdecoded j (List.mem_cons_of_mem i hj)
    have hi := hdecoded i List.mem_cons_self
    have hstop := (hi.fits hcode).toNat_stop
    have hle : i.stop.toNat ≤ stop.toNat := (hrest.bounds fun j hj => (hbehind j hj).fits hcode).1
    have hbytes : i.bytes = (code.drop (i.address.toNat - base.toNat)).take i.bytes.length := bytes_of_decode hi.2
    -- The bytes of the rest begin where those of this instruction end.
    have hsplit : i.stop.toNat - base.toNat = i.address.toNat - base.toNat + i.bytes.length := by omega
    have hlength : stop.toNat - base.toNat - (i.address.toNat - base.toNat)
        = i.bytes.length + (stop.toNat - base.toNat - (i.stop.toNat - base.toNat)) := by omega
    calc (i :: rest).flatMap (·.bytes)
        = i.bytes ++ code.extract (i.stop.toNat - base.toNat) (stop.toNat - base.toNat) := by
          rw [List.flatMap_cons, ih hrest hbehind (by omega)]
      _ = (code.drop (i.address.toNat - base.toNat)).take i.bytes.length
            ++ ((code.drop (i.address.toNat - base.toNat)).drop i.bytes.length).take
              (stop.toNat - base.toNat - (i.stop.toNat - base.toNat)) := by
          rw [← hbytes, List.drop_drop, ← hsplit, List.extract_eq_take_drop]
      _ = code.extract (i.address.toNat - base.toNat) (stop.toNat - base.toNat) := by
          rw [← List.take_add, ← hlength, List.extract_eq_take_drop]

/-- **A stretch of the code ends within it**, unless it is empty. -/
theorem Tiles.stop_le {address stop : UInt32} {is : List Instruction} (htiles : Tiles address is stop)
    (hcode : base.toNat + code.length < 0x100000000) (hdecoded : ∀ i ∈ is, DecodedIn code base i) :
    stop.toNat ≤ base.toNat + code.length ∨ stop = address := by
  induction is generalizing address with
  | nil =>
    have haddress : address = stop := htiles
    exact .inr haddress.symm
  | cons i rest ih =>
    have hi := hdecoded i List.mem_cons_self
    have hstop := (hi.fits hcode).toNat_stop
    have hend := hi.stop_le
    rcases ih htiles.2 fun j hj => hdecoded j (List.mem_cons_of_mem i hj) with hle | heq
    · exact .inl hle
    · rw [heq]
      exact .inl (by omega)

end Sweeping

/-! ## Decoding straight through -/

/-- Instructions of at least two bytes are at most half as many as their bytes. -/
theorem two_mul_length_le {is : List Instruction} (h : ∀ i ∈ is, i.bytes.length = 2 ∨ i.bytes.length = 4) :
    2 * is.length ≤ (is.flatMap (·.bytes)).length := by
  induction is with
  | nil => exact Nat.zero_le _
  | cons i rest ih =>
    have hi := h i List.mem_cons_self
    have hrest := ih fun j hj => h j (List.mem_cons_of_mem i hj)
    rw [List.flatMap_cons, List.length_append, List.length_cons]
    omega

/-- **Decoding straight through tiles the code.** From an address at or behind the beginning of the code, the run comes
to its end after at most half as many instructions as there are bytes. Each instruction begins where the one before it
ends, the first at `start`, and has two or four bytes. Their bytes, one behind the other, are those of the code from
`start` up to the address at which the run stops; that lies in the code or at its end, or nothing was decoded; and nothing
can be decoded there. -/
theorem decodeAll_tiles {code : Bytes} {base start : UInt32} (hcode : base.toNat + code.length < 0x100000000)
    (hbase : base.toNat ≤ start.toNat) :
    Sweeps code base start (decodeAll code base start).instructions (decodeAll code base start).stop ∧
      2 * (decodeAll code base start).instructions.length ≤ code.length ∧
      Tiles start (decodeAll code base start).instructions (decodeAll code base start).stop ∧
      (∀ i ∈ (decodeAll code base start).instructions, i.bytes.length = 2 ∨ i.bytes.length = 4) ∧
      (decodeAll code base start).instructions.flatMap (·.bytes)
        = code.extract (start.toNat - base.toNat) ((decodeAll code base start).stop.toNat - base.toNat) ∧
      ((decodeAll code base start).stop.toNat ≤ base.toNat + code.length ∨ (decodeAll code base start).stop = start) ∧
      decode (code.drop ((decodeAll code base start).stop.toNat - base.toNat)) (decodeAll code base start).stop = none := by
  have hspans : Spans (fun _ => false) code base start start (decodeAll code base start) :=
    decodeUntil_spans hcode hbase
  generalize decodeAll code base start = run at hspans ⊢
  have hend : decode (code.drop (run.stop.toNat - base.toNat)) run.stop = none :=
    hspans.ended.resolve_left fun h => Bool.false_ne_true h.2
  have hfits : ∀ i ∈ run.instructions, i.Fits := fun i hi => (hspans.decoded i hi).fits hcode
  have hle : start.toNat ≤ run.stop.toNat := (hspans.tiles.bounds hfits).1
  have hlengths : ∀ i ∈ run.instructions, i.bytes.length = 2 ∨ i.bytes.length = 4 :=
    fun i hi => length_of_decode (hspans.decoded i hi).2
  have hbytes := hspans.tiles.flatMap_bytes hcode hspans.decoded hbase
  have hnone : next? code base run.stop = none := (next?_of_le (by omega)).trans hend
  refine ⟨sweeps_of_tiles hspans.tiles hspans.decoded hnone, ?_, hspans.tiles, hlengths, hbytes, ?_, hend⟩
  · have hhalf := two_mul_length_le hlengths
    rw [hbytes, List.extract_eq_take_drop, List.length_take, List.length_drop] at hhalf
    omega
  · exact hspans.tiles.stop_le hcode hspans.decoded

/-- Code with instructions of both lengths, behind two bytes that are passed over. The last one is cut short. -/
def mixedCode : Bytes := [0xFF, 0xFF, 0x00, 0xBF, 0x00, 0xF0, 0xFE, 0xFF, 0x70, 0x47, 0x46, 0xF2]

/-- The instructions of that code. -/
def mixedInstructions : List Instruction :=
  [⟨0xFFE, [0x00, 0xBF], "nop", ""⟩, ⟨0x1000, [0x00, 0xF0, 0xFE, 0xFF], "bl", "#0x2000"⟩,
    ⟨0x1004, [0x70, 0x47], "bx", "lr"⟩]

/-- That code, from behind the first two bytes, up to the instruction that is cut short. -/
theorem decodeAll_tiles_mixedCode :
    (0xFFC : UInt32).toNat + mixedCode.length < 0x100000000 ∧ (0xFFC : UInt32).toNat ≤ (0xFFE : UInt32).toNat ∧
      decodeAll mixedCode 0xFFC 0xFFE = ⟨mixedInstructions, 0x1006⟩ ∧
      Sweeps mixedCode 0xFFC 0xFFE mixedInstructions 0x1006 ∧ Tiles 0xFFE mixedInstructions 0x1006 ∧
      (∀ i ∈ mixedInstructions, i.bytes.length = 2 ∨ i.bytes.length = 4) ∧
      mixedInstructions.flatMap (·.bytes) = mixedCode.extract 2 10 ∧ decode [0x46, 0xF2] 0x1006 = none := by
  have hcode : (0xFFC : UInt32).toNat + mixedCode.length < 0x100000000 := by decide
  have hbase : (0xFFC : UInt32).toNat ≤ (0xFFE : UInt32).toNat := by decide
  have hrun : decodeAll mixedCode 0xFFC 0xFFE = ⟨mixedInstructions, 0x1006⟩ := by decide +kernel
  have htiles := decodeAll_tiles hcode hbase
  rw [hrun] at htiles
  obtain ⟨hsweeps, -, htiles, hlengths, hbytes, -, hend⟩ := htiles
  exact ⟨hcode, hbase, hrun, hsweeps, htiles, hlengths, hbytes, hend⟩

end BinaryPatching.Thumb
