import BinaryPatching.Patch.Apply
import BinaryPatching.Patch.Log
import Mathlib.Data.List.Basic
import Mathlib.Data.List.Induction
import Mathlib.Tactic.Push

/-!
# `BinaryPatching.Proofs.Patch.Materialize` — which write a patch gets its bytes from

A record of writes comes to one patch for every offset that was written to. The patches are looked at position by
position: of all writes that cover a position, the patches show the last of those that start *highest*, while a
working copy shows the *last* one. The two need not be the same write.

## Contents
- `Bytes.placed?`, `Write.byteAt?`, `Patch.byteAt?`: the byte that lands on a position.
- `PatchLog.covering`, `PatchLog.latest?`, `PatchLog.highest?`: the writes that cover a position, and the two that
  count.
- `topByte?`: the byte that a list of patches shows at a position.
- `PatchLog.ascending_materialize`, `PatchLog.forall_mem_materialize`: the order of the patches, and what holds of
  each of them.
- `PatchLog.topByte?_materialize`: the patches show the highest write.
-/

namespace BinaryPatching

/-! ## Bytes at positions -/

/-- The byte that lands on a position when bytes are put at an offset. -/
def Bytes.placed? (start : Nat) (bytes : Bytes) (x : Nat) : Option UInt8 :=
  if start ≤ x then bytes[x - start]? else none

/-- After overwriting, a position holds the byte that landed there, or else what it held. -/
theorem Bytes.getElem?_overwrite {data bytes : Bytes} {start : Nat} (h : start + bytes.length ≤ data.length)
    (x : Nat) : (overwrite data start bytes)[x]? = (placed? start bytes x).or data[x]? := by
  unfold placed?
  by_cases hlo : start ≤ x
  · rw [if_pos hlo]
    by_cases hhi : x - start < bytes.length
    · have hx : start + (x - start) = x := by omega
      have hin := getElem?_overwrite_inside h hhi
      rw [hx] at hin
      rw [hin, List.getElem?_eq_getElem hhi]
      rfl
    · have hnone : bytes[x - start]? = none := List.getElem?_eq_none (Nat.not_lt.1 hhi)
      rw [getElem?_overwrite_outside h (.inr (by omega)), hnone]
      rfl
  · rw [if_neg hlo, getElem?_overwrite_outside h (.inl (by omega))]
    rfl

/-- The byte that a write puts on a position. -/
def Write.byteAt? (w : Write) (x : Nat) : Option UInt8 := Bytes.placed? w.offset.toNat w.written x

/-- Whether a write covers a position. -/
def Write.covers (w : Write) (x : Nat) : Bool := (w.byteAt? x).isSome

/-- A write covers the positions from its offset on, as far as it reaches. -/
theorem Write.covers_iff {w : Write} {x : Nat} :
    w.covers x = true ↔ w.offset.toNat ≤ x ∧ x < w.offset.toNat + w.written.length := by
  unfold covers byteAt? Bytes.placed?
  split
  · rename_i hle
    rw [Option.isSome_iff_ne_none, ne_eq, List.getElem?_eq_none_iff]
    omega
  · rename_i hlt
    exact iff_of_false Bool.false_ne_true fun h => hlt h.1

/-- The byte that a patch puts on a position. -/
def Patch.byteAt? (p : Patch) (x : Nat) : Option UInt8 := Bytes.placed? p.address.toNat p.patched x

/-- A joined patch shows the later write where that reaches, and what it showed before behind it. -/
theorem PatchLog.byteAt?_extend {p : Patch} {w : Write} (h : p.address = w.offset) (x : Nat) :
    (extend p w).byteAt? x = (w.byteAt? x).or (p.byteAt? x) := by
  unfold Patch.byteAt? Write.byteAt? Bytes.placed? extend
  split
  · rename_i hlen
    simp only [h]
    split
    · by_cases hx : x - w.offset.toNat < w.written.length
      · rw [List.getElem?_eq_getElem hx]
        rfl
      · rw [List.getElem?_eq_none (by omega), List.getElem?_eq_none (by omega)]
        rfl
    · rfl
  · rename_i hlen
    simp only [h]
    split
    · by_cases hx : x - w.offset.toNat < w.written.length
      · rw [List.getElem?_append_left hx, List.getElem?_eq_getElem hx]
        rfl
      · have hnone : w.written[x - w.offset.toNat]? = none := List.getElem?_eq_none (Nat.not_lt.1 hx)
        rw [List.getElem?_append_right (Nat.not_lt.1 hx), hnone, List.getElem?_drop, Option.none_or]
        congr 1
        omega
    · rfl

/-! ## The writes over a position -/

namespace PatchLog

/-- The writes that cover a position, in order. -/
def covering (writes : List Write) (x : Nat) : List Write := writes.filter (·.covers x)

/-- The write that a working copy shows at a position: the last one that covers it. -/
def latest? (log : PatchLog) (x : Nat) : Option Write := (covering log.writes x).getLast?

/-- The last of those writes that start highest. -/
def highestOf (writes : List Write) : Option Write :=
  (writes.filter fun w => writes.all (·.offset ≤ w.offset)).getLast?

/-- The write that the patches show at a position: of those that start highest among all that cover it, the last. -/
def highest? (log : PatchLog) (x : Nat) : Option Write := highestOf (covering log.writes x)

theorem covering_concat (writes : List Write) (w : Write) (x : Nat) :
    covering (writes ++ [w]) x = covering writes x ++ if w.covers x then [w] else [] := by
  unfold covering
  rw [List.filter_append]
  by_cases h : w.covers x = true <;> simp [h]

/-- A further write is the highest one when nothing starts above it. -/
theorem highestOf_concat_of_le {writes : List Write} {w : Write} (h : ∀ v ∈ writes, v.offset ≤ w.offset) :
    highestOf (writes ++ [w]) = some w := by
  have hall : (writes ++ [w]).all (fun v => decide (v.offset ≤ w.offset)) = true := by
    rw [List.all_eq_true]
    intro v hv
    rcases List.mem_append.1 hv with hv | hv
    · exact decide_eq_true (h v hv)
    · rw [List.mem_singleton.1 hv]
      exact decide_eq_true (UInt32.le_refl _)
  unfold highestOf
  rw [List.filter_append, List.filter_singleton, hall, cond_true, List.getLast?_concat]

/-- A further write does not count when another one starts above it. -/
theorem highestOf_concat_of_lt {writes : List Write} {v w : Write} (hv : v ∈ writes) (h : w.offset < v.offset) :
    highestOf (writes ++ [w]) = highestOf writes := by
  have hnot : (writes ++ [w]).all (fun u => decide (u.offset ≤ w.offset)) = false := by
    rw [List.all_eq_false]
    refine ⟨v, List.mem_append_left _ hv, ?_⟩
    simpa using h
  have hsame : ∀ u ∈ writes, (writes ++ [w]).all (fun t => decide (t.offset ≤ u.offset))
      = writes.all (fun t => decide (t.offset ≤ u.offset)) := by
    intro u _
    rw [List.all_append]
    cases hu : writes.all (fun t => decide (t.offset ≤ u.offset)) with
    | false => rfl
    | true =>
      have hvu : v.offset ≤ u.offset := of_decide_eq_true (List.all_eq_true.1 hu v hv)
      have hwu : w.offset ≤ u.offset := UInt32.le_of_lt (UInt32.lt_of_lt_of_le h hvu)
      simp [hwu]
  unfold highestOf
  rw [List.filter_append, List.filter_singleton, hnot, cond_false, List.append_nil, List.filter_congr hsame]

/-- The highest write is one of them, and nothing starts above it. -/
theorem highestOf_eq_some {writes : List Write} {v : Write} (h : highestOf writes = some v) :
    v ∈ writes ∧ ∀ u ∈ writes, u.offset ≤ v.offset := by
  obtain ⟨hm, hall⟩ := List.mem_filter.1 (List.mem_of_getLast? h)
  exact ⟨hm, fun u hu => of_decide_eq_true (List.all_eq_true.1 hall u hu)⟩

/-- Among some writes there is a highest one. -/
theorem highestOf_ne_none {writes : List Write} (h : writes ≠ []) : highestOf writes ≠ none := by
  induction writes using List.reverseRecOn with
  | nil => exact absurd rfl h
  | append_singleton rest w ih =>
    by_cases hle : ∀ v ∈ rest, v.offset ≤ w.offset
    · rw [highestOf_concat_of_le hle]
      exact Option.some_ne_none w
    · push Not at hle
      obtain ⟨v, hv, hlt⟩ := hle
      rw [highestOf_concat_of_lt hv (UInt32.not_le.1 hlt)]
      exact ih (List.ne_nil_of_mem hv)

/-- **One further write.** It takes over unless the one before starts above it. -/
theorem highestOf_concat (writes : List Write) (w : Write) :
    highestOf (writes ++ [w]) = match highestOf writes with
      | some v => if w.offset < v.offset then some v else some w
      | none => some w := by
  by_cases hle : ∀ v ∈ writes, v.offset ≤ w.offset
  · rw [highestOf_concat_of_le hle]
    split
    · rename_i v hv
      rw [if_neg (UInt32.not_lt.2 (hle v (highestOf_eq_some hv).1))]
    · rfl
  · push Not at hle
    obtain ⟨u, hu, hlt⟩ := hle
    have hwu : w.offset < u.offset := UInt32.not_le.1 hlt
    rw [highestOf_concat_of_lt hu hwu]
    split
    · rename_i v hv
      rw [hv, if_pos (UInt32.lt_of_lt_of_le hwu ((highestOf_eq_some hv).2 u hu))]
    · rename_i hn
      exact absurd hn (highestOf_ne_none (List.ne_nil_of_mem hu))

/-! ## The order of the patches, and what holds of each -/

theorem materialize_concat (writes : List Write) (w : Write) :
    materialize ⟨writes ++ [w]⟩ = absorb w (materialize ⟨writes⟩) := by
  simp [materialize]

/-- After a write every patch is a new one, an old one, or an old one joined with the write. -/
theorem mem_absorb {w : Write} {p : Patch} {patches : List Patch} (h : p ∈ absorb w patches) :
    p = patchOf w ∨ p ∈ patches ∨ ∃ q ∈ patches, q.address = w.offset ∧ p = extend q w := by
  induction patches with
  | nil =>
    rw [absorb, List.mem_singleton] at h
    exact .inl h
  | cons q rest ih =>
    unfold absorb at h
    split at h
    · rcases List.mem_cons.1 h with h | h
      · exact .inl h
      · exact .inr (.inl h)
    · split at h
      · rename_i heq
        rcases List.mem_cons.1 h with h | h
        · exact .inr (.inr ⟨q, List.mem_cons_self, heq.symm, h⟩)
        · exact .inr (.inl (List.mem_cons_of_mem _ h))
      · rcases List.mem_cons.1 h with h | h
        · exact .inr (.inl (h ▸ List.mem_cons_self))
        · rcases ih h with h | h | ⟨r, hr, ha, he⟩
          · exact .inl h
          · exact .inr (.inl (List.mem_cons_of_mem _ h))
          · exact .inr (.inr ⟨r, List.mem_cons_of_mem _ hr, ha, he⟩)

/-- **What holds of every patch.** It is enough that it holds of the patch of every single write, and that joining
    a write keeps it. -/
theorem forall_mem_materialize {P : Patch → Prop} {writes : List Write} (hsingle : ∀ w ∈ writes, P (patchOf w))
    (hjoin : ∀ w ∈ writes, ∀ q, P q → q.address = w.offset → P (extend q w)) :
    ∀ p ∈ materialize ⟨writes⟩, P p := by
  induction writes using List.reverseRecOn with
  | nil => intro p hp; cases hp
  | append_singleton rest w ih =>
    intro p hp
    have ih' := ih (fun v hv => hsingle v (List.mem_append_left _ hv))
      (fun v hv => hjoin v (List.mem_append_left _ hv))
    have hw : w ∈ rest ++ [w] := List.mem_append_right _ (List.mem_singleton_self w)
    rw [materialize_concat] at hp
    rcases mem_absorb hp with rfl | hp | ⟨q, hq, ha, rfl⟩
    · exact hsingle w hw
    · exact ih' p hp
    · exact hjoin w hw q (ih' q hq) ha

@[simp] theorem address_extend (p : Patch) (w : Write) : (extend p w).address = p.address := by
  unfold extend
  split <;> rfl

theorem size_extend (p : Patch) (w : Write) : (extend p w).size = max p.size w.written.length := by
  unfold extend Patch.size
  split
  · show w.written.length = _
    omega
  · show (w.written ++ p.patched.drop w.written.length).length = _
    rw [List.length_append, List.length_drop]
    omega

/-- A patch that changes no size still does not once it is joined with a write of as many bytes as that replaced. -/
theorem length_unpatched_extend {p : Patch} {w : Write} (hp : p.unpatched.length = p.size)
    (hw : w.replaced.length = w.written.length) : (extend p w).unpatched.length = (extend p w).size := by
  rw [size_extend]
  unfold Patch.size at hp ⊢
  unfold extend
  split
  · show (p.unpatched ++ w.replaced.drop (min p.unpatched.length w.replaced.length)).length = _
    rw [List.length_append, List.length_drop]
    omega
  · show p.unpatched.length = _
    omega

/-- A write keeps the patches in ascending order. -/
theorem ascending_absorb {w : Write} {patches : List Patch}
    (h : patches.Pairwise fun p q => p.address < q.address) :
    (absorb w patches).Pairwise fun p q => p.address < q.address := by
  induction patches with
  | nil => exact List.pairwise_singleton _ _
  | cons p rest ih =>
    obtain ⟨hp, hrest⟩ := List.pairwise_cons.1 h
    unfold absorb
    split
    · rename_i hlt
      refine List.pairwise_cons.2 ⟨fun q hq => ?_, h⟩
      rcases List.mem_cons.1 hq with rfl | hq
      · exact hlt
      · exact UInt32.lt_trans hlt (hp q hq)
    · split
      · refine List.pairwise_cons.2 ⟨fun q hq => ?_, hrest⟩
        rw [address_extend]
        exact hp q hq
      · rename_i hge hne
        refine List.pairwise_cons.2 ⟨fun q hq => ?_, ih hrest⟩
        have hlt : p.address < w.offset := UInt32.lt_of_le_of_ne (UInt32.not_lt.1 hge) (Ne.symm hne)
        rcases mem_absorb hq with rfl | hq | ⟨r, hr, _, rfl⟩
        · exact hlt
        · exact hp q hq
        · rw [address_extend]
          exact hp r hr

/-- **The patches ascend**, so that no two have the same address. -/
theorem ascending_materialize (log : PatchLog) :
    log.materialize.Pairwise fun p q => p.address < q.address := by
  obtain ⟨writes⟩ := log
  induction writes using List.reverseRecOn with
  | nil => exact List.Pairwise.nil
  | append_singleton rest w ih =>
    rw [materialize_concat]
    exact ascending_absorb ih

/-- **No patch changes the size of its file**, provided every write put as many bytes as it replaced. -/
theorem length_unpatched_materialize {log : PatchLog}
    (h : ∀ w ∈ log.writes, w.replaced.length = w.written.length) :
    ∀ p ∈ log.materialize, p.unpatched.length = p.patched.length :=
  forall_mem_materialize h fun w hw _ hq _ => length_unpatched_extend hq (h w hw)

/-- The patches lie in the data when the writes do. -/
theorem stop_materialize_le {log : PatchLog} {n : Nat}
    (h : ∀ w ∈ log.writes, w.offset.toNat + w.written.length ≤ n) : ∀ p ∈ log.materialize, p.stop ≤ n := by
  refine forall_mem_materialize h fun w hw q hq ha => ?_
  have hw' := h w hw
  unfold Patch.stop at hq ⊢
  rw [address_extend, size_extend]
  rw [← ha] at hw'
  omega

end PatchLog

/-! ## The bytes that patches show -/

/-- The byte that ascending patches show at a position, with the address of the patch that puts it there: the highest
    one that covers the position. -/
def topByte? : List Patch → Nat → Option (UInt32 × UInt8)
  | [], _ => none
  | p :: rest, x => (topByte? rest x).or ((p.byteAt? x).map (p.address, ·))

theorem exists_mem_of_topByte? {patches : List Patch} {x : Nat} {a : UInt32} {b : UInt8}
    (h : topByte? patches x = some (a, b)) : ∃ p ∈ patches, p.address = a := by
  induction patches with
  | nil => cases h
  | cons p rest ih =>
    rw [topByte?] at h
    cases hr : topByte? rest x with
    | none =>
      rw [hr, Option.none_or] at h
      obtain ⟨c, _, hc⟩ := Option.map_eq_some_iff.1 h
      exact ⟨p, List.mem_cons_self, congrArg Prod.fst hc⟩
    | some ac =>
      rw [hr, Option.some_or] at h
      obtain ⟨q, hq, ha⟩ := ih (hr.trans h)
      exact ⟨q, List.mem_cons_of_mem _ hq, ha⟩

/-- What shows after a further write: its byte, unless what showed before starts above it. -/
def upper : Option (UInt32 × UInt8) → Option (UInt32 × UInt8) → Option (UInt32 × UInt8)
  | some shown, some new => if new.1 < shown.1 then some shown else some new
  | shown, none => shown
  | none, new => new

/-- A patch below all others shows only where no other one does. -/
theorem upper_eq_or {shown : Option (UInt32 × UInt8)} {a : UInt32} (h : ∀ ab, shown = some ab → a < ab.1)
    (b : Option UInt8) : upper shown (b.map (a, ·)) = shown.or (b.map (a, ·)) := by
  cases shown with
  | none => cases b <;> rfl
  | some ab =>
    cases b with
    | none => rfl
    | some b => exact if_pos (h ab rfl)

theorem lt_of_topByte? {patches : List Patch} {a : UInt32} (h : ∀ p ∈ patches, a < p.address) {x : Nat}
    (ab : UInt32 × UInt8) (hx : topByte? patches x = some ab) : a < ab.1 := by
  obtain ⟨p, hp, ha⟩ := exists_mem_of_topByte? (a := ab.1) (b := ab.2) hx
  exact ha ▸ h p hp

/-- **One further write** shows where it reaches, except where a patch with a higher address shows. -/
theorem topByte?_absorb {w : Write} {patches : List Patch}
    (h : patches.Pairwise fun p q => p.address < q.address) (x : Nat) :
    topByte? (PatchLog.absorb w patches) x = upper (topByte? patches x) ((w.byteAt? x).map (w.offset, ·)) := by
  induction patches with
  | nil =>
    show none.or ((w.byteAt? x).map (w.offset, ·)) = upper none ((w.byteAt? x).map (w.offset, ·))
    cases w.byteAt? x <;> rfl
  | cons p rest ih =>
    obtain ⟨hp, hrest⟩ := List.pairwise_cons.1 h
    unfold PatchLog.absorb
    split
    · rename_i hlt
      have hall : ∀ q ∈ p :: rest, w.offset < q.address := by
        intro q hq
        rcases List.mem_cons.1 hq with rfl | hq
        · exact hlt
        · exact UInt32.lt_trans hlt (hp q hq)
      exact (upper_eq_or (lt_of_topByte? hall) _).symm
    · rename_i hge
      split
      · rename_i heq
        -- The write joins the lowest patch, and all others start above both.
        have hle := lt_of_topByte? hp (x := x)
        rw [topByte?, topByte?, PatchLog.address_extend, PatchLog.byteAt?_extend heq.symm, heq]
        cases hr : topByte? rest x with
        | none =>
          cases w.byteAt? x with
          | none => cases p.byteAt? x <;> rfl
          | some b => cases p.byteAt? x <;> simp [upper]
        | some ab =>
          cases w.byteAt? x with
          | none => rfl
          | some b => exact (if_pos (hle ab hr)).symm
      · rename_i hne
        have hlt : p.address < w.offset := UInt32.lt_of_le_of_ne (UInt32.not_lt.1 hge) (Ne.symm hne)
        rw [topByte?, topByte?, ih hrest]
        cases topByte? rest x with
        | none =>
          cases w.byteAt? x with
          | none => cases p.byteAt? x <;> rfl
          | some b =>
            cases p.byteAt? x with
            | none => rfl
            | some c => exact (if_neg (UInt32.not_lt.2 (UInt32.le_of_lt hlt))).symm
        | some ab =>
          cases w.byteAt? x with
          | none => rfl
          | some b =>
            show (if w.offset < ab.1 then some ab else some (w.offset, b)).or _ = _
            by_cases hw : w.offset < ab.1
            · simp [upper, hw]
            · simp [upper, hw]

/-- **The patches show the highest write**: at every position the byte of the last of those writes over it that start
    highest. -/
theorem topByte?_materialize (log : PatchLog) (x : Nat) :
    topByte? log.materialize x = (log.highest? x).bind fun w => (w.byteAt? x).map (w.offset, ·) := by
  obtain ⟨writes⟩ := log
  induction writes using List.reverseRecOn with
  | nil => rfl
  | append_singleton rest w ih =>
    rw [PatchLog.materialize_concat, topByte?_absorb (PatchLog.ascending_materialize ⟨rest⟩), ih]
    unfold PatchLog.highest?
    rw [PatchLog.covering_concat]
    cases hw : w.byteAt? x with
    | none =>
      have hc : w.covers x = false := by rw [Write.covers, hw]; rfl
      rw [hc, if_neg Bool.false_ne_true, List.append_nil]
      cases (PatchLog.highestOf (PatchLog.covering rest x)).bind fun w => (w.byteAt? x).map (w.offset, ·) <;> rfl
    | some b =>
      have hc : w.covers x = true := by rw [Write.covers, hw]; rfl
      rw [hc, if_pos rfl, PatchLog.highestOf_concat]
      cases hv : PatchLog.highestOf (PatchLog.covering rest x) with
      | none => simp [upper, hw]
      | some v =>
        obtain ⟨c, hc⟩ := Option.isSome_iff_exists.1 (List.mem_filter.1 (PatchLog.highestOf_eq_some hv).1).2
        show upper ((v.byteAt? x).map (v.offset, ·)) _ = _
        rw [hc]
        show (if w.offset < v.offset then some (v.offset, c) else some (w.offset, b)) = _
        by_cases hlt : w.offset < v.offset
        · simp [hlt, hc]
        · simp [hlt, hw]

/-- **Patches put in one after the other** leave on every position the byte that they show there. -/
theorem TargetFile.applyPatches_eq {data : Bytes} {patches : List Patch} (h : ∀ p ∈ patches, p.stop ≤ data.length) :
    ∃ r, applyPatches data patches = (.ok (), r) ∧
      ∀ x, r[x]? = ((topByte? patches x).map Prod.snd).or data[x]? := by
  induction patches generalizing data with
  | nil => exact ⟨data, rfl, fun x => rfl⟩
  | cons p rest ih =>
    have hp : p.address.toNat + p.patched.length ≤ data.length := h p List.mem_cons_self
    have hrest : ∀ q ∈ rest, q.stop ≤ (Bytes.overwrite data p.address.toNat p.patched).length := by
      intro q hq
      rw [Bytes.length_overwrite hp]
      exact h q (List.mem_cons_of_mem _ hq)
    obtain ⟨r, hr, hx⟩ := ih hrest
    refine ⟨r, ?_, fun x => ?_⟩
    · rw [applyPatches, if_neg (Nat.not_lt.2 (h p List.mem_cons_self)), hr]
    · rw [hx x, Bytes.getElem?_overwrite hp, topByte?]
      cases topByte? rest x with
      | some ab => rfl
      | none =>
        show (p.byteAt? x).or data[x]? = ((Option.map (p.address, ·) (p.byteAt? x)).map Prod.snd).or data[x]?
        cases p.byteAt? x <;> rfl

end BinaryPatching
