import BinaryPatching.Proofs.Patch.Materialize
import Mathlib.Data.List.Nodup
import Mathlib.Logic.ExistsUnique

/-!
# `BinaryPatching.Proofs.Patch.Joining` — the one patch for every offset

The patches of a record are a table: under every offset stands what the writes at that offset come to, and the writes at
other offsets play no part in it. So a patch can be looked at by itself. It is as long as the longest of its writes, and
of the bytes that it has for those before it, each was replaced by the first of its writes that reached so far.

## Contents
- `PatchLog.writesAt`, `PatchLog.joined?`: the writes at an offset, and their patch.
- `PatchLog.find?_absorb`, `PatchLog.find?_materialize`, `PatchLog.mem_materialize_iff`: the table of all patches.
- `PatchLog.Joins`, `PatchLog.joins_of_joined?`, `PatchLog.joins_of_mem`: what a patch has from its writes.
- `PatchLog.existsUnique_of_write`: every write has one.
- `Write.reaches`, `PatchLog.within_iff_of_mem`: the positions of a patch.
-/

namespace BinaryPatching

/-- Whether a write starts at an offset and covers a position. -/
def Write.reaches (w : Write) (offset : UInt32) (x : Nat) : Bool := w.offset == offset && w.covers x

theorem Write.reaches_iff {w : Write} {offset : UInt32} {x : Nat} :
    w.reaches offset x = true ↔ w.offset = offset ∧ w.covers x = true := by
  rw [reaches, Bool.and_eq_true, beq_iff_eq]

namespace PatchLog

/-! ## The patch of some writes at one offset -/

/-- **The writes at an offset**, in order. -/
def writesAt (writes : List Write) (offset : UInt32) : List Write := writes.filter (·.offset == offset)

theorem writesAt_concat (writes : List Write) (w : Write) (offset : UInt32) :
    writesAt (writes ++ [w]) offset = writesAt writes offset ++ if w.offset = offset then [w] else [] := by
  unfold writesAt
  rw [List.filter_append]
  by_cases h : w.offset = offset <;> simp [h]

theorem mem_writesAt {writes : List Write} {offset : UInt32} {w : Write} :
    w ∈ writesAt writes offset ↔ w ∈ writes ∧ w.offset = offset := by
  rw [writesAt, List.mem_filter, beq_iff_eq]

/-- What there is so far, joined with a further write. -/
def joinOnto (p? : Option Patch) (w : Write) : Patch :=
  match p? with
  | none => patchOf w
  | some p => extend p w

/-- **The patch that some writes come to**, if there are any. -/
def joined? (writes : List Write) : Option Patch := writes.foldl (fun p? w => some (joinOnto p? w)) none

theorem joined?_concat (writes : List Write) (w : Write) :
    joined? (writes ++ [w]) = some (joinOnto (joined? writes) w) := by
  rw [joined?, List.foldl_append]
  rfl

/-! ## The table of all patches -/

/-- The first patch stands under its own address, and the rest under theirs. -/
theorem find?_address_cons (p : Patch) (rest : List Patch) (offset : UInt32) :
    (p :: rest).find? (·.address == offset)
      = if p.address = offset then some p else rest.find? (·.address == offset) := by
  rw [List.find?_cons]
  split
  · rename_i h
    rw [if_pos (beq_iff_eq.1 h)]
  · rename_i h
    rw [if_neg (beq_eq_false_iff_ne.1 h)]

/-- No patch of some that start higher stands under an offset. -/
theorem find?_eq_none_of_lt {patches : List Patch} {offset : UInt32} (h : ∀ p ∈ patches, offset < p.address) :
    patches.find? (·.address == offset) = none := by
  rw [List.find?_eq_none]
  intro p hp heq
  exact UInt32.ne_of_lt (h p hp) (beq_iff_eq.1 heq).symm

/-- **One further write** is joined onto what stands under its offset, and changes nothing else. -/
theorem find?_absorb {w : Write} {patches : List Patch} (h : patches.Pairwise fun p q => p.address < q.address)
    (offset : UInt32) :
    (absorb w patches).find? (·.address == offset)
      = if w.offset = offset then some (joinOnto (patches.find? (·.address == offset)) w)
        else patches.find? (·.address == offset) := by
  induction patches with
  | nil => exact find?_address_cons (patchOf w) [] offset
  | cons p rest ih =>
    obtain ⟨hp, hrest⟩ := List.pairwise_cons.1 h
    unfold absorb
    split
    · -- The write starts below all patches, so nothing stands under its offset yet.
      rename_i hlt
      rw [find?_address_cons (patchOf w)]
      show (if w.offset = offset then some (patchOf w) else _) = _
      split
      · rename_i hoffset
        rw [find?_eq_none_of_lt fun q hq => ?_]
        · rfl
        · rw [← hoffset]
          rcases List.mem_cons.1 hq with rfl | hq
          · exact hlt
          · exact UInt32.lt_trans hlt (hp q hq)
      · rfl
    · split
      · rename_i heq
        rw [find?_address_cons, address_extend, find?_address_cons, heq]
        by_cases hoffset : p.address = offset
        · rw [if_pos hoffset, if_pos hoffset, if_pos hoffset]
          rfl
        · rw [if_neg hoffset, if_neg hoffset, if_neg hoffset]
      · rename_i hne
        rw [find?_address_cons, find?_address_cons, ih hrest]
        by_cases haddress : p.address = offset
        · have hoffset : w.offset ≠ offset := fun ho => hne (ho.trans haddress.symm)
          rw [if_pos haddress, if_pos haddress, if_neg hoffset]
        · rw [if_neg haddress, if_neg haddress]

/-- **Under every offset** stands what the writes at that offset come to. -/
theorem find?_materialize (log : PatchLog) (offset : UInt32) :
    log.materialize.find? (·.address == offset) = joined? (writesAt log.writes offset) := by
  obtain ⟨writes⟩ := log
  induction writes using List.reverseRecOn with
  | nil => rfl
  | append_singleton rest w ih =>
    rw [materialize_concat, find?_absorb (ascending_materialize ⟨rest⟩), ih]
    show _ = joined? (writesAt (rest ++ [w]) offset)
    rw [writesAt_concat]
    split
    · exact (joined?_concat _ w).symm
    · rw [List.append_nil]

/-- **A patch of the record** is what the writes at its address come to. -/
theorem mem_materialize_iff {log : PatchLog} {p : Patch} :
    p ∈ log.materialize ↔ joined? (writesAt log.writes p.address) = some p := by
  rw [← find?_materialize]
  refine ⟨fun hp => ?_, List.mem_of_find?_eq_some⟩
  have hsome : (log.materialize.find? (·.address == p.address)).isSome = true :=
    List.find?_isSome.2 ⟨p, hp, beq_self_eq_true p.address⟩
  obtain ⟨q, hq⟩ := Option.isSome_iff_exists.1 hsome
  have hdistinct : (log.materialize.map (·.address)).Nodup := by
    rw [List.nodup_iff_pairwise_ne, List.pairwise_map]
    exact (ascending_materialize log).imp fun h => UInt32.ne_of_lt h
  have haddress : q.address = p.address := beq_iff_eq.1 (List.find?_some (p := fun r : Patch => r.address == _) hq)
  rw [hq, List.inj_on_of_nodup_map hdistinct (List.mem_of_find?_eq_some hq) hp haddress]

/-! ## What a patch has from its writes -/

/-- **A patch joined from some writes.** -/
structure Joins (writes : List Write) (p : Patch) : Prop where
  /-- It has as many bytes for those before it as of its own. -/
  length_unpatched : p.unpatched.length = p.size
  /-- One of the writes is as long as the patch. -/
  exists_longest : ∃ w ∈ writes, w.written.length = p.size
  /-- None is longer. -/
  length_le : ∀ w ∈ writes, w.written.length ≤ p.size
  /-- What was there before is known from the first write that reached it. -/
  unpatched_eq : ∀ i, p.unpatched[i]?
    = (writes.find? fun w => decide (i < w.written.length)).bind fun w => w.replaced[i]?

/-- A single write reaches all the bytes of its patch. -/
theorem joins_patchOf {w : Write} (h : w.replaced.length = w.written.length) : Joins [w] (patchOf w) where
  length_unpatched := h
  exists_longest := ⟨w, List.mem_singleton_self w, rfl⟩
  length_le := fun v hv => by
    rw [List.mem_singleton.1 hv]
    exact Nat.le_refl _
  unpatched_eq := fun i => by
    show w.replaced[i]? = _
    rw [List.find?_singleton]
    split
    · rfl
    · rename_i hi
      exact List.getElem?_eq_none (h ▸ Nat.not_lt.1 fun hlt => hi (decide_eq_true hlt))

/-- **The bytes before a joined patch** are those of the patch so far, and behind them those that the write replaced. -/
theorem getElem?_unpatched_extend {p : Patch} {w : Write} (hp : p.unpatched.length = p.size)
    (hw : w.replaced.length = w.written.length) (i : Nat) :
    (extend p w).unpatched[i]? = if i < p.size then p.unpatched[i]? else w.replaced[i]? := by
  unfold extend
  split
  · rename_i hlonger
    have hsize : p.size ≤ w.written.length := hlonger
    have hmin : min p.unpatched.length w.replaced.length = p.size := by omega
    show (p.unpatched ++ w.replaced.drop (min p.unpatched.length w.replaced.length))[i]? = _
    rw [hmin]
    split
    · rename_i hi
      rw [List.getElem?_append_left (by omega)]
    · rename_i hi
      rw [List.getElem?_append_right (by omega), List.getElem?_drop]
      congr 1
      omega
  · rename_i hshorter
    have hsize : w.written.length < p.size := Nat.lt_of_not_le hshorter
    show p.unpatched[i]? = _
    split
    · rfl
    · rw [List.getElem?_eq_none (by omega), List.getElem?_eq_none (by omega)]

/-- **One further write.** It reaches what the writes before it have reached, or it is the first to do so. -/
theorem Joins.extend {writes : List Write} {p : Patch} (h : Joins writes p) {w : Write}
    (hw : w.replaced.length = w.written.length) : Joins (writes ++ [w]) (PatchLog.extend p w) where
  length_unpatched := length_unpatched_extend h.length_unpatched hw
  exists_longest := by
    rw [size_extend]
    rcases Nat.le_total p.size w.written.length with hle | hle
    · exact ⟨w, List.mem_append_right _ (List.mem_singleton_self w), (Nat.max_eq_right hle).symm⟩
    · obtain ⟨v, hv, hlength⟩ := h.exists_longest
      exact ⟨v, List.mem_append_left _ hv, hlength.trans (Nat.max_eq_left hle).symm⟩
  length_le := fun v hv => by
    rw [size_extend]
    rcases List.mem_append.1 hv with hv | hv
    · exact Nat.le_trans (h.length_le v hv) (Nat.le_max_left _ _)
    · rw [List.mem_singleton.1 hv]
      exact Nat.le_max_right _ _
  unpatched_eq := fun i => by
    rw [getElem?_unpatched_extend h.length_unpatched hw, List.find?_append]
    split
    · rename_i hi
      obtain ⟨v, hv, hlength⟩ := h.exists_longest
      have hsome : (writes.find? fun v => decide (i < v.written.length)).isSome = true :=
        List.find?_isSome.2 ⟨v, hv, decide_eq_true (hlength ▸ hi)⟩
      obtain ⟨u, hu⟩ := Option.isSome_iff_exists.1 hsome
      rw [h.unpatched_eq, hu, Option.some_or]
    · rename_i hi
      have hnone : (writes.find? fun v => decide (i < v.written.length)) = none := by
        rw [List.find?_eq_none]
        intro v hv hlt
        exact hi (Nat.lt_of_lt_of_le (of_decide_eq_true hlt) (h.length_le v hv))
      rw [hnone, Option.none_or, ← (joins_patchOf hw).unpatched_eq]
      rfl

/-- **Some writes come to a patch** that is joined from them. -/
theorem joins_of_joined? {writes : List Write} (h : ∀ w ∈ writes, w.replaced.length = w.written.length) {p : Patch}
    (hp : joined? writes = some p) : Joins writes p := by
  induction writes using List.reverseRecOn generalizing p with
  | nil => cases hp
  | append_singleton rest w ih =>
    have hw := h w (List.mem_append_right _ (List.mem_singleton_self w))
    have hrest := fun v hv => h v (List.mem_append_left _ hv)
    rw [joined?_concat, Option.some.injEq] at hp
    subst hp
    cases hjoined : joined? rest with
    | some q => exact (ih hrest hjoined).extend hw
    | none =>
      -- Only no writes at all come to nothing.
      rcases List.eq_nil_or_concat rest with rfl | ⟨_, v, rfl⟩
      · exact joins_patchOf hw
      · rw [List.concat_eq_append, joined?_concat] at hjoined
        cases hjoined

/-- **A patch of the record** is joined from the writes at its address. -/
theorem joins_of_mem {log : PatchLog} (h : ∀ w ∈ log.writes, w.replaced.length = w.written.length) {p : Patch}
    (hp : p ∈ log.materialize) : Joins (writesAt log.writes p.address) p :=
  joins_of_joined? (fun w hw => h w (mem_writesAt.1 hw).1) (mem_materialize_iff.1 hp)

/-- **Every write** has a patch at its offset. -/
theorem exists_mem_of_write {log : PatchLog} {w : Write} (hw : w ∈ log.writes) :
    ∃ p ∈ log.materialize, p.address = w.offset := by
  have hat := mem_writesAt.2 ⟨hw, rfl⟩
  rcases List.eq_nil_or_concat (writesAt log.writes w.offset) with hnil | ⟨rest, v, hlast⟩
  · rw [hnil] at hat
    cases hat
  · have hfind : log.materialize.find? (·.address == w.offset) = some (joinOnto (joined? rest) v) := by
      rw [find?_materialize, hlast, List.concat_eq_append, joined?_concat]
    have haddress := List.find?_some (p := fun r : Patch => r.address == _) hfind
    exact ⟨_, List.mem_of_find?_eq_some hfind, beq_iff_eq.1 haddress⟩

/-- **Every write has exactly one patch** at its offset. -/
theorem existsUnique_of_write {log : PatchLog} {w : Write} (hw : w ∈ log.writes) :
    ∃! p, p ∈ log.materialize ∧ p.address = w.offset := by
  obtain ⟨p, hp, haddress⟩ := exists_mem_of_write hw
  refine ⟨p, ⟨hp, haddress⟩, fun q ⟨hq, hqaddress⟩ => ?_⟩
  -- Both are what the writes at the offset come to.
  have hpjoined := mem_materialize_iff.1 hp
  have hqjoined := mem_materialize_iff.1 hq
  rw [haddress] at hpjoined
  rw [hqaddress, hpjoined] at hqjoined
  exact (Option.some.inj hqjoined).symm

/-- **The positions of a patch** are those that some write at its address reaches. -/
theorem within_iff_of_mem {log : PatchLog} (h : ∀ w ∈ log.writes, w.replaced.length = w.written.length) {p : Patch}
    (hp : p ∈ log.materialize) {x : Nat} :
    p.address.toNat ≤ x ∧ x < p.stop ↔ ∃ w ∈ log.writes, w.reaches p.address x = true := by
  have hjoins := joins_of_mem h hp
  unfold Patch.stop
  constructor
  · intro hwithin
    obtain ⟨w, hw, hlength⟩ := hjoins.exists_longest
    obtain ⟨hwrites, hoffset⟩ := mem_writesAt.1 hw
    refine ⟨w, hwrites, Write.reaches_iff.2 ⟨hoffset, Write.covers_iff.2 ?_⟩⟩
    rw [hoffset, hlength]
    exact hwithin
  · rintro ⟨w, hw, hreaches⟩
    obtain ⟨hoffset, hcovers⟩ := Write.reaches_iff.1 hreaches
    have hlength := hjoins.length_le w (mem_writesAt.2 ⟨hw, hoffset⟩)
    rw [Write.covers_iff, hoffset] at hcovers
    exact ⟨hcovers.1, by omega⟩

end PatchLog

end BinaryPatching
