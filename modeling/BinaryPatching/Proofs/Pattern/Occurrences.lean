import BinaryPatching.Pattern.Bytes

/-!
# `BinaryPatching.Proofs.Pattern.Occurrences` — where a pattern occurs

A pattern occurs at a position when all of it lies inside the data and every byte that is not open agrees. A search
from a position on takes the first of these positions, whether it goes by an anchor or, if all bytes are open, takes the
position where it starts.

## Contents
- `OccursAt`, `matchesStart_drop_iff`: occurrences, and that a match at the start of the rest is one.
- `search_eq_find?`, `findFrom_eq_find?`: a search looks at the positions one by one.
- `findFrom_eq_some_iff`, `findFrom_eq_none_iff`: what is found.
-/

namespace BinaryPatching.BytePattern

variable {p : BytePattern} {data : Bytes}

/-! ## Occurrences -/

/-- **An occurrence** of a pattern at a position: all of it lies inside the data, and every byte that is not open is
the one that stands in its place. -/
def OccursAt (p : BytePattern) (data : Bytes) (position : Nat) : Prop :=
  position + p.size ≤ data.length ∧
    ∀ (i : Nat) (b : UInt8), p.items[i]? = some (some b) → data[position + i]? = some b

/-- Items match the start of some data place by place. -/
theorem matchesItems_iff {items : List (Option UInt8)} {rest : Bytes} :
    matchesItems items rest = true ↔
      items.length ≤ rest.length ∧ ∀ (i : Nat) (b : UInt8), items[i]? = some (some b) → rest[i]? = some b := by
  induction items generalizing rest with
  | nil => simp [matchesItems]
  | cons item items ih =>
    cases rest with
    | nil => simp [matchesItems]
    | cons c rest =>
      have hagrees : agrees item c = true ↔ ∀ b, item = some b → c = b := by
        cases item with
        | none => simp [agrees]
        | some wanted =>
          rw [agrees, beq_iff_eq]
          exact ⟨fun h b hb => h.symm.trans (Option.some.inj hb), fun h => (h wanted rfl).symm⟩
      rw [matchesItems, Bool.and_eq_true, ih, hagrees, List.length_cons, List.length_cons]
      constructor
      · rintro ⟨hfirst, hlength, hall⟩
        refine ⟨by omega, fun i b hi => ?_⟩
        cases i with
        | zero => rw [hfirst b (by simpa using hi)]; rfl
        | succ i => exact hall i b (by simpa using hi)
      · rintro ⟨hlength, hall⟩
        refine ⟨fun b hb => ?_, by omega, fun i b hi => ?_⟩
        · simpa using hall 0 b (by simp [hb])
        · simpa using hall (i + 1) b (by simpa using hi)

/-- **A match at the start of the rest** is an occurrence at its position. -/
theorem matchesStart_drop_iff {position : Nat} (hle : position ≤ data.length) :
    p.matchesStart (data.drop position) = true ↔ p.OccursAt data position := by
  rw [matchesStart, matchesItems_iff, OccursAt, size, List.length_drop]
  simp only [List.getElem?_drop]
  exact and_congr_left fun _ => by omega

/-- A pattern of open bytes matches wherever there is room for it. -/
theorem matchesStart_of_open (hopen : ∀ item ∈ p.items, item = none) {position : Nat}
    (hroom : position + p.size ≤ data.length) : p.matchesStart (data.drop position) = true := by
  refine (matchesStart_drop_iff (by omega)).2 ⟨hroom, ?_⟩
  intro i b hi
  cases hopen _ (List.mem_of_getElem? hi)

/-- A pattern that is not empty occurs only where there is data. -/
theorem OccursAt.lt_length {position : Nat} (h : p.OccursAt data position) (hp : p.items ≠ []) :
    position < data.length := by
  have hsize : 0 < p.size := List.length_pos_iff.2 hp
  have hle := h.1
  omega

/-! ## Searches -/

/-- **The search with an anchor** takes the first position at which the rest of the data matches. -/
theorem search_eq_find? {place : Nat} {byte : UInt8} (hanchor : p.items[place]? = some (some byte))
    (count position : Nat) :
    p.search place byte count position (data.drop position) =
      (List.range' position count).find? fun j => p.matchesStart (data.drop j) := by
  induction count generalizing position with
  | zero => rfl
  | succ count ih =>
    -- Where there is a match, the byte at the anchor agrees, so that looking at it first makes no difference.
    have htest : ((data.drop position)[place]? == some byte && p.matchesStart (data.drop position))
        = p.matchesStart (data.drop position) := by
      cases hmatch : p.matchesStart (data.drop position) with
      | false => rw [Bool.and_false]
      | true => rw [(matchesItems_iff.1 hmatch).2 place byte hanchor, Bool.and_true, beq_self_eq_true]
    rw [search, htest, List.drop_drop, ih, List.range'_succ]
    cases hmatch : p.matchesStart (data.drop position) with
    | false => rw [if_neg Bool.false_ne_true, List.find?_cons_of_neg (by simp [hmatch])]
    | true => rw [if_pos rfl, List.find?_cons_of_pos (p := fun j => p.matchesStart (data.drop j)) hmatch]

/-- The anchor is a place at which the pattern has a byte. -/
theorem getElem?_of_anchor? {place : Nat} {byte : UInt8} (h : p.anchor? = some (place, byte)) :
    p.items[place]? = some (some byte) := by
  obtain ⟨b, hb, heq⟩ := Option.map_eq_some_iff.1 h
  obtain ⟨item, hitem, hid⟩ := Option.bind_eq_some_iff.1 hb
  cases heq
  rw [hitem, show item = some byte from hid]

/-- Without an anchor all bytes are open. -/
theorem isNone_of_anchor? (h : p.anchor? = none) : ∀ item ∈ p.items, item = none := by
  have hplace : p.items[(p.items.takeWhile Option.isNone).length]?.bind id = none := Option.map_eq_none_iff.1 h
  generalize p.items = items at hplace
  induction items with
  | nil => exact fun item hitem => absurd hitem List.not_mem_nil
  | cons item items ih =>
    cases item with
    | some b => cases hplace
    | none =>
      intro other hother
      rcases List.mem_cons.1 hother with rfl | hother
      · rfl
      · exact ih hplace other hother

/-- **A search** takes the first position from its start on at which the rest of the data matches. -/
theorem findFrom_eq_find? (hp : p.items ≠ []) (start : Nat) :
    p.findFrom data start =
      (List.range' start (data.length - p.size + 1 - start)).find? fun j => p.matchesStart (data.drop j) := by
  have hsize : 0 < p.size := List.length_pos_iff.2 hp
  have hempty : p.isEmpty = false := by rw [isEmpty, List.isEmpty_eq_false_iff]; exact hp
  unfold findFrom
  by_cases hshort : data.length < start + p.size
  · -- No position is left: at most the first one is looked at, and only when the data is shorter than the pattern.
    rw [if_pos (.inr hshort)]
    refine (List.find?_eq_none.2 fun j hj hmatch => ?_).symm
    have hrange := List.mem_range'_1.1 hj
    have hlength := (matchesItems_iff.1 hmatch).1
    rw [List.length_drop] at hlength
    have hitems : p.items.length = p.size := rfl
    omega
  · rw [if_neg (by simp [hempty, hshort])]
    split
    · rename_i place byte hanchor
      exact search_eq_find? (getElem?_of_anchor? hanchor) _ _
    · rename_i hanchor
      have hmatch : p.matchesStart (data.drop start) = true :=
        matchesStart_of_open (isNone_of_anchor? hanchor) (by omega)
      have hcount : data.length - p.size + 1 - start = data.length - p.size - start + 1 := by omega
      rw [hcount, List.range'_succ, List.find?_cons_of_pos (p := fun j => p.matchesStart (data.drop j)) hmatch]

/-- **What a search finds** is the first occurrence from its start on. -/
theorem findFrom_eq_some_iff (hp : p.items ≠ []) {start hit : Nat} :
    p.findFrom data start = some hit ↔
      start ≤ hit ∧ p.OccursAt data hit ∧ ∀ j, start ≤ j → j < hit → ¬p.OccursAt data j := by
  rw [findFrom_eq_find? hp, List.find?_range'_eq_some]
  constructor
  · rintro ⟨hmatch, hmem, hbefore⟩
    have hrange := List.mem_range'_1.1 hmem
    refine ⟨hrange.1, ?_, fun j hge hlt hoccurs => ?_⟩
    · by_cases hle : hit ≤ data.length
      · exact (matchesStart_drop_iff hle).1 hmatch
      · omega
    · have hnot := hbefore j hge hlt
      rw [(matchesStart_drop_iff (Nat.le_of_lt (hoccurs.lt_length hp))).2 hoccurs] at hnot
      cases hnot
  · rintro ⟨hge, hoccurs, hbefore⟩
    have hle := hoccurs.1
    refine ⟨(matchesStart_drop_iff (by omega)).2 hoccurs, List.mem_range'_1.2 ⟨hge, by omega⟩,
      fun j hj hlt => ?_⟩
    rw [Bool.not_eq_true']
    exact Bool.eq_false_iff.2 fun hmatch => hbefore j hj hlt ((matchesStart_drop_iff (by omega)).1 hmatch)

/-- **Nothing is found** when there is no occurrence from the start of the search on. -/
theorem findFrom_eq_none_iff (hp : p.items ≠ []) {start : Nat} :
    p.findFrom data start = none ↔ ∀ j, start ≤ j → ¬p.OccursAt data j := by
  rw [findFrom_eq_find? hp, List.find?_eq_none]
  constructor
  · intro h j hge hoccurs
    have hle := hoccurs.1
    exact h j (List.mem_range'_1.2 ⟨hge, by omega⟩) ((matchesStart_drop_iff (by omega)).2 hoccurs)
  · intro h j hj hmatch
    have hrange := List.mem_range'_1.1 hj
    exact h j hrange.1 ((matchesStart_drop_iff (by omega)).1 hmatch)

end BinaryPatching.BytePattern
