import BinaryPatching.Proofs.Pattern.Occurrences
import Mathlib.Order.Bounds.Defs

/-!
# `BinaryPatching.Proofs.Pattern.CheckedSearches` — searches that check their indices

A search looks at single bytes of the data: at the one that stands in the place of the first byte of the pattern that is
not open. Here the same search is spelled out with the pattern as two rows, its bytes and the marks of those that are not
open, and with every index checked against the end of its row. No check ever fails, so that this search is the plain one;
and what both find is the least position at which the pattern matches.

## Contents
- `BeyondEnd`, `entry`, `ending`: rows with checked indices.
- `findChecked`: the search with checked indices.
- `checkedMatch_eq`, `checkedFirst_eq`, `findChecked_eq`: none of them is beyond the end.
- `findFrom_isLeast`: what is found.
-/

namespace BinaryPatching.BytePattern

/-! ## Checked indices -/

/-- An index that lies beyond the end of a row. -/
structure BeyondEnd where
  /-- The index. -/
  index : Nat
  /-- The length of the row. -/
  length : Nat
deriving Repr, DecidableEq

/-- The entry of a row at an index. -/
def entry {α : Type} (row : List α) (index : Nat) : Except BeyondEnd α :=
  match row[index]? with
  | some a => .ok a
  | none => .error ⟨index, row.length⟩

/-- What a row holds from an index on, which may be its end. -/
def ending {α : Type} (row : List α) (index : Nat) : Except BeyondEnd (List α) :=
  if index ≤ row.length then .ok (row.drop index) else .error ⟨index, row.length⟩

/-- The bytes of a pattern, with zeros for the open ones. -/
def bytes (p : BytePattern) : Bytes := p.items.map fun item => item.getD 0

/-- Which bytes of a pattern are not open. -/
def mask (p : BytePattern) : List Bool := p.items.map Option.isSome

/-- Whether there is a match at a position. The byte at the anchor is looked at first. -/
def checkedMatch (p : BytePattern) (data : Bytes) (place : Nat) (byte : UInt8) (position : Nat) :
    Except BeyondEnd Bool :=
  match entry data (position + place) with
  | .error e => .error e
  | .ok b => if b = byte then (ending data position).map p.matchesStart else .ok false

/-- The first of some positions that pass a test. -/
def checkedFirst (test : Nat → Except BeyondEnd Bool) : List Nat → Except BeyondEnd (Option Nat)
  | [] => .ok none
  | position :: positions =>
    match test position with
    | .error e => .error e
    | .ok true => .ok (some position)
    | .ok false => checkedFirst test positions

/-- **The search with checked indices**: the first match at or after a position. -/
def findChecked (p : BytePattern) (data : Bytes) (start : Nat) : Except BeyondEnd (Option Nat) :=
  if p.bytes.isEmpty ∨ data.length < p.bytes.length then .ok none
  else
    let last := data.length - p.bytes.length
    if last < start then .ok none
    else
      match p.mask.findIdx? id with
      | none => .ok (some start)
      | some place =>
        match entry p.bytes place with
        | .error e => .error e
        | .ok byte => checkedFirst (p.checkedMatch data place byte) (List.range' start (last + 1 - start))

/-! ## No index is beyond the end -/

variable {p : BytePattern} {data : Bytes}

theorem entry_eq_ok {α : Type} {row : List α} {index : Nat} {a : α} (h : row[index]? = some a) :
    entry row index = .ok a := by
  rw [entry, h]

@[simp] theorem length_bytes (p : BytePattern) : p.bytes.length = p.size := List.length_map _

/-- The mark of a byte that is not open stands where the byte does. -/
theorem exists_of_findIdx?_mask {place : Nat} (h : p.mask.findIdx? id = some place) :
    ∃ byte, p.items[place]? = some (some byte) ∧ p.bytes[place]? = some byte := by
  obtain ⟨hlt, hmark, _⟩ := List.findIdx?_eq_some_iff_getElem.1 h
  have hplace : place < p.items.length := by simpa [mask] using hlt
  have hsome : p.items[place].isSome = true := by simpa [mask] using hmark
  obtain ⟨byte, hbyte⟩ := Option.isSome_iff_exists.1 hsome
  have hitem : p.items[place]? = some (some byte) := by rw [List.getElem?_eq_getElem hplace, hbyte]
  refine ⟨byte, hitem, ?_⟩
  rw [bytes, List.getElem?_map, hitem]
  rfl

/-- Without a mark all bytes are open. -/
theorem isNone_of_findIdx?_mask (h : p.mask.findIdx? id = none) : ∀ item ∈ p.items, item = none := by
  intro item hitem
  have hmark := List.findIdx?_eq_none_iff.1 h item.isSome (List.mem_map_of_mem hitem)
  exact Option.not_isSome_iff_eq_none.1 (Bool.eq_false_iff.1 hmark)

/-- **One position is looked at** within the data, and the byte at the anchor decides nothing that the pattern as a whole
would not. -/
theorem checkedMatch_eq {place : Nat} {byte : UInt8} (hanchor : p.items[place]? = some (some byte)) {position : Nat}
    (hroom : position + p.size ≤ data.length) :
    p.checkedMatch data place byte position = .ok (p.matchesStart (data.drop position)) := by
  have hplace : place < p.size := (List.getElem?_eq_some_iff.1 hanchor).1
  have hbyte : data[position + place]? = some data[position + place] := List.getElem?_eq_getElem (by omega)
  rw [checkedMatch, entry_eq_ok hbyte]
  dsimp only
  by_cases hequal : data[position + place] = byte
  · rw [if_pos hequal, ending, if_pos (by omega)]
    rfl
  · rw [if_neg hequal]
    refine congrArg Except.ok (Eq.symm (Bool.eq_false_iff.2 ?_))
    intro hmatch
    have hoccurs := (matchesStart_drop_iff (by omega)).1 hmatch
    rw [hoccurs.2 place byte hanchor, Option.some.injEq] at hbyte
    exact hequal hbyte.symm

/-- **All positions that are looked at** are searched like a list. -/
theorem checkedFirst_eq {test : Nat → Except BeyondEnd Bool} {holds : Nat → Bool} {positions : List Nat}
    (h : ∀ j ∈ positions, test j = .ok (holds j)) : checkedFirst test positions = .ok (positions.find? holds) := by
  induction positions with
  | nil => rfl
  | cons j positions ih =>
    rw [checkedFirst, h j List.mem_cons_self, List.find?_cons]
    cases holds j with
    | true => rfl
    | false => exact ih fun k hk => h k (List.mem_cons_of_mem j hk)

/-- **No index is beyond the end**: the search with checked indices is the search. -/
theorem findChecked_eq (p : BytePattern) (data : Bytes) (start : Nat) :
    p.findChecked data start = .ok (p.findFrom data start) := by
  unfold findChecked
  by_cases hp : p.items = []
  · have hempty : p.isEmpty = true := by rw [isEmpty, hp]; rfl
    have hbytes : p.bytes.isEmpty = true := by rw [bytes, hp]; rfl
    have hnone : p.findFrom data start = none := by rw [findFrom, if_pos (.inl hempty)]
    rw [if_pos (.inl hbytes), hnone]
  · have hbytes : ¬p.bytes.isEmpty = true := by simpa [bytes] using hp
    rw [length_bytes]
    by_cases hshort : data.length < start + p.size
    · have hnone : p.findFrom data start = none := by rw [findFrom, if_pos (.inr hshort)]
      rw [hnone]
      by_cases hdata : data.length < p.size
      · rw [if_pos (.inr hdata)]
      · have hlast : data.length - p.size < start := by omega
        rw [if_neg (not_or.2 ⟨hbytes, hdata⟩), if_pos hlast]
    · have hdata : ¬data.length < p.size := by omega
      have hlast : ¬data.length - p.size < start := by omega
      rw [if_neg (not_or.2 ⟨hbytes, hdata⟩), if_neg hlast, findFrom_eq_find? hp]
      have hcount : data.length - p.size + 1 - start = data.length - p.size - start + 1 := by omega
      split
      · rename_i hopen
        have hmatch : p.matchesStart (data.drop start) = true :=
          matchesStart_of_open (isNone_of_findIdx?_mask hopen) (by omega)
        rw [hcount, List.range'_succ, List.find?_cons_of_pos (p := fun j => p.matchesStart (data.drop j)) hmatch]
      · rename_i place hplace
        obtain ⟨byte, hanchor, hbyte⟩ := exists_of_findIdx?_mask hplace
        rw [entry_eq_ok hbyte]
        refine checkedFirst_eq fun j hj => checkedMatch_eq hanchor ?_
        have hrange := List.mem_range'_1.1 hj
        omega

/-! ## What is found -/

/-- **What a search finds** is the least position from its start on at which the pattern matches and lies inside the
data, and it finds nothing if there is no such position or the pattern is empty. None of the indices that it goes by is
beyond the end of its row. -/
theorem findFrom_isLeast (p : BytePattern) (data : Bytes) (start : Nat) :
    p.findChecked data start = .ok (p.findFrom data start) ∧
      (∀ hit, p.findFrom data start = some hit ↔ p.isEmpty = false ∧
        IsLeast {j | start ≤ j ∧ j + p.size ≤ data.length ∧ p.matchesStart (data.drop j) = true} hit) ∧
      (p.findFrom data start = none ↔ p.isEmpty = true ∨
        ∀ j, start ≤ j → j + p.size ≤ data.length → p.matchesStart (data.drop j) = false) := by
  refine ⟨findChecked_eq p data start, ?_⟩
  by_cases hp : p.items = []
  · have hempty : p.isEmpty = true := by rw [isEmpty, hp]; rfl
    have hnone : p.findFrom data start = none := by rw [findFrom, if_pos (.inl hempty)]
    simp [hnone, hempty]
  · have hempty : p.isEmpty = false := by rw [isEmpty, List.isEmpty_eq_false_iff]; exact hp
    -- Inside the data, a match at a position is an occurrence there.
    have hoccurs (j : Nat) : j + p.size ≤ data.length ∧ p.matchesStart (data.drop j) = true ↔ p.OccursAt data j := by
      constructor
      · intro h
        exact (matchesStart_drop_iff (by omega)).1 h.2
      · intro h
        have hroom := h.1
        exact ⟨hroom, (matchesStart_drop_iff (by omega)).2 h⟩
    constructor
    · intro hit
      rw [findFrom_eq_some_iff hp]
      constructor
      · rintro ⟨hge, hat, hbefore⟩
        refine ⟨hempty, ⟨hge, (hoccurs hit).2 hat⟩, ?_⟩
        intro j hj
        exact Nat.not_lt.1 fun hlt => hbefore j hj.1 hlt ((hoccurs j).1 hj.2)
      · rintro ⟨_, ⟨hge, hat⟩, hleast⟩
        refine ⟨hge, (hoccurs hit).1 hat, ?_⟩
        intro j hj hlt hother
        have hle : hit ≤ j := hleast ⟨hj, (hoccurs j).2 hother⟩
        omega
    · rw [findFrom_eq_none_iff hp, hempty]
      constructor
      · intro hnone
        refine .inr fun j hge hroom => Bool.eq_false_iff.2 fun hmatch => ?_
        exact hnone j hge ((hoccurs j).1 ⟨hroom, hmatch⟩)
      · rintro (habsurd | hnone) j hge hat
        · cases habsurd
        · have hmatch := ((hoccurs j).2 hat).2
          rw [hnone j hge hat.1] at hmatch
          cases hmatch

end BinaryPatching.BytePattern
