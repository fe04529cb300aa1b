import BinaryPatching.Thumb.Instruction

/-!
# `BinaryPatching.Code.Map` — instructions in the order of their addresses

The code of an image: at most one instruction for an address, in ascending order, found by address and by
position. The order is part of the type, so that positions and addresses can be exchanged in proofs.

## Contents
- `CodeMap`, `CodeMap.insert`, `CodeMap.ofList`: building maps.
- `CodeMap.get?`, `CodeMap.at?`, `CodeMap.indexOf?`: single instructions.
- `CodeMap.positionAtOrAfter`, `CodeMap.positionAtOrBefore`, `CodeMap.nextBoundary`: the neighbourhood of an
  address.
- `mem_insert`, `get?_eq_some_iff`: what is in a map, and that look-up agrees with it.
-/

namespace BinaryPatching

open Thumb

/-- The instructions with one more in its place; it takes the place of one at the same address. -/
def insertInOrder (i : Instruction) : List Instruction → List Instruction
  | [] => [i]
  | j :: rest =>
    if i.address < j.address then i :: j :: rest
    else if i.address = j.address then i :: rest
    else j :: insertInOrder i rest

/-- Ascending addresses. -/
def Ascending (is : List Instruction) : Prop := is.Pairwise fun a b => a.address < b.address

theorem mem_insertInOrder_subset {i j : Instruction} {is : List Instruction} (h : j ∈ insertInOrder i is) :
    j = i ∨ j ∈ is := by
  induction is with
  | nil => simpa [insertInOrder] using h
  | cons k rest ih =>
    unfold insertInOrder at h
    split at h
    · simpa using h
    · split at h
      · rcases List.mem_cons.1 h with h | h
        · exact .inl h
        · exact .inr (by simp [h])
      · rcases List.mem_cons.1 h with h | h
        · exact .inr (by simp [h])
        · rcases ih h with h | h
          · exact .inl h
          · exact .inr (by simp [h])

/-- Insertion keeps the order. -/
theorem ascending_insertInOrder {i : Instruction} {is : List Instruction} (h : Ascending is) :
    Ascending (insertInOrder i is) := by
  unfold Ascending at *
  induction is with
  | nil => simp [insertInOrder]
  | cons j rest ih =>
    obtain ⟨hj, hrest⟩ := List.pairwise_cons.1 h
    unfold insertInOrder
    split
    · rename_i hlt
      refine List.pairwise_cons.2 ⟨fun k hk => ?_, h⟩
      rcases List.mem_cons.1 hk with rfl | hk
      · exact hlt
      · exact UInt32.lt_trans hlt (hj k hk)
    · rename_i hge
      split
      · rename_i heq
        exact List.pairwise_cons.2 ⟨fun k hk => heq ▸ hj k hk, hrest⟩
      · rename_i hne
        refine List.pairwise_cons.2 ⟨fun k hk => ?_, ih hrest⟩
        rcases mem_insertInOrder_subset hk with rfl | hk
        · rw [UInt32.lt_iff_toNat_lt] at hge ⊢
          have : k.address.toNat ≠ j.address.toNat := fun he => hne (UInt32.toNat_inj.1 he)
          omega
        · exact hj k hk

/-- The instructions of an image, ascending by address. -/
structure CodeMap where
  /-- The instructions. -/
  instructions : List Instruction
  /-- Every address is smaller than those after it. -/
  ascending : Ascending instructions

namespace CodeMap

/-- A map without instructions. -/
def empty : CodeMap := ⟨[], List.Pairwise.nil⟩

/-- The map with an instruction at its address. -/
def insert (map : CodeMap) (i : Instruction) : CodeMap :=
  ⟨insertInOrder i map.instructions, ascending_insertInOrder map.ascending⟩

/-- The map of a list in any order. Of two instructions at one address the later one counts. -/
def ofList (is : List Instruction) : CodeMap := is.foldl insert empty

/-- The number of instructions. -/
def size (map : CodeMap) : Nat := map.instructions.length

/-- Whether there is no instruction. -/
def isEmpty (map : CodeMap) : Bool := map.instructions.isEmpty

/-- The instruction at an address. -/
def get? (map : CodeMap) (address : UInt32) : Option Instruction :=
  map.instructions.find? fun i => i.address == address

/-- Whether an instruction starts at an address. -/
def contains (map : CodeMap) (address : UInt32) : Bool := (map.get? address).isSome

/-- The instruction at a position. -/
def at? (map : CodeMap) (position : Nat) : Option Instruction := map.instructions[position]?

/-- The position of the instruction at an address. -/
def indexOf? (map : CodeMap) (address : UInt32) : Option Nat :=
  map.instructions.findIdx? fun i => i.address == address

/-- The position of the first instruction at or after an address; the size of the map if there is none. -/
def positionAtOrAfter (map : CodeMap) (address : UInt32) : Nat :=
  (map.instructions.takeWhile fun i => i.address < address).length

/-- The position of the last instruction at or before an address. -/
def positionAtOrBefore (map : CodeMap) (address : UInt32) : Option Nat :=
  match (map.instructions.takeWhile fun i => i.address ≤ address).length with
  | 0 => none
  | n + 1 => some n

/-- The address of the first instruction at or after an address. -/
def nextBoundary (map : CodeMap) (address : UInt32) : Option UInt32 :=
  (map.at? (map.positionAtOrAfter address)).map (·.address)

/-! ## What is in a map -/

@[simp] theorem instructions_insert (map : CodeMap) (i : Instruction) :
    (map.insert i).instructions = insertInOrder i map.instructions := rfl

/-- Two instructions of a map with one address are the same. -/
theorem eq_of_address_eq {map : CodeMap} {i j : Instruction} (hi : i ∈ map.instructions)
    (hj : j ∈ map.instructions) (h : i.address = j.address) : i = j := by
  have hp := map.ascending
  unfold Ascending at hp
  generalize map.instructions = is at hi hj hp
  induction is with
  | nil => simp at hi
  | cons k rest ih =>
    obtain ⟨hk, hrest⟩ := List.pairwise_cons.1 hp
    rcases List.mem_cons.1 hi with hi' | hi' <;> rcases List.mem_cons.1 hj with hj' | hj'
    · rw [hi', hj']
    · have := hk j hj'
      rw [← h, hi'] at this
      exact absurd this (UInt32.lt_irrefl _)
    · have := hk i hi'
      rw [h, hj'] at this
      exact absurd this (UInt32.lt_irrefl _)
    · exact ih hi' hj' hrest

/-- An instruction is found at its address, and nothing else is. -/
theorem get?_eq_some_iff {map : CodeMap} {address : UInt32} {i : Instruction} :
    map.get? address = some i ↔ i ∈ map.instructions ∧ i.address = address := by
  constructor
  · intro h
    exact ⟨List.mem_of_find?_eq_some h, by simpa using List.find?_some h⟩
  · rintro ⟨hi, rfl⟩
    cases hf : map.get? i.address with
    | none =>
      have := List.find?_eq_none.1 hf i hi
      simp at this
    | some j =>
      have hj : j ∈ map.instructions := List.mem_of_find?_eq_some hf
      have ha : j.address = i.address := by simpa using List.find?_some hf
      rw [eq_of_address_eq hj hi ha]

/-- After an insertion the new instruction is there, and every one at another address. -/
theorem mem_insert {map : CodeMap} {i j : Instruction} :
    j ∈ (map.insert i).instructions ↔ j = i ∨ (j ∈ map.instructions ∧ j.address ≠ i.address) := by
  obtain ⟨is, hp⟩ := map
  simp only [instructions_insert]
  unfold Ascending at hp
  induction is with
  | nil => simp [insertInOrder]
  | cons k rest ih =>
    obtain ⟨hk, hrest⟩ := List.pairwise_cons.1 hp
    unfold insertInOrder
    have hne {a b : UInt32} (h : a < b) : b ≠ a := by
      rintro rfl; exact UInt32.lt_irrefl _ h
    split
    · rename_i hlt
      simp only [List.mem_cons]
      constructor
      · rintro (h | rfl | h)
        · exact .inl h
        · exact .inr ⟨.inl rfl, hne hlt⟩
        · exact .inr ⟨.inr h, hne (UInt32.lt_trans hlt (hk j h))⟩
      · rintro (h | ⟨h, _⟩)
        · exact .inl h
        · exact .inr h
    · split
      · rename_i heq
        simp only [List.mem_cons]
        constructor
        · rintro (h | h)
          · exact .inl h
          · exact .inr ⟨.inr h, heq ▸ hne (hk j h)⟩
        · rintro (h | ⟨rfl | h, h'⟩)
          · exact .inl h
          · exact absurd heq.symm h'
          · exact .inr h
      · rename_i hnlt hneq
        simp only [List.mem_cons, ih hrest]
        constructor
        · rintro (rfl | h | ⟨h, h'⟩)
          · exact .inr ⟨.inl rfl, fun he => hneq he.symm⟩
          · exact .inl h
          · exact .inr ⟨.inr h, h'⟩
        · rintro (h | ⟨rfl | h, h'⟩)
          · exact .inr (.inl h)
          · exact .inl rfl
          · exact .inr (.inr ⟨h, h'⟩)

end CodeMap

end BinaryPatching
