import BinaryPatching.Proofs.Assembly.AddressLines

/-!
# `BinaryPatching.Proofs.Assembly.Padding` — how much padding, and how it is aligned

The padding in front of a fragment reaches down to the lowest address that the fragment names. It is at most the address
of the fragment, so that no sum on the way leaves 32 bits, and where there is padding it is as far from a word boundary as
that address: a load relative to the program counter, which is rounded down to a word, then goes as far in the assembled
area as it does in the image. But where no address below the fragment is named there is no padding, wherever the fragment
stands.

## Contents
- `exactPadding`, `toNat_paddingFor`: the padding as an exact number, with its bounds.
- `lowestAddress_le`, `lowestAddress_lt_iff`: the lowest address that is named.
- `loadDistance`: how far a load relative to the program counter goes.
- `buildSource_alignment`: which fragments keep their alignment.
-/

namespace BinaryPatching

open Text

/-! ## The padding as a number -/

/-- **The padding** for addresses of any size: as much as needed to reach down to the lowest one, and up to three bytes
more, so that it is as far from a word boundary as the start. -/
def exactPadding (origin lowest : Nat) : Nat :=
  if origin ≤ lowest then 0 else origin - lowest + (origin % 4 + 4 - (origin - lowest) % 4) % 4

theorem exactPadding_of_lt {origin lowest : Nat} (h : lowest < origin) :
    exactPadding origin lowest = origin - lowest + (origin % 4 + 4 - (origin - lowest) % 4) % 4 :=
  if_neg (Nat.not_le.2 h)

/-- It reaches down to the lowest address. -/
theorem le_exactPadding (origin lowest : Nat) : origin - lowest ≤ exactPadding origin lowest := by
  unfold exactPadding
  split
  · omega
  · omega

/-- It does not reach below the address zero. -/
theorem exactPadding_le (origin lowest : Nat) : exactPadding origin lowest ≤ origin := by
  unfold exactPadding
  split
  · omega
  · omega

/-- Where there is padding, it keeps the alignment of the start. -/
theorem exactPadding_mod {origin lowest : Nat} (h : lowest < origin) : exactPadding origin lowest % 4 = origin % 4 := by
  rw [exactPadding_of_lt h]
  omega

/-- **No sum leaves 32 bits**: the padding is the exact one. -/
theorem toNat_paddingFor (origin lowest : UInt32) :
    (paddingFor origin lowest).toNat = exactPadding origin.toNat lowest.toNat := by
  unfold paddingFor
  by_cases hle : origin ≤ lowest
  · rw [if_pos hle, exactPadding, if_pos (UInt32.le_iff_toNat_le.1 hle)]
    rfl
  · have hlt : lowest.toNat < origin.toNat := Nat.not_le.1 fun h => hle (UInt32.le_iff_toNat_le.2 h)
    have hbound := exactPadding_le origin.toNat lowest.toNat
    have hneeded : (origin - lowest).toNat = origin.toNat - lowest.toNat :=
      UInt32.toNat_sub_of_le _ _ (UInt32.le_iff_toNat_le.2 (Nat.le_of_lt hlt))
    have hword := origin.toNat_lt
    rw [exactPadding_of_lt hlt] at hbound ⊢
    rw [if_neg hle]
    have hextra : ((origin % 4 + 4 - (origin - lowest) % 4) % 4).toNat =
        (origin.toNat % 4 + 4 - (origin.toNat - lowest.toNat) % 4) % 4 := by
      have hsum : (origin % 4 + 4).toNat = origin.toNat % 4 + 4 := by
        rw [UInt32.toNat_add, UInt32.toNat_mod]
        show (origin.toNat % 4 + 4) % 2 ^ 32 = _
        omega
      have hrest : ((origin - lowest) % 4).toNat = (origin.toNat - lowest.toNat) % 4 := by
        rw [UInt32.toNat_mod, hneeded]
        rfl
      rw [UInt32.toNat_mod, UInt32.toNat_sub_of_le, hsum, hrest]
      · rfl
      · rw [UInt32.le_iff_toNat_le, hsum, hrest]
        omega
    dsimp only
    rw [UInt32.toNat_add, hextra, hneeded]
    exact Nat.mod_eq_of_lt (by omega)

/-! ## The lowest address -/

/-- The lowest of some addresses and a first one is the first one or one of them, and none of them is lower. -/
theorem foldl_lowest (ls : List AddressLine) (first : UInt32) :
    let lowest := ls.foldl (fun lowest l => if l.target < lowest then l.target else lowest) first
    lowest ≤ first ∧ (∀ l ∈ ls, lowest ≤ l.target) ∧ (lowest = first ∨ ∃ l ∈ ls, lowest = l.target) := by
  induction ls generalizing first with
  | nil => exact ⟨UInt32.le_refl first, fun l hl => absurd hl List.not_mem_nil, .inl rfl⟩
  | cons l ls ih =>
    rw [List.foldl_cons]
    by_cases hlower : l.target < first
    · rw [if_pos hlower]
      obtain ⟨hfirst, hothers, hattained⟩ := ih l.target
      refine ⟨UInt32.le_trans hfirst (UInt32.le_of_lt hlower), ?_, .inr ?_⟩
      · intro k hk
        rcases List.mem_cons.1 hk with rfl | hk
        · exact hfirst
        · exact hothers k hk
      · rcases hattained with heq | ⟨k, hk, heq⟩
        · exact ⟨l, List.mem_cons_self, heq⟩
        · exact ⟨k, List.mem_cons_of_mem l hk, heq⟩
    · rw [if_neg hlower]
      obtain ⟨hfirst, hothers, hattained⟩ := ih first
      refine ⟨hfirst, ?_, ?_⟩
      · intro k hk
        rcases List.mem_cons.1 hk with rfl | hk
        · exact UInt32.le_trans hfirst (UInt32.not_lt.1 hlower)
        · exact hothers k hk
      · rcases hattained with heq | ⟨k, hk, heq⟩
        · exact .inl heq
        · exact .inr ⟨k, List.mem_cons_of_mem l hk, heq⟩

/-- No line names an address below the lowest. -/
theorem lowestAddress_le (origin : UInt32) {lines : List (List Char)} {line : List Char} {l : AddressLine}
    (hline : line ∈ lines) (h : addressLine? line = some l) : lowestAddress origin lines ≤ l.target :=
  (foldl_lowest (lines.filterMap addressLine?) origin).2.1 l (List.mem_filterMap.2 ⟨line, hline, h⟩)

/-- The lowest address is below the start if a line names one that is. -/
theorem lowestAddress_lt_iff (origin : UInt32) (lines : List (List Char)) :
    lowestAddress origin lines < origin ↔ ∃ line ∈ lines, ∃ l, addressLine? line = some l ∧ l.target < origin := by
  constructor
  · intro hlt
    rcases (foldl_lowest (lines.filterMap addressLine?) origin).2.2 with heq | ⟨l, hl, heq⟩
    · have hself : lowestAddress origin lines = origin := heq
      rw [hself] at hlt
      exact absurd hlt (UInt32.lt_irrefl origin)
    · obtain ⟨line, hline, hread⟩ := List.mem_filterMap.1 hl
      have hlowest : lowestAddress origin lines = l.target := heq
      exact ⟨line, hline, l, hread, hlowest ▸ hlt⟩
  · rintro ⟨line, hline, l, hread, hlt⟩
    exact UInt32.lt_of_le_of_lt (lowestAddress_le origin hline hread) hlt

theorem toNat_padding (origin : UInt32) (codeType : CodeType) (body : String) :
    (buildSource origin codeType body).padding.toNat =
      exactPadding origin.toNat (lowestAddress origin (Text.lines body.toList)).toNat :=
  toNat_paddingFor _ _

/-! ## Alignment -/

/-- How far the program counter is ahead of the instruction that reads it. -/
def CodeType.ahead : CodeType → Int
  | .arm => 8
  | .thumb => 4
  | .thumb2 => 4

/-- **How far a load goes** that is relative to the program counter, rounded down to a word: the load and its target are
given by their distances from a label, and the label by its place. -/
def loadDistance (codeType : CodeType) (place load target : Int) : Int :=
  place + target - 4 * ((place + load + codeType.ahead) / 4)

/-- Loads go equally far at two places just if these are equally far from a word boundary. -/
theorem loadDistance_eq_iff (codeType : CodeType) (place place' : Nat) :
    (∀ load target : Int, loadDistance codeType place load target = loadDistance codeType place' load target) ↔
      place % 4 = place' % 4 := by
  unfold loadDistance
  constructor
  · intro h
    have hstart := h 0 0
    cases codeType <;> simp only [CodeType.ahead] at hstart <;> omega
  · intro h load target
    cases codeType <;> simp only [CodeType.ahead] <;> omega

/-- A line is read with an address below the start if the low word of the address that it names is. -/
theorem exists_addressLine?_lt_iff (origin : UInt32) (line : List Char) :
    (∃ l, addressLine? line = some l ∧ l.target < origin) ↔
      ∃ before t, NamesAddress line before t ∧ t < 0x8000000000000000 ∧ t % 0x100000000 < origin.toNat := by
  constructor
  · rintro ⟨l, hread, hlt⟩
    obtain ⟨t, hnamed, ht, htarget⟩ := addressLine?_eq_some_iff.1 hread
    rw [UInt32.lt_iff_toNat_lt, htarget, UInt32.toNat_ofNat'] at hlt
    exact ⟨l.before, t, hnamed, ht, hlt⟩
  · rintro ⟨before, t, hnamed, ht, hlt⟩
    refine ⟨⟨before, UInt32.ofNat t⟩, hnamed.addressLine?_eq ht, ?_⟩
    rw [UInt32.lt_iff_toNat_lt, UInt32.toNat_ofNat']
    exact hlt

/-- **Which fragments keep their alignment.** The padding is as far from a word boundary as the address of the fragment
just if that is on one itself or a line of the fragment names an address below it. And just then every load relative to the
program counter goes as far from behind the padding as it has to go in the image. -/
theorem buildSource_alignment (origin : UInt32) (codeType : CodeType) (body : String) :
    ((buildSource origin codeType body).padding.toNat % 4 = origin.toNat % 4 ↔
        origin.toNat % 4 = 0 ∨ ∃ line ∈ Text.lines body.toList, ∃ before t,
          NamesAddress line before t ∧ t < 0x8000000000000000 ∧ t % 0x100000000 < origin.toNat) ∧
      ((buildSource origin codeType body).padding.toNat % 4 = origin.toNat % 4 ↔
        ∀ load target : Int,
          loadDistance codeType (buildSource origin codeType body).padding.toNat load target =
            loadDistance codeType origin.toNat load target) := by
  refine ⟨?_, (loadDistance_eq_iff codeType _ _).symm⟩
  simp only [← exists_addressLine?_lt_iff]
  rw [toNat_padding, ← lowestAddress_lt_iff, UInt32.lt_iff_toNat_lt]
  by_cases hlt : (lowestAddress origin (Text.lines body.toList)).toNat < origin.toNat
  · simp only [exactPadding_mod hlt, hlt, or_true]
  · have hnone : exactPadding origin.toNat (lowestAddress origin (Text.lines body.toList)).toNat = 0 :=
      if_pos (Nat.not_lt.1 hlt)
    rw [hnone, or_iff_left hlt]
    exact eq_comm

/-- The code of a load with its literal behind it. -/
def literalBody : String := "    ldr r0, Literal\n    bx lr\nLiteral DCD 0x12345678"

/-- **A fragment between words** that names no address below it loses its alignment: there is no padding, and a load goes
two bytes less far than it has to. -/
theorem not_aligned_literalBody :
    (buildSource 0x10001002 .thumb2 literalBody).padding = 0 ∧
      (buildSource 0x10001002 .thumb2 literalBody).padding.toNat % 4 ≠ (0x10001002 : UInt32).toNat % 4 ∧
      loadDistance .thumb2 (buildSource 0x10001002 .thumb2 literalBody).padding.toNat 0 6 = 2 ∧
      loadDistance .thumb2 (0x10001002 : UInt32).toNat 0 6 = 4 := by
  decide +kernel

end BinaryPatching
