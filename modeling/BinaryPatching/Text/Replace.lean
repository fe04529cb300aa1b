import BinaryPatching.Text.Blank

/-!
# `BinaryPatching.Text.Replace` — occurrences of a text replaced

## Contents
- `replaceAll`: every occurrence of a text replaced by another, from left to right.
- `replaceAll_of_absent`: a text that holds no occurrence stays as it is.
-/

namespace BinaryPatching.Text

/-- The text with every occurrence of `part` replaced, when the next `skipped` characters belong to an occurrence
    already replaced. -/
def replaceFrom (part replacement : List Char) : Nat → List Char → List Char
  | _, [] => []
  | skipped + 1, _ :: rest => replaceFrom part replacement skipped rest
  | 0, c :: rest =>
    if part.isPrefixOf (c :: rest) then replacement ++ replaceFrom part replacement (part.length - 1) rest
    else c :: replaceFrom part replacement 0 rest

/-- The text with every occurrence of `part`, which must not be empty, replaced. Occurrences are looked for from left
    to right and do not overlap. -/
def replaceAll (part replacement text : List Char) : List Char := replaceFrom part replacement 0 text

/-- A text that holds no occurrence stays as it is. -/
theorem replaceAll_of_absent {part text : List Char} (replacement : List Char)
    (h : ∀ rest, rest <:+ text → part.isPrefixOf rest = false) : replaceAll part replacement text = text := by
  unfold replaceAll
  induction text with
  | nil => rfl
  | cons c rest ih =>
    have hc := h (c :: rest) (List.suffix_refl _)
    simp [replaceFrom, hc, ih fun l hl => h l (hl.trans (List.suffix_cons c rest))]

end BinaryPatching.Text
