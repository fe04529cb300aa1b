/-!
# `BinaryPatching.Text.Blank` — blank characters, trimming and lines

The rules by which every reader of this library skips blanks and cuts a text into lines. Texts are handled as
lists of characters, so that each rule is a recursion on the text.

## Contents
- `isBlank`: the White_Space characters of every script.
- `trimStart`, `trimEnd`, `trim`: removal of the blanks at the ends.
- `lines`: the lines of a text, each without its line end.
- `firstWord`: the first run of characters that are not blank.
- `onChars`: a rule on characters applied to a string.
-/

namespace BinaryPatching.Text

/-- A rule on lists of characters, applied to a string. -/
def onChars (f : List Char → List Char) (s : String) : String :=
  String.ofList (f s.toList)

@[simp] theorem toList_onChars (f : List Char → List Char) (s : String) :
    (onChars f s).toList = f s.toList := by
  simp [onChars]

/-! ## Blanks -/

/-- The White_Space characters: the ASCII blanks and the spaces and line ends of other scripts. -/
def isBlank (c : Char) : Bool :=
  let n := c.toNat
  (9 ≤ n && n ≤ 13) || n == 0x20 || n == 0x85 || n == 0xA0 || n == 0x1680 || (0x2000 ≤ n && n ≤ 0x200A)
    || n == 0x2028 || n == 0x2029 || n == 0x202F || n == 0x205F || n == 0x3000

/-- The text without its leading blanks. -/
def trimStart (cs : List Char) : List Char := cs.dropWhile isBlank

/-- The text without its trailing blanks. -/
def trimEnd (cs : List Char) : List Char := (cs.reverse.dropWhile isBlank).reverse

/-- The text without the blanks at its two ends. -/
def trim (cs : List Char) : List Char := trimEnd (trimStart cs)

theorem trimStart_of_not_blank {c : Char} (cs : List Char) (h : isBlank c = false) :
    trimStart (c :: cs) = c :: cs := by
  simp [trimStart, h]

/-- A text without any blank is its own trimmed form. -/
theorem trim_of_no_blank {cs : List Char} (h : ∀ c ∈ cs, isBlank c = false) : trim cs = cs := by
  have hs : trimStart cs = cs := by
    cases cs with
    | nil => rfl
    | cons c rest => exact trimStart_of_not_blank rest (h c (by simp))
  rw [trim, hs]
  cases hr : cs.reverse with
  | nil => simp_all [trimEnd]
  | cons c rest =>
    have hc : c ∈ cs := by
      have : c ∈ cs.reverse := by simp [hr]
      simpa using this
    simp only [trimEnd, hr, List.dropWhile_cons, h c hc]
    rw [← List.reverse_reverse cs, hr]
    rfl

/-- What is no blank is not dropped with the leading blanks. -/
theorem mem_trimStart {c : Char} {cs : List Char} (hc : c ∈ cs) (h : isBlank c = false) : c ∈ trimStart cs := by
  rw [← List.takeWhile_append_dropWhile (p := isBlank) (l := cs)] at hc
  rcases List.mem_append.1 hc with hc | hc
  · have hblank := List.all_eq_true.1 List.all_takeWhile c hc
    rw [h] at hblank
    cases hblank
  · exact hc

/-- What is no blank is not trimmed away. -/
theorem mem_trim {c : Char} {cs : List Char} (hc : c ∈ cs) (h : isBlank c = false) : c ∈ trim cs :=
  List.mem_reverse.2 (mem_trimStart (List.mem_reverse.2 (mem_trimStart hc h)) h)

/-! ## Lines and words -/

/-- A line without a carriage return before its line end. -/
def dropReturn (line : List Char) : List Char :=
  if line.getLast? = some '\r' then line.dropLast else line

/-- The lines of a text whose current line is `line`. A line end closes a line, together with a carriage
    return before it; what follows the last line end is a line only when it is not empty. -/
def linesFrom (line : List Char) : List Char → List (List Char)
  | [] => if line.isEmpty then [] else [line]
  | c :: rest => if c = '\n' then dropReturn line :: linesFrom [] rest else linesFrom (line ++ [c]) rest

/-- The lines of a text, without their line ends. -/
def lines (cs : List Char) : List (List Char) := linesFrom [] cs

/-- No line holds a line end. -/
theorem not_mem_of_mem_linesFrom {line l cs : List Char} (hline : '\n' ∉ line) (h : l ∈ linesFrom line cs) :
    '\n' ∉ l := by
  induction cs generalizing line with
  | nil =>
    unfold linesFrom at h
    split at h
    · simp at h
    · simp at h; exact h ▸ hline
  | cons c rest ih =>
    unfold linesFrom at h
    split at h
    · rcases List.mem_cons.1 h with rfl | h
      · unfold dropReturn
        split
        · exact fun hm => hline (List.dropLast_subset _ hm)
        · exact hline
      · exact ih (by simp) h
    · rename_i hc
      refine ih ?_ h
      simp only [List.mem_append, List.mem_singleton, not_or]
      exact ⟨hline, fun he => hc he.symm⟩

theorem not_mem_of_mem_lines {l cs : List Char} (h : l ∈ lines cs) : '\n' ∉ l :=
  not_mem_of_mem_linesFrom (by simp) h

/-- The first run of characters that are not blank; empty for a blank text. -/
def firstWord (cs : List Char) : List Char :=
  (trimStart cs).takeWhile (fun c => !isBlank c)

end BinaryPatching.Text
