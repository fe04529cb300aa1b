import BinaryPatching.Text.Blank

/-!
# `BinaryPatching.Text.Split` — the parts of a text between separators

## Contents
- `splitAt`: all parts, empty ones among them.
- `splitOnce`: the parts before and after the first separator.
-/

namespace BinaryPatching.Text

/-- The parts of a text between separators, when the part read so far is `part`. -/
def splitFrom (separator : Char → Bool) (part : List Char) : List Char → List (List Char)
  | [] => [part]
  | c :: rest =>
    if separator c then part :: splitFrom separator [] rest else splitFrom separator (part ++ [c]) rest

/-- The parts of a text between separators; one more than there are separators. -/
def splitAt (separator : Char → Bool) (cs : List Char) : List (List Char) := splitFrom separator [] cs

/-- A separator in no part: the parts are what stands between separators. -/
theorem not_separator_of_mem_splitFrom {separator : Char → Bool} {part cs l : List Char}
    (hpart : ∀ c ∈ part, separator c = false) (h : l ∈ splitFrom separator part cs) :
    ∀ c ∈ l, separator c = false := by
  induction cs generalizing part with
  | nil => simp [splitFrom] at h; exact h ▸ hpart
  | cons c rest ih =>
    unfold splitFrom at h
    split at h
    · rcases List.mem_cons.1 h with rfl | h
      · exact hpart
      · exact ih (by simp) h
    · rename_i hc
      refine ih ?_ h
      intro d hd
      rcases List.mem_append.1 hd with hd | hd
      · exact hpart d hd
      · simp at hd; simpa [hd] using hc

theorem not_separator_of_mem_splitAt {separator : Char → Bool} {cs l : List Char}
    (h : l ∈ splitAt separator cs) : ∀ c ∈ l, separator c = false :=
  not_separator_of_mem_splitFrom (by simp) h

/-- A separator ends the parts before it. -/
theorem splitFrom_append {separator : Char → Bool} {c : Char} (hc : separator c = true) (part as bs : List Char) :
    splitFrom separator part (as ++ c :: bs) = splitFrom separator part as ++ splitAt separator bs := by
  induction as generalizing part with
  | nil => exact if_pos hc
  | cons a as ih =>
    rw [List.cons_append, splitFrom, splitFrom]
    split
    · rw [ih, List.cons_append]
    · exact ih _

theorem splitAt_append {separator : Char → Bool} {c : Char} (hc : separator c = true) (as bs : List Char) :
    splitAt separator (as ++ c :: bs) = splitAt separator as ++ splitAt separator bs :=
  splitFrom_append hc [] as bs

/-- A text without separators is one part. -/
theorem splitFrom_of_clear {separator : Char → Bool} {cs : List Char} (h : ∀ c ∈ cs, separator c = false)
    (part : List Char) : splitFrom separator part cs = [part ++ cs] := by
  induction cs generalizing part with
  | nil => rw [splitFrom, List.append_nil]
  | cons c cs ih =>
    have hc : ¬separator c = true := by rw [h c List.mem_cons_self]; exact Bool.false_ne_true
    rw [splitFrom, if_neg hc, ih (fun d hd => h d (List.mem_cons_of_mem _ hd)), List.append_assoc, List.singleton_append]

theorem splitAt_of_clear {separator : Char → Bool} {cs : List Char} (h : ∀ c ∈ cs, separator c = false) :
    splitAt separator cs = [cs] := splitFrom_of_clear h []

/-- Parts without separators, each with a separator behind it, are just the parts of their text, with an empty one at its
end. -/
theorem splitAt_flatMap {separator : Char → Bool} {c : Char} (hc : separator c = true) {parts : List (List Char)}
    (h : ∀ part ∈ parts, ∀ d ∈ part, separator d = false) :
    splitAt separator (parts.flatMap (· ++ [c])) = parts ++ [[]] := by
  induction parts with
  | nil => rfl
  | cons part parts ih =>
    rw [List.flatMap_cons, List.append_assoc, List.singleton_append, splitAt_append hc,
      splitAt_of_clear (h part List.mem_cons_self), ih fun p hp => h p (List.mem_cons_of_mem part hp),
      List.singleton_append, List.cons_append]

/-- What is no separator stands in one of the parts. -/
theorem exists_mem_splitFrom {separator : Char → Bool} {c : Char} {part cs : List Char} (h : separator c = false)
    (hc : c ∈ part ∨ c ∈ cs) : ∃ l ∈ splitFrom separator part cs, c ∈ l := by
  induction cs generalizing part with
  | nil => exact ⟨part, List.mem_singleton_self part, hc.resolve_right List.not_mem_nil⟩
  | cons d rest ih =>
    unfold splitFrom
    split
    · rename_i hd
      rcases hc with hc | hc
      · exact ⟨part, List.mem_cons_self, hc⟩
      · rcases List.mem_cons.1 hc with rfl | hc
        · rw [h] at hd
          cases hd
        · obtain ⟨l, hl, hcl⟩ := @ih [] (.inr hc)
          exact ⟨l, List.mem_cons_of_mem _ hl, hcl⟩
    · refine ih ?_
      rcases hc with hc | hc
      · exact .inl (List.mem_append_left _ hc)
      · rcases List.mem_cons.1 hc with rfl | hc
        · exact .inl (List.mem_append_right _ (List.mem_singleton_self c))
        · exact .inr hc

theorem exists_mem_splitAt {separator : Char → Bool} {c : Char} {cs : List Char} (h : separator c = false)
    (hc : c ∈ cs) : ∃ l ∈ splitAt separator cs, c ∈ l := exists_mem_splitFrom h (.inr hc)

/-- What stands before and after the first occurrence of a character. -/
def splitOnce (separator : Char) (cs : List Char) : Option (List Char × List Char) :=
  match cs.dropWhile (· != separator) with
  | [] => none
  | _ :: rest => some (cs.takeWhile (· != separator), rest)

/-- The first occurrence is the one with no other before it. -/
theorem splitOnce_append {separator : Char} {before : List Char} (h : separator ∉ before) (after : List Char) :
    splitOnce separator (before ++ separator :: after) = some (before, after) := by
  have hbefore : ∀ c ∈ before, (c != separator) = true := fun c hc => bne_iff_ne.2 fun heq => h (heq ▸ hc)
  unfold splitOnce
  rw [List.dropWhile_append_of_pos hbefore, List.takeWhile_append_of_pos hbefore]
  simp

theorem splitOnce_eq_some {separator : Char} {cs before after : List Char}
    (h : splitOnce separator cs = some (before, after)) :
    cs = before ++ separator :: after ∧ separator ∉ before := by
  unfold splitOnce at h
  split at h
  · simp at h
  · rename_i c rest hd
    simp only [Option.some.injEq, Prod.mk.injEq] at h
    obtain ⟨rfl, rfl⟩ := h
    have hc : c = separator := by
      have := List.head?_dropWhile_not (· != separator) cs
      simpa [hd] using this
    refine ⟨?_, fun hm => ?_⟩
    · rw [← hc, ← hd, hc]; exact (List.takeWhile_append_dropWhile).symm
    · simpa using List.all_eq_true.1 List.all_takeWhile _ hm

end BinaryPatching.Text
