import BinaryPatching.Script.Basic

/-!
# `BinaryPatching.Proofs.Script.Comments` — comments and strings

A comment begins at the first two slashes that are in no string. Where strings end is decided twice: for the comments,
and then for the tokens of what is left. To both a backslash makes the quote behind it a part of the string. But for the
comments two backslashes are a pair, of which the second has no say on the quote any more.

## Contents
- `insideString`, `upToComment`: the strings of a line as its tokens have them, and the line up to its comment.
- `Reading`, `Reading.after`: how far one is in a string, by one of the two rules for backslashes.
- `beforeComment_eq`, `insideString_eq`: the rule of the comments and that of the tokens.
- `insideString_of_tokenize`: the strings are those of the tokens of a line.
- `withoutComment_agrees`: which lines lose just their comment.
-/

namespace BinaryPatching

open Text

/-! ## Strings and comments of a line -/

/-- **Whether a place of a line is in a string**, from the quote that opens it to the one that closes it. A string
without an end goes on to the end of the line. -/
def insideString : List Char → Nat → Bool
  | [], _ => false
  | c :: rest, i =>
    if c = '"' then
      match _h : readQuoted rest with
      | none => true
      | some (_, behind) =>
        let length := rest.length + 1 - behind.length
        i < length || insideString behind (i - length)
    else i != 0 && insideString rest (i - 1)
termination_by line => line.length
decreasing_by
  · have := length_readQuoted _h
    simp only [List.length_cons]
    omega
  · simp only [List.length_cons]
    omega

/-- Whether two slashes are at a place of a line. -/
def slashesAt (line : List Char) (i : Nat) : Bool := ['/', '/'].isPrefixOf (line.drop i)

theorem slashesAt_zero (c : Char) (rest : List Char) :
    slashesAt (c :: rest) 0 = true ↔ c = '/' ∧ rest.head? = some '/' := by
  unfold slashesAt
  cases rest <;> simp [eq_comm (a := '/')]

theorem getElem?_of_slashesAt {cs : List Char} {i : Nat} (h : slashesAt cs i = true) : cs[i]? = some '/' := by
  obtain ⟨rest, hrest⟩ := List.isPrefixOf_iff_prefix.1 h
  have hfirst : cs[i]? = (cs.drop i)[0]? := by rw [List.getElem?_drop, Nat.add_zero]
  rw [hfirst, ← hrest]
  rfl

/-- **A line up to its comment**: up to the first two slashes that are in no string, or all of it. -/
def upToComment (inString : Nat → Bool) (line : List Char) : List Char :=
  match (List.range line.length).find? fun i => slashesAt line i && !inString i with
  | some i => line.take i
  | none => line

/-- The first character of a line is looked at first. -/
theorem upToComment_cons (inString : Nat → Bool) (c : Char) (rest : List Char) :
    upToComment inString (c :: rest)
      = if slashesAt (c :: rest) 0 && !inString 0 then [] else c :: upToComment (fun i => inString (i + 1)) rest := by
  have hrest (i : Nat) : slashesAt (c :: rest) (i + 1) = slashesAt rest i := rfl
  unfold upToComment
  rw [List.length_cons, List.range_succ_eq_map, List.find?_cons]
  cases slashesAt (c :: rest) 0 && !inString 0 with
  | true => rfl
  | false =>
    rw [List.find?_map, if_neg Bool.false_ne_true]
    dsimp only [Function.comp_def, Nat.succ_eq_add_one]
    simp only [hrest]
    cases (List.range rest.length).find? fun i => slashesAt rest i && !inString (i + 1) <;> rfl

/-- **Two opinions about where strings are** agree on the first slashes that one of them takes for a comment. -/
def AgreeOnComment (p q : Nat → Bool) (line : List Char) : Prop :=
  ∀ i, slashesAt line i = true → (∀ j < i, slashesAt line j = true → p j = true ∧ q j = true) → p i = q i

theorem agreeOnComment_cons (p q : Nat → Bool) (c : Char) (rest : List Char) :
    AgreeOnComment p q (c :: rest) ↔
      (slashesAt (c :: rest) 0 = true → p 0 = q 0) ∧
      ((slashesAt (c :: rest) 0 = true → p 0 = true ∧ q 0 = true) →
        AgreeOnComment (fun i => p (i + 1)) (fun i => q (i + 1)) rest) := by
  constructor
  · intro h
    refine ⟨fun hzero => h 0 hzero fun j hj => absurd hj (Nat.not_lt_zero j), fun hzero i hi hbefore => ?_⟩
    refine h (i + 1) hi fun j hj hslashes => ?_
    cases j with
    | zero => exact hzero hslashes
    | succ j => exact hbefore j (Nat.lt_of_succ_lt_succ hj) hslashes
  · rintro ⟨hzero, hrest⟩ i hi hbefore
    cases i with
    | zero => exact hzero hi
    | succ i =>
      refine hrest (hbefore 0 (Nat.succ_pos i)) i hi fun j hj hslashes => ?_
      exact hbefore (j + 1) (Nat.succ_lt_succ hj) hslashes

/-- Such opinions, and no others, have the same left of a line. -/
theorem upToComment_eq_iff (p q : Nat → Bool) (line : List Char) :
    upToComment p line = upToComment q line ↔ AgreeOnComment p q line := by
  induction line generalizing p q with
  | nil =>
    refine iff_of_true rfl fun i hi _ => ?_
    rw [slashesAt, List.drop_nil] at hi
    cases hi
  | cons c rest ih =>
    rw [agreeOnComment_cons, upToComment_cons, upToComment_cons, ← ih]
    cases slashesAt (c :: rest) 0 <;> cases p 0 <;> cases q 0 <;> simp

/-! ## Two rules for backslashes -/

/-- **How far one is in a string** while reading a line. -/
inductive Reading where
  /-- In no string. -/
  | outside
  /-- In a string. -/
  | inside
  /-- In a string, behind a backslash that the next character may belong to. -/
  | behindBackslash
deriving Repr, DecidableEq

namespace Reading

/-- Whether one is in a string. -/
def isInside : Reading → Bool
  | outside => false
  | _ => true

/-- Whether the next character may belong to a backslash. -/
def isEscaped : Reading → Bool
  | behindBackslash => true
  | _ => false

/-- **One more character.** Behind a backslash a quote is a part of the string. A second backslash there is either one
of a pair, or the next character may belong to it as well. -/
def step (pairs : Bool) : Reading → Char → Reading
  | outside, c => if c = '"' then inside else outside
  | inside, c => if c = '"' then outside else if c = '\\' then behindBackslash else inside
  | behindBackslash, c => if c = '\\' ∧ pairs = false then behindBackslash else inside

/-- The reading after the beginning of a line. -/
def after (pairs : Bool) (front : List Char) : Reading := front.foldl (step pairs) outside

end Reading

/-! ## The rule of the comments -/

open Reading in
/-- A line is cut where its reading with pairs of backslashes is in no string. -/
theorem beforeComment_eq (s : Reading) (line : List Char) :
    beforeComment s.isInside s.isEscaped line
      = upToComment (fun i => ((line.take i).foldl (step true) s).isInside) line := by
  induction line generalizing s with
  | nil => rfl
  | cons c rest ih =>
    have hrest : beforeComment (step true s c).isInside (step true s c).isEscaped rest
        = upToComment (fun i => (((c :: rest).take (i + 1)).foldl (step true) s).isInside) rest := ih (step true s c)
    have hfront : ((c :: rest).take 0).foldl (step true) s = s := rfl
    rw [upToComment_cons, ← hrest, hfront, beforeComment]
    cases s with
    | outside =>
      by_cases hquote : c = '"'
      · have hslashes : slashesAt (c :: rest) 0 = false := by
          rw [← Bool.not_eq_true, slashesAt_zero, hquote]
          exact fun h => absurd h.1 (by decide)
        simp [step, isInside, isEscaped, hquote, hquote ▸ hslashes]
      · by_cases hslashes : slashesAt (c :: rest) 0 = true
        · obtain ⟨hc, hhead⟩ := (slashesAt_zero c rest).1 hslashes
          simp [isInside, isEscaped, hc, hhead, hc ▸ hslashes]
        · have hnot := (not_congr (slashesAt_zero c rest)).1 hslashes
          simp [step, isInside, isEscaped, hquote, hslashes, hnot]
    | inside =>
      by_cases hbackslash : c = '\\'
      · simp [step, isInside, isEscaped, hbackslash]
      · by_cases hquote : c = '"' <;> simp [step, isInside, isEscaped, hbackslash, hquote]
    | behindBackslash =>
      by_cases hbackslash : c = '\\' <;> simp [step, isInside, isEscaped, hbackslash]

/-! ## The rule of the tokens -/

namespace Reading

/-- **A character of a string** that is no quote makes no difference, unless it is a backslash before a quote. -/
theorem foldl_cons_inside {c d : Char} (hquote : c ≠ '"') (hpair : c = '\\' → d ≠ '"') (cs : List Char) :
    (c :: d :: cs).foldl (step false) inside = (d :: cs).foldl (step false) inside := by
  rw [List.foldl_cons, List.foldl_cons, List.foldl_cons]
  by_cases hbackslash : c = '\\'
  · simp [step, hbackslash, hpair hbackslash]
  · simp [step, hquote, hbackslash]

theorem isInside_step_inside {c : Char} (hquote : c ≠ '"') : (step false inside c).isInside = true := by
  by_cases hbackslash : c = '\\' <;> simp [step, isInside, hquote, hbackslash]

/-- **A string without an end** is never left. -/
theorem isInside_of_readQuoted_eq_none {cs : List Char} (h : readQuoted cs = none) (k : Nat) :
    ((cs.take k).foldl (step false) inside).isInside = true := by
  fun_induction readQuoted cs generalizing k with
  | case1 => rw [List.take_nil]; rfl
  | case2 rest ih =>
    have hrest : readQuoted rest = none := Option.map_eq_none_iff.1 h
    rcases k with _ | _ | k
    · rfl
    · rfl
    · exact ih hrest k
  | case3 rest => cases h
  | case4 c rest hpair hquote ih =>
    have hrest : readQuoted rest = none := Option.map_eq_none_iff.1 h
    rcases k with _ | _ | k
    · rfl
    · exact isInside_step_inside hquote
    · cases rest with
      | nil => exact isInside_step_inside hquote
      | cons d rest =>
        have hstep := foldl_cons_inside hquote (fun hc hd => hpair rest hc (hd ▸ rfl)) (rest.take k)
        rw [List.take_succ_cons, List.take_succ_cons, hstep]
        exact ih hrest (k + 1)

/-- **A string with an end** is left there, and not before. -/
theorem exists_of_readQuoted_eq_some {cs text behind : List Char} (h : readQuoted cs = some (text, behind)) :
    ∃ literal, cs = literal ++ behind ∧ literal.foldl (step false) inside = outside ∧
      ∀ k < literal.length, ((literal.take k).foldl (step false) inside).isInside = true := by
  fun_induction readQuoted cs generalizing text with
  | case1 => cases h
  | case2 rest ih =>
    obtain ⟨⟨inner, _⟩, hrest, heq⟩ := Option.map_eq_some_iff.1 h
    cases heq
    obtain ⟨literal, rfl, hleft, hinside⟩ := ih hrest
    refine ⟨'\\' :: '"' :: literal, rfl, hleft, fun k hk => ?_⟩
    rcases k with _ | _ | k
    · rfl
    · rfl
    · exact hinside k (by simpa using hk)
  | case3 rest =>
    cases h
    refine ⟨['"'], rfl, rfl, fun k hk => ?_⟩
    obtain rfl : k = 0 := Nat.lt_one_iff.1 hk
    rfl
  | case4 c rest hpair hquote ih =>
    obtain ⟨⟨inner, _⟩, hrest, heq⟩ := Option.map_eq_some_iff.1 h
    cases heq
    obtain ⟨literal, rfl, hleft, hinside⟩ := ih hrest
    cases literal with
    | nil => cases hleft
    | cons d literal =>
      have hstep := foldl_cons_inside hquote fun hc hd => hpair (literal ++ behind) hc (hd ▸ rfl)
      refine ⟨c :: d :: literal, rfl, (hstep literal).trans hleft, fun k hk => ?_⟩
      rcases k with _ | _ | k
      · rfl
      · exact isInside_step_inside hquote
      · rw [List.take_succ_cons, List.take_succ_cons, hstep]
        exact hinside (k + 1) (Nat.lt_of_succ_lt_succ hk)

end Reading

/-- **The strings of a line** are read by the rule of the tokens. -/
theorem insideString_eq (cs : List Char) (i : Nat) (hquote : cs[i]? ≠ some '"') :
    insideString cs i = (Reading.after false (cs.take i)).isInside := by
  fun_induction insideString cs i with
  | case1 i => rw [List.take_nil]; rfl
  | case2 rest i hnone =>
    cases i with
    | zero => exact absurd rfl hquote
    | succ i => exact (Reading.isInside_of_readQuoted_eq_none hnone i).symm
  | case3 rest i text behind hsome length ih =>
    obtain ⟨literal, rfl, hleft, hinside⟩ := Reading.exists_of_readQuoted_eq_some hsome
    have hlength : length = literal.length + 1 := by
      show (literal ++ behind).length + 1 - behind.length = literal.length + 1
      rw [List.length_append]
      omega
    -- The place is in the string that opens here, or the rest is read as if it were a line of its own.
    by_cases hi : i < length
    · rw [decide_eq_true hi, Bool.true_or]
      cases i with
      | zero => exact absurd rfl hquote
      | succ k =>
        have hk : k < literal.length := by omega
        have hin := hinside k hk
        have htake : (literal ++ behind).take k = literal.take k := List.take_append_of_le_length (Nat.le_of_lt hk)
        rw [← htake] at hin
        exact hin.symm
    · obtain ⟨m, rfl⟩ : ∃ m, i = length + m := ⟨i - length, by omega⟩
      have hline : '"' :: (literal ++ behind) = ('"' :: literal) ++ behind := rfl
      have hopened : ('"' :: literal).length = length := hlength.symm
      have hclosed : ('"' :: literal).foldl (Reading.step false) .outside = .outside := hleft
      rw [hline, List.getElem?_append_right (by omega), hopened, Nat.add_sub_cancel_left] at hquote
      rw [Nat.add_sub_cancel_left] at ih
      rw [decide_eq_false hi, Bool.false_or, Nat.add_sub_cancel_left, ih hquote, hline, ← hopened,
        List.take_length_add_append, Reading.after, Reading.after, List.foldl_append, hclosed]
  | case4 c rest i hc ih =>
    have hstep : Reading.step false .outside c = .outside := if_neg hc
    cases i with
    | zero => rfl
    | succ i =>
      have hrest := ih hquote
      rw [Reading.after, List.take_succ_cons, List.foldl_cons, hstep]
      exact hrest

/-! ## Strings and tokens -/

/-- What is without quotes leaves one outside of strings. -/
theorem Reading.after_append {front : List Char} (h : ∀ c ∈ front, c ≠ '"') (rest : List Char) :
    after false (front ++ rest) = after false rest := by
  induction front with
  | nil => rfl
  | cons c front ih =>
    have hc : step false outside c = outside := if_neg (h c (List.mem_cons_self ..))
    rw [List.cons_append, after, List.foldl_cons, hc]
    exact ih fun d hd => h d (List.mem_cons_of_mem c hd)

/-- **A list of tokens or an error** tells whether the text ends in a string: it has no tokens then, but may have
another error before. -/
def Token.Tells (result : Except PatternError (List Token)) (isInside : Bool) : Prop :=
  (∀ tokens, result = .ok tokens → isInside = false) ∧
    ∀ column, result = .error (.unterminatedString column) → isInside = true

namespace Token

theorem Tells.map {result : Except PatternError (List Token)} {isInside : Bool} (h : Tells result isInside)
    (token : Token) : Tells (result.map (token :: ·)) isInside := by
  cases result with
  | ok tokens => exact ⟨fun _ _ => h.1 tokens rfl, fun _ herror => by cases herror⟩
  | error e =>
    refine ⟨fun _ hok => (by cases hok), fun column herror => h.2 column ?_⟩
    cases herror
    rfl

theorem tells_error {e : PatternError} (h : ∀ column, e ≠ .unterminatedString column) (isInside : Bool) :
    Tells (.error e) isInside := by
  refine ⟨fun _ hok => (by cases hok), fun column herror => ?_⟩
  cases herror
  exact absurd rfl (h column)

/-- A word is no part of a string. -/
theorem after_word {p : Char → Bool} {c : Char} (hc : c ≠ '"') (hp : p '"' = false) (rest : List Char) :
    Reading.after false (c :: rest) = Reading.after false (rest.dropWhile p) := by
  have hword : ∀ d ∈ c :: rest.takeWhile p, d ≠ '"' := by
    intro d hd
    rcases List.mem_cons.1 hd with rfl | hd
    · exact hc
    · rintro rfl
      have hquote := List.all_eq_true.1 List.all_takeWhile '"' hd
      rw [hp] at hquote
      cases hquote
  have hafter := Reading.after_append hword (rest.dropWhile p)
  rw [List.cons_append, List.takeWhile_append_dropWhile] at hafter
  exact hafter

/-- The tokens of a text tell whether it ends in a string. -/
theorem tells_scan (total : Nat) (previous : Option Token) (cs : List Char) :
    Tells (scan total previous cs) (Reading.after false cs).isInside := by
  have hsingle {c : Char} (hc : c ≠ '"') (rest : List Char) :
      Reading.after false (c :: rest) = Reading.after false rest := by
    have hfront : ∀ d ∈ [c], d ≠ '"' := fun d hd => List.mem_singleton.1 hd ▸ hc
    exact Reading.after_append hfront rest
  fun_induction scan total previous cs with
  | case1 => exact ⟨fun _ _ => rfl, fun _ herror => by cases herror⟩
  | case2 previous c rest hblank ih =>
    have hc : c ≠ '"' := fun he => absurd (he ▸ hblank) (by decide)
    rw [hsingle hc]
    exact ih
  | case3 previous c rest _ hname token ih =>
    have hc : c ≠ '"' := fun he => absurd (he ▸ hname) (by decide)
    rw [after_word hc (by decide : continuesName '"' = false)]
    exact ih.map token
  | case4 => exact tells_error (fun _ he => by cases he) _
  | case5 previous c rest _ _ hnumber text v _ ih =>
    have hc : c ≠ '"' := by
      rintro rfl
      cases hnumber
    rw [after_word hc (by decide : continuesNumber '"' = false)]
    exact ih.map (number text v)
  | case6 previous rest hnone =>
    have hinside := Reading.isInside_of_readQuoted_eq_none hnone rest.length
    rw [List.take_length] at hinside
    exact ⟨fun _ hok => (by cases hok), fun _ _ => hinside⟩
  | case7 previous rest text behind hsome token _ _ _ ih =>
    -- The string is left where it ends, so that what is behind it decides.
    obtain ⟨literal, rfl, hleft, _⟩ := Reading.exists_of_readQuoted_eq_some hsome
    have hclosed : Reading.after false ('"' :: (literal ++ behind)) = Reading.after false behind := by
      show (literal ++ behind).foldl (Reading.step false) .inside = _
      rw [List.foldl_append, hleft, Reading.after]
    rw [hclosed]
    exact ih.map token
  | case8 => exact tells_error (fun _ he => by cases he) _
  | case9 previous c rest _ _ _ hc token _ ih =>
    rw [hsingle hc]
    exact ih.map token

end Token

/-- **The strings of a line are those of its tokens**: where what is before a place can be read as tokens, the place is
in no string, and where it has a string without an end, the place is in that string. -/
theorem insideString_of_tokenize {front : String} {rest : List Char} (hrest : rest.head? ≠ some '"') :
    Token.Tells (tokenize front) (insideString (front.toList ++ rest) front.toList.length) := by
  have hquote : (front.toList ++ rest)[front.toList.length]? ≠ some '"' := by
    rw [List.getElem?_append_right (Nat.le_refl _), Nat.sub_self, ← List.head?_eq_getElem?]
    exact hrest
  rw [insideString_eq _ _ hquote, List.take_left]
  exact Token.tells_scan _ none _

/-! ## Lines without their comment -/

/-- Whether a place of a line is in a string if two backslashes in a string are a pair. -/
def insidePairedString (line : List Char) (i : Nat) : Bool := (Reading.after true (line.take i)).isInside

/-- A line is cut where its reading with pairs of backslashes is in no string. -/
theorem withoutComment_eq (line : List Char) : withoutComment line = upToComment (insidePairedString line) line :=
  beforeComment_eq .outside line

/-- **The two rules for backslashes** differ where a quote is behind two of them. -/
def lostQuote : List Char := ['\\', '\\', '"']

namespace Reading

/-- **How far apart the two rules are**: by what the last of two backslashes is, if at all. -/
structure Close (front : List Char) (a b : Reading) : Prop where
  /-- They are in a string both or neither. -/
  alike : a = b ∨ (a = inside ∧ b = behindBackslash ∧ ['\\', '\\'] <:+ front)
  /-- What the next character may belong to is a backslash. -/
  backslash : b = behindBackslash → ['\\'] <:+ front

theorem Close.isInside_eq {front : List Char} {a b : Reading} (h : Close front a b) : a.isInside = b.isInside := by
  rcases h.alike with rfl | ⟨rfl, rfl, _⟩ <;> rfl

/-- One more character leaves them as close, unless it is a quote behind two backslashes. -/
theorem Close.step {front : List Char} {a b : Reading} (h : Close front a b) {c : Char}
    (hlost : ¬lostQuote <:+ front ++ [c]) : Close (front ++ [c]) (step true a c) (step false b c) := by
  have hextend {cs : List Char} (hcs : cs <:+ front) : cs ++ [c] <:+ front ++ [c] := by
    obtain ⟨before, rfl⟩ := hcs
    exact ⟨before, (List.append_assoc ..).symm⟩
  -- Only a backslash behind a backslash takes the two rules apart, and only a quote would keep them so.
  by_cases hbackslash : c = '\\'
  · subst hbackslash
    have hlast : ['\\'] <:+ front ++ ['\\'] := List.suffix_append front ['\\']
    rcases h.alike with rfl | ⟨rfl, rfl, _⟩
    · cases a with
      | outside => exact ⟨.inl rfl, fun hnot => by cases hnot⟩
      | inside => exact ⟨.inl rfl, fun _ => hlast⟩
      | behindBackslash => exact ⟨.inr ⟨rfl, rfl, hextend (h.backslash rfl)⟩, fun _ => hlast⟩
    · exact ⟨.inl rfl, fun _ => hlast⟩
  · have hnot (s : Reading) : Reading.step false s c ≠ behindBackslash := by
      cases s <;> by_cases hquote : c = '"' <;> simp [Reading.step, hquote, hbackslash]
    refine ⟨.inl ?_, fun hbehind => absurd hbehind (hnot b)⟩
    rcases h.alike with rfl | ⟨rfl, rfl, hpair⟩
    · cases a <;> simp [Reading.step, hbackslash]
    · have hquote : c ≠ '"' := by
        rintro rfl
        exact hlost (hextend hpair)
      simp [Reading.step, hquote, hbackslash]

/-- All further characters do, if there is no such quote. -/
theorem Close.foldl {front rest : List Char} {a b : Reading} (h : Close front a b)
    (hlost : ¬lostQuote <:+: front ++ rest) :
    Close (front ++ rest) (rest.foldl (Reading.step true) a) (rest.foldl (Reading.step false) b) := by
  induction rest generalizing front a b with
  | nil => rwa [List.append_nil]
  | cons c rest ih =>
    rw [List.append_cons] at hlost ⊢
    refine ih (h.step fun hsuffix => hlost ?_) hlost
    exact hsuffix.isInfix.trans (List.prefix_append (front ++ [c]) rest).isInfix

/-- **Without a quote behind two backslashes** both rules find the same strings. -/
theorem isInside_after_eq {front : List Char} (hlost : ¬lostQuote <:+: front) :
    (after true front).isInside = (after false front).isInside := by
  have hstart : Close [] outside outside := ⟨.inl rfl, fun h => by cases h⟩
  exact (hstart.foldl hlost).isInside_eq

end Reading

/-- Where no quote is behind two backslashes, both kinds of strings agree on all slashes. -/
theorem agreeOnComment_of_not_lostQuote {line : List Char} (hlost : ¬lostQuote <:+: line) :
    AgreeOnComment (insidePairedString line) (insideString line) line := by
  intro i hi _
  have hslash := getElem?_of_slashesAt hi
  have hinside := insideString_eq line i (by rw [hslash]; decide)
  rw [hinside, insidePairedString]
  exact Reading.isInside_after_eq fun hfront => hlost (hfront.trans (List.take_prefix i line).isInfix)

/-- **A line without its comment** is what is before the first two slashes that are in no string, where in strings two
backslashes are a pair. With the strings that the tokens of the line have it is the same just if both kinds of strings
agree on the first slashes that are outside of one of them. They do if no quote of the line is behind two backslashes. -/
theorem withoutComment_agrees (line : List Char) :
    withoutComment line = upToComment (insidePairedString line) line ∧
      (withoutComment line = upToComment (insideString line) line ↔
        AgreeOnComment (insidePairedString line) (insideString line) line) ∧
      (¬lostQuote <:+: line → withoutComment line = upToComment (insideString line) line) := by
  have hiff : withoutComment line = upToComment (insideString line) line ↔
      AgreeOnComment (insidePairedString line) (insideString line) line := by
    rw [withoutComment_eq]
    exact upToComment_eq_iff _ _ line
  exact ⟨withoutComment_eq line, hiff, fun hlost => hiff.2 (agreeOnComment_of_not_lostQuote hlost)⟩

/-- A line with a string that has a quote behind two backslashes in it, and slashes behind that. -/
def lostLine : String := "Log \"a\\\\\"//b\""

/-- **A comment in a string**: the slashes of that string are taken for one. -/
theorem exists_withoutComment_ne :
    (tokenize lostLine).toOption = some [.name "Log", .string "a\\\"//b"] ∧
      upToComment (insideString lostLine.toList) lostLine.toList = lostLine.toList ∧
      withoutComment lostLine.toList = "Log \"a\\\\\"".toList ∧
      withoutComment lostLine.toList ≠ upToComment (insideString lostLine.toList) lostLine.toList := by
  have hwhole : upToComment (insideString lostLine.toList) lostLine.toList = lostLine.toList := by decide +kernel
  have hcut : withoutComment lostLine.toList = "Log \"a\\\\\"".toList := by decide +kernel
  refine ⟨by decide +kernel, hwhole, hcut, ?_⟩
  rw [hcut, hwhole]
  decide +kernel

end BinaryPatching
