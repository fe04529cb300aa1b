import BinaryPatching.Proofs.Pattern.Lexing

/-!
# `BinaryPatching.Proofs.Pattern.Concatenation` — the tokens of joined texts

Texts keep their tokens when they are joined, as long as no word goes on from one to the next. All that a text hears of
what is before it is whether an operand ends there, and all that it can lose by that is a sign at its beginning: behind
an operand the sign is a token of its own.

## Contents
- `Token.Lexes`, `Token.scan_eq_ok_iff`: how the tokens of a text are read one after the other.
- `Token.Lexes.append`: the tokens of a text with more behind it.
- `Token.Lexes.behind`: the tokens of a text behind others.
-/

namespace BinaryPatching

open Text

namespace Token

/-! ## Reading -/

/-- Whether no word of some characters goes on at the front of a text. -/
def stops (p : Char → Bool) (cs : List Char) : Bool := cs.head?.all fun c => !p c

/-- **How the tokens of a text are read** after the token `previous`. -/
inductive Lexes : Option Token → List Char → List Token → Prop where
  /-- Nothing is left. -/
  | nil {previous : Option Token} : Lexes previous [] []
  /-- A blank is passed over. -/
  | blank {previous : Option Token} {c : Char} {rest : List Char} {tokens : List Token} (hblank : isBlank c = true)
    (hrest : Lexes previous rest tokens) : Lexes previous (c :: rest) tokens
  /-- A name goes up to its end. -/
  | name {previous : Option Token} {c : Char} {word rest : List Char} {tokens : List Token}
    (hblank : isBlank c = false) (hbegins : beginsName c = true) (hword : ∀ d ∈ word, continuesName d = true)
    (hend : stops continuesName rest = true) (hrest : Lexes (some (.name (String.ofList (c :: word)))) rest tokens) :
    Lexes previous (c :: (word ++ rest)) (.name (String.ofList (c :: word)) :: tokens)
  /-- A number goes up to its end. -/
  | number {previous : Option Token} {c : Char} {word rest : List Char} {v : Int} {tokens : List Token}
    (hblank : isBlank c = false) (hname : beginsName c = false)
    (hbegins : beginsNumber previous c (word ++ rest) = true) (hword : ∀ d ∈ word, continuesNumber d = true)
    (hend : stops continuesNumber rest = true)
    (hvalue : parseNumber (String.ofList (c :: word)) = some v)
    (hrest : Lexes (some (.number (String.ofList (c :: word)) v)) rest tokens) :
    Lexes previous (c :: (word ++ rest)) (.number (String.ofList (c :: word)) v :: tokens)
  /-- A string goes up to its quote. -/
  | string {previous : Option Token} {rest text behind : List Char} {tokens : List Token}
    (hquoted : readQuoted rest = some (text, behind))
    (hrest : Lexes (some (.string (String.ofList text))) behind tokens) :
    Lexes previous ('"' :: rest) (.string (String.ofList text) :: tokens)
  /-- A symbol stands where nothing else begins. -/
  | symbol {previous : Option Token} {c : Char} {rest : List Char} {token : Token} {tokens : List Token}
    (hblank : isBlank c = false) (hname : beginsName c = false) (hnumber : beginsNumber previous c rest = false)
    (hquote : c ≠ '"') (hsymbol : ofSymbol? c = some token) (hrest : Lexes (some token) rest tokens) :
    Lexes previous (c :: rest) (token :: tokens)

/-- A word is read up to where none goes on. -/
theorem takeWhile_of_stops {p : Char → Bool} {word rest : List Char} (hword : ∀ c ∈ word, p c = true)
    (hend : stops p rest = true) : (word ++ rest).takeWhile p = word ∧ (word ++ rest).dropWhile p = rest := by
  rw [List.takeWhile_append_of_pos hword, List.dropWhile_append_of_pos hword]
  cases rest with
  | nil => exact ⟨List.append_nil _, rfl⟩
  | cons c rest =>
    have hc : ¬p c = true := by simpa [stops] using hend
    rw [List.takeWhile_cons_of_neg hc, List.dropWhile_cons_of_neg hc]
    exact ⟨List.append_nil _, rfl⟩

theorem stops_dropWhile (p : Char → Bool) (cs : List Char) : stops p (cs.dropWhile p) = true := by
  have hnot := List.head?_dropWhile_not p cs
  unfold stops
  cases hhead : (cs.dropWhile p).head? with
  | none => rfl
  | some c =>
    rw [hhead] at hnot
    rw [Option.all_some, hnot]
    rfl

/-- What has a token at its front, and others behind it. -/
theorem map_cons_eq_ok {ε : Type} {token : Token} {tokens : List Token} {result : Except ε (List Token)}
    (h : result.map (token :: ·) = .ok tokens) : ∃ rest, result = .ok rest ∧ tokens = token :: rest := by
  cases result with
  | error e => cases h
  | ok rest => exact ⟨rest, rfl, (Except.ok.inj h).symm⟩

theorem lexes_of_scan {total : Nat} {previous : Option Token} {cs : List Char} :
    ∀ {tokens}, scan total previous cs = .ok tokens → Lexes previous cs tokens := by
  have hall (p : Char → Bool) (rest : List Char) : ∀ d ∈ rest.takeWhile p, p d = true :=
    List.all_eq_true.1 List.all_takeWhile
  fun_induction scan total previous cs
  case case4 | case6 | case8 => exact fun h => nomatch h
  case case1 =>
    intro tokens h
    cases h
    exact .nil
  case case2 previous c rest hblank ih => exact fun h => .blank hblank (ih h)
  case case3 previous c rest hblank hname token ih =>
    intro tokens h
    obtain ⟨others, hrest, rfl⟩ := map_cons_eq_ok h
    have hlexes : Lexes previous (c :: (rest.takeWhile continuesName ++ rest.dropWhile continuesName))
        (token :: others) :=
      .name (Bool.eq_false_iff.2 hblank) hname (hall continuesName rest) (stops_dropWhile continuesName rest) (ih hrest)
    rwa [List.takeWhile_append_dropWhile] at hlexes
  case case5 previous c rest hblank hname hnumber text v hv ih =>
    intro tokens h
    obtain ⟨others, hrest, rfl⟩ := map_cons_eq_ok h
    rw [← List.takeWhile_append_dropWhile (p := continuesNumber) (l := rest)] at hnumber
    have hlexes := Lexes.number (Bool.eq_false_iff.2 hblank) (Bool.eq_false_iff.2 hname) hnumber
      (hall continuesNumber rest) (stops_dropWhile continuesNumber rest) hv (ih hrest)
    rwa [List.takeWhile_append_dropWhile] at hlexes
  case case7 previous rest text behind hquoted _ _ _ token ih =>
    intro tokens h
    obtain ⟨others, hrest, rfl⟩ := map_cons_eq_ok h
    exact .string hquoted (ih hrest)
  case case9 previous c rest hblank hname hnumber hquote token hsymbol ih =>
    intro tokens h
    obtain ⟨others, hrest, rfl⟩ := map_cons_eq_ok h
    exact .symbol (Bool.eq_false_iff.2 hblank) (Bool.eq_false_iff.2 hname) (Bool.eq_false_iff.2 hnumber) hquote
      hsymbol (ih hrest)

theorem Lexes.scan_eq {previous : Option Token} {cs : List Char} {tokens : List Token} (h : Lexes previous cs tokens)
    (total : Nat) : scan total previous cs = .ok tokens := by
  induction h with
  | nil => exact scan_nil
  | blank hblank _ ih => rw [scan_blank hblank, ih]
  | name hblank hbegins hword hend _ ih =>
    obtain ⟨htake, hdrop⟩ := takeWhile_of_stops hword hend
    rw [scan.eq_def]
    dsimp only
    rw [hblank, if_neg Bool.false_ne_true, if_pos hbegins, htake, hdrop, ih]
    rfl
  | number hblank hname hbegins hword hend hvalue _ ih =>
    obtain ⟨htake, hdrop⟩ := takeWhile_of_stops hword hend
    rw [scan.eq_def]
    dsimp only
    rw [hblank, if_neg Bool.false_ne_true, hname, if_neg Bool.false_ne_true, if_pos hbegins, htake, hdrop, hvalue]
    dsimp only
    rw [ih]
    rfl
  | string hquoted _ ih =>
    rw [scan.eq_def]
    dsimp only
    rw [if_neg (by decide), if_neg (by decide), if_neg (by simp [beginsNumber]), if_pos rfl]
    split
    · rename_i hnone
      rw [hquoted] at hnone
      cases hnone
    · rename_i hsome
      rw [hquoted] at hsome
      cases hsome
      rw [ih]
      rfl
  | symbol hblank hname hnumber hquote hsymbol _ ih =>
    rw [scan_symbol hblank hname hnumber hquote hsymbol, ih]
    rfl

/-- **The tokens of a text** are read one after the other, wherever the text stands. -/
theorem scan_eq_ok_iff {total : Nat} {previous : Option Token} {cs : List Char} {tokens : List Token} :
    scan total previous cs = .ok tokens ↔ Lexes previous cs tokens :=
  ⟨fun h => lexes_of_scan h, fun h => h.scan_eq total⟩

theorem tokenize_eq_ok_iff {text : String} {tokens : List Token} :
    tokenize text = .ok tokens ↔ Lexes none text.toList tokens := scan_eq_ok_iff

/-! ## More behind a text -/

theorem readQuoted_append {cs text behind : List Char} (h : readQuoted cs = some (text, behind)) (more : List Char) :
    readQuoted (cs ++ more) = some (text, behind ++ more) := by
  fun_induction readQuoted cs generalizing text with
  | case1 => cases h
  | case2 rest ih =>
    obtain ⟨⟨inside, _⟩, hrest, heq⟩ := Option.map_eq_some_iff.1 h
    cases heq
    show (readQuoted (rest ++ more)).map _ = _
    rw [ih hrest]
    rfl
  | case3 rest =>
    cases h
    rfl
  | case4 c rest hescape hquote ih =>
    obtain ⟨⟨inside, _⟩, hrest, heq⟩ := Option.map_eq_some_iff.1 h
    cases heq
    rw [List.cons_append, readQuoted, ih hrest]
    · rfl
    · rintro others hc hothers
      cases rest with
      | nil => cases hrest
      | cons d rest =>
        rw [List.cons_append, List.cons.injEq] at hothers
        exact hescape rest hc (by rw [hothers.1])
    · exact fun hc => hquote hc

theorem stops_append {p : Char → Bool} {cs more : List Char} (hcs : stops p cs = true) (hmore : stops p more = true) :
    stops p (cs ++ more) = true := by
  cases cs with
  | nil => exact hmore
  | cons c cs => exact hcs

/-- A number goes on only where a name would. -/
theorem stops_continuesNumber {cs : List Char} (h : stops continuesName cs = true) :
    stops continuesNumber cs = true := by
  cases cs with
  | nil => rfl
  | cons c cs =>
    have hname : continuesName c = false := by simpa [stops] using h
    have hnumber : continuesNumber c = false := (Bool.or_eq_false_iff.1 hname).1
    simp [stops, hnumber]

/-- A number goes on at every digit. -/
theorem stops_isDigit {cs : List Char} (h : stops continuesNumber cs = true) : stops Char.isDigit cs = true := by
  cases cs with
  | nil => rfl
  | cons c cs =>
    have hnumber : continuesNumber c = false := by simpa [stops] using h
    simp [continuesNumber, Char.isAlphanum] at hnumber
    simp [stops, hnumber]

/-- Where no digit is no number begins. -/
theorem beginsNumber_append {previous : Option Token} {c : Char} {cs more : List Char}
    (h : stops Char.isDigit more = true) : beginsNumber previous c (cs ++ more) = beginsNumber previous c cs := by
  cases cs with
  | cons d cs => rfl
  | nil =>
    cases more with
    | nil => rfl
    | cons d more =>
      have hdigit : d.isDigit = false := by simpa [stops] using h
      simp [beginsNumber, hdigit]

/-- **Joined texts** have the tokens of both, if no word goes on from one to the other. -/
theorem Lexes.append {previous : Option Token} {cs more : List Char} {tokens others : List Token}
    (h : Lexes previous cs tokens) (hend : stops continuesName more = true)
    (hmore : Lexes (tokens.getLast?.or previous) more others) : Lexes previous (cs ++ more) (tokens ++ others) := by
  have hlast {token : Token} {rest : List Token} {previous : Option Token}
      (hmore : Lexes ((token :: rest).getLast?.or previous) more others) :
      Lexes (rest.getLast?.or (some token)) more others := by
    rw [List.getLast?_cons] at hmore
    cases hrest : rest.getLast? <;> rw [hrest] at hmore <;> exact hmore
  have hdigit : stops Char.isDigit more = true := stops_isDigit (stops_continuesNumber hend)
  induction h with
  | nil => exact hmore
  | blank hblank _ ih => exact .blank hblank (ih hmore)
  | name hblank hbegins hword hstop _ ih =>
    rw [List.cons_append, List.append_assoc]
    exact .name hblank hbegins hword (stops_append hstop hend) (ih (hlast hmore))
  | number hblank hname hbegins hword hstop hvalue _ ih =>
    rw [List.cons_append, List.append_assoc]
    rw [← beginsNumber_append hdigit, List.append_assoc] at hbegins
    exact .number hblank hname hbegins hword (stops_append hstop (stops_continuesNumber hend)) hvalue (ih (hlast hmore))
  | string hquoted _ ih => exact .string (readQuoted_append hquoted more) (ih (hlast hmore))
  | symbol hblank hname hnumber hquote hsymbol _ ih =>
    rw [← beginsNumber_append hdigit] at hnumber
    exact .symbol hblank hname hnumber hquote hsymbol (ih (hlast hmore))

/-! ## Operands before a text -/

/-- Whether an operand ends before a text. -/
def behindOperand? (previous : Option Token) : Bool := (previous.map endsOperand).getD false

/-- Whether a number is written with a minus sign. -/
def isSigned : Token → Bool
  | number text _ => text.toList.head? == some '-'
  | _ => false

/-- What a token becomes behind an operand, where its sign is a token of its own. -/
def behindOperand (t : Token) : List Token :=
  if t.isSigned then
    let magnitude := String.ofList t.text.toList.tail
    [operator '-', number magnitude ((parseNumber magnitude).getD 0)]
  else [t]

theorem isBlank_of_continuesNumber {c : Char} (h : continuesNumber c = true) : isBlank c = false := by
  have hall : ∀ n < 123, continuesNumber (Char.ofNat n) = true → isBlank (Char.ofNat n) = false := by decide
  have hc : c.toNat < 123 := by
    rcases Bool.or_eq_true_iff.1 h with halphanum | hunderscore
    · rcases Bool.or_eq_true_iff.1 halphanum with halpha | hdigit
      · rcases Bool.or_eq_true_iff.1 halpha with hupper | hlower
        · exact Nat.lt_of_le_of_lt (of_decide_eq_true hupper).2 (by decide)
        · exact Nat.lt_of_le_of_lt (of_decide_eq_true (Bool.and_eq_true_iff.1 hlower).2) (by decide)
      · exact Nat.lt_of_le_of_lt (of_decide_eq_true (Bool.and_eq_true_iff.1 hdigit).2) (by decide)
    · rw [beq_iff_eq.1 hunderscore]
      decide
  have hblank := hall c.toNat hc
  rw [Char.ofNat_toNat] at hblank
  exact hblank h

theorem continuesNumber_of_isDigit {c : Char} (h : c.isDigit = true) : continuesNumber c = true := by
  simp [continuesNumber, Char.isAlphanum, h]

/-- A text hears of what is before it only whether an operand ends there. -/
theorem Lexes.congr {previous previous' : Option Token} {cs : List Char} {tokens : List Token}
    (h : Lexes previous cs tokens) (hprevious : behindOperand? previous = behindOperand? previous') :
    Lexes previous' cs tokens := by
  have hnumber (c : Char) (rest : List Char) : beginsNumber previous c rest = beginsNumber previous' c rest :=
    congrArg (fun operand => c.isDigit || (c == '-' && (rest.head?.map Char.isDigit).getD false && !operand)) hprevious
  induction h with
  | nil => exact .nil
  | blank hblank _ ih => exact .blank hblank (ih hprevious hnumber)
  | name hblank hbegins hword hend hrest => exact .name hblank hbegins hword hend hrest
  | number hblank hname hbegins hword hend hvalue hrest =>
    exact .number hblank hname (hnumber _ _ ▸ hbegins) hword hend hvalue hrest
  | string hquoted hrest => exact .string hquoted hrest
  | symbol hblank hname hbegins hquote hsymbol hrest =>
    exact .symbol hblank hname (hnumber _ _ ▸ hbegins) hquote hsymbol hrest

theorem behindOperand_of_not_isSigned {t : Token} (h : t.isSigned = false) : t.behindOperand = [t] := by
  rw [behindOperand, h]
  rfl

theorem isSigned_number {c : Char} {word : List Char} {v : Int} :
    (number (String.ofList (c :: word)) v).isSigned = (c == '-') := by
  rw [isSigned, String.toList_ofList]
  rfl

/-- Behind an operand a number begins at a digit only. -/
theorem beginsNumber_of_behindOperand {previous : Option Token} (h : behindOperand? previous = true) (c : Char)
    (rest : List Char) : beginsNumber previous c rest = c.isDigit := by
  show (c.isDigit || (_ && !behindOperand? previous)) = c.isDigit
  rw [h, Bool.not_true, Bool.and_false, Bool.or_false]

/-- **A number with a sign** is a sign and a number behind an operand. -/
theorem Lexes.behind_of_minus {previous previous' : Option Token} {word rest : List Char} {v : Int}
    {tokens : List Token} (hprevious : behindOperand? previous = true)
    (hbegins : beginsNumber previous' '-' (word ++ rest) = true) (hword : ∀ d ∈ word, continuesNumber d = true)
    (hend : stops continuesNumber rest = true) (hvalue : parseNumber (String.ofList ('-' :: word)) = some v)
    (hrest : Lexes (some (.number (String.ofList ('-' :: word)) v)) rest tokens) :
    Lexes previous ('-' :: (word ++ rest))
      (.operator '-' :: .number (String.ofList word) ((parseNumber (String.ofList word)).getD 0) :: tokens) := by
  cases word with
  | nil =>
    -- The sign would stand alone.
    cases hvalue
  | cons d word =>
    have hdigit : d.isDigit = true := by
      have hsigned : ('-'.isDigit || (d.isDigit && !behindOperand? previous')) = true := hbegins
      exact (Bool.and_eq_true_iff.1 hsigned).1
    have hblank : ∀ e ∈ d :: word, isBlank e = false := fun e he => isBlank_of_continuesNumber (hword e he)
    have hfirst : (d :: word).head? ≠ some '-' := by
      rintro heq
      rw [Option.some.inj heq] at hdigit
      cases hdigit
    obtain ⟨m, hm⟩ : ∃ m, parseNumber (String.ofList (d :: word)) = some m := by
      rw [← Option.isSome_iff_exists, ← isSome_parseNumber_minus hblank hfirst, hvalue]
      rfl
    have hsymbol : ofSymbol? '-' = some (.operator '-') := by decide
    rw [hm, Option.getD_some]
    refine .symbol rfl rfl ?_ (by decide) hsymbol ?_
    · exact beginsNumber_of_behindOperand hprevious _ _
    · refine .number (hblank d List.mem_cons_self) (beginsName_of_isDigit hdigit) ?_
        (fun e he => hword e (List.mem_cons_of_mem d he)) hend hm (hrest.congr (by rfl))
      rw [beginsNumber, hdigit]
      rfl

/-- **The tokens of a text behind an operand.** Only a sign at its front becomes a token of its own. -/
theorem Lexes.behind {previous previous' : Option Token} {cs : List Char} {token : Token} {tokens : List Token}
    (h : Lexes previous' cs (token :: tokens)) (hprevious : behindOperand? previous = true) :
    Lexes previous cs (token.behindOperand ++ tokens) := by
  generalize hall : token :: tokens = all at h
  induction h with
  | nil => cases hall
  | blank hblank _ ih => exact .blank hblank (ih hall)
  | name hblank hbegins hword hend hrest =>
    cases hall
    exact .name hblank hbegins hword hend hrest
  | string hquoted hrest =>
    cases hall
    exact .string hquoted hrest
  | @symbol _ c rest _ _ hblank hname hnumber hquote hsymbol hrest =>
    cases hall
    have hunsigned : token.isSigned = false := by
      unfold ofSymbol? at hsymbol
      repeat' split at hsymbol
      all_goals cases hsymbol
      all_goals rfl
    rw [behindOperand_of_not_isSigned hunsigned]
    refine .symbol hblank hname ?_ hquote hsymbol hrest
    rw [beginsNumber_of_behindOperand hprevious]
    exact (Bool.or_eq_false_iff.1 hnumber).1
  | @number _ c word rest v _ hblank hname hbegins hword hend hvalue hrest =>
    cases hall
    by_cases hminus : c = '-'
    · subst hminus
      have htokens := Lexes.behind_of_minus hprevious hbegins hword hend hvalue hrest
      rw [behindOperand, isSigned_number, text, String.toList_ofList]
      exact htokens
    · rw [behindOperand_of_not_isSigned (isSigned_number.trans (beq_false_of_ne hminus))]
      refine .number hblank hname ?_ hword hend hvalue hrest
      rw [beginsNumber, beq_false_of_ne hminus] at hbegins
      rw [beginsNumber_of_behindOperand hprevious]
      simpa using hbegins

end Token

end BinaryPatching
