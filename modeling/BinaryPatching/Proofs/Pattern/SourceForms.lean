import BinaryPatching.Proofs.Pattern.Concatenation

/-!
# `BinaryPatching.Proofs.Pattern.SourceForms` — tokens written back

Every token has a source form, by which it can be written back into a text: a string stands between quotes, with a
backslash before each quote of its own, and any other token is its text. Nothing of a text is lost in its tokens but the
blanks that are in no string: the source forms one behind the other are the text without these. And nothing depends on
where the blanks were: with a single blank between the source forms, the same tokens are read again.

## Contents
- `escapeQuotes`, `Token.source`: strings between quotes, and the source form of a token.
- `readQuoted_escapeQuotes`, `eq_escapeQuotes_of_readQuoted`: strings written back.
- `withoutBlanks`: a text without the blanks that are in no string.
- `Token.Lexes.sources_eq`: the source forms one behind the other.
- `Token.Lexes.spaced`: the source forms with a blank between them.
- `tokenize_sources`: both, for the tokens of a text.
-/

namespace BinaryPatching

open Text

/-! ## Strings written back -/

/-- What stands between the quotes of a string with a given text: the text, with a backslash before each quote. -/
def escapeQuotes : List Char → List Char
  | [] => []
  | c :: rest => if c = '"' then '\\' :: '"' :: escapeQuotes rest else c :: escapeQuotes rest

theorem escapeQuotes_of_ne {c : Char} (hc : c ≠ '"') (rest : List Char) :
    escapeQuotes (c :: rest) = c :: escapeQuotes rest := if_neg hc

/-- Only where no text is left does its end come first: a quote of its own would be behind a backslash. -/
theorem eq_nil_of_escapeQuotes_append {cs more others : List Char} (h : escapeQuotes cs ++ '"' :: more = '"' :: others) :
    cs = [] := by
  cases cs with
  | nil => rfl
  | cons c cs =>
    by_cases hc : c = '"'
    · subst hc
      cases h
    · rw [escapeQuotes_of_ne hc] at h
      exact absurd (List.cons.inj h).1 hc

/-- **A string that was read** is its text written back, up to its end. -/
theorem eq_escapeQuotes_of_readQuoted {cs text behind : List Char} (h : readQuoted cs = some (text, behind)) :
    cs = escapeQuotes text ++ '"' :: behind := by
  fun_induction readQuoted cs generalizing text with
  | case1 => cases h
  | case2 rest ih =>
    obtain ⟨⟨inner, _⟩, hrest, heq⟩ := Option.map_eq_some_iff.1 h
    cases heq
    rw [ih hrest]
    rfl
  | case3 rest =>
    cases h
    rfl
  | case4 c rest _ hquote ih =>
    obtain ⟨⟨inner, _⟩, hrest, heq⟩ := Option.map_eq_some_iff.1 h
    cases heq
    rw [ih hrest, escapeQuotes_of_ne hquote, List.cons_append]

/-- **Written back, it is read again**, whatever is behind it. Only a text with a backslash at its end would not be,
and no such text is read. -/
theorem readQuoted_escapeQuotes {cs text behind : List Char} (h : readQuoted cs = some (text, behind))
    (more : List Char) : readQuoted (escapeQuotes text ++ '"' :: more) = some (text, more) := by
  fun_induction readQuoted cs generalizing text with
  | case1 => cases h
  | case2 rest ih =>
    obtain ⟨⟨inner, _⟩, hrest, heq⟩ := Option.map_eq_some_iff.1 h
    cases heq
    show (readQuoted (escapeQuotes inner ++ '"' :: more)).map _ = _
    rw [ih hrest]
    rfl
  | case3 rest =>
    cases h
    rfl
  | case4 c rest hescape hquote ih =>
    obtain ⟨⟨inner, _⟩, hrest, heq⟩ := Option.map_eq_some_iff.1 h
    cases heq
    rw [escapeQuotes_of_ne hquote, List.cons_append, readQuoted, ih hrest]
    · rfl
    · intro others hbackslash hothers
      -- A quote behind the backslash would be the end of the string, and so it was when the string was read.
      obtain rfl : inner = [] := eq_nil_of_escapeQuotes_append hothers
      exact hescape _ hbackslash (eq_escapeQuotes_of_readQuoted hrest)
    · exact hquote

/-! ## Source forms -/

namespace Token

/-- **The source form of a token**: a string between quotes, with a backslash before each quote of its own, and any other
token by its text. -/
def source (t : Token) : String :=
  if t.isQuoted then String.ofList ('"' :: (escapeQuotes t.text.toList ++ ['"'])) else t.text

@[simp] theorem toList_source_name (text : String) : (name text).source.toList = text.toList := rfl

@[simp] theorem toList_source_number (text : String) (v : Int) : (number text v).source.toList = text.toList := rfl

@[simp] theorem toList_source_string (text : String) :
    (string text).source.toList = '"' :: (escapeQuotes text.toList ++ ['"']) :=
  String.toList_ofList

/-- A symbol is its own source form. -/
theorem toList_source_of_symbol {c : Char} {t : Token} (h : ofSymbol? c = some t) : t.source.toList = [c] := by
  unfold ofSymbol? at h
  split at h
  · cases h
    exact String.toList_singleton c
  · split at h
    · rename_i hcomma
      cases h
      rw [hcomma]
      rfl
    · split at h
      · cases h
        exact String.toList_singleton c
      · cases h

end Token

/-! ## Nothing is lost -/

/-- **A text without the blanks that are in no string**, from a place on that is in a string or not. A quote behind a
backslash does not end a string. -/
def withoutBlanks : Bool → List Char → List Char
  | _, [] => []
  | true, '\\' :: '"' :: rest => '\\' :: '"' :: withoutBlanks true rest
  | inString, c :: rest =>
    if c = '"' then c :: withoutBlanks (!inString) rest
    else if isBlank c && !inString then withoutBlanks inString rest
    else c :: withoutBlanks inString rest

/-- Up to its end a string is kept as it is. -/
theorem withoutBlanks_of_readQuoted {cs text behind : List Char} (h : readQuoted cs = some (text, behind)) :
    withoutBlanks true cs = escapeQuotes text ++ '"' :: withoutBlanks false behind := by
  fun_induction readQuoted cs generalizing text with
  | case1 => cases h
  | case2 rest ih =>
    obtain ⟨⟨inner, _⟩, hrest, heq⟩ := Option.map_eq_some_iff.1 h
    cases heq
    rw [withoutBlanks, ih hrest]
    rfl
  | case3 rest =>
    cases h
    rfl
  | case4 c rest hescape hquote ih =>
    obtain ⟨⟨inner, _⟩, hrest, heq⟩ := Option.map_eq_some_iff.1 h
    cases heq
    rw [withoutBlanks, if_neg hquote, Bool.not_true, Bool.and_false, if_neg Bool.false_ne_true, ih hrest,
      escapeQuotes_of_ne hquote, List.cons_append]
    exact fun others _ hbackslash hothers => hescape others hbackslash hothers

theorem withoutBlanks_quote (rest : List Char) : withoutBlanks false ('"' :: rest) = '"' :: withoutBlanks true rest := rfl

/-- Outside of strings a character that is neither a blank nor a quote is kept. -/
theorem withoutBlanks_cons {c : Char} (hblank : isBlank c = false) (hquote : c ≠ '"') (rest : List Char) :
    withoutBlanks false (c :: rest) = c :: withoutBlanks false rest := by
  rw [withoutBlanks, if_neg hquote, hblank, Bool.false_and, if_neg Bool.false_ne_true]
  exact fun _ hstring => nomatch hstring

theorem withoutBlanks_blank {c : Char} (hblank : isBlank c = true) (rest : List Char) :
    withoutBlanks false (c :: rest) = withoutBlanks false rest := by
  have hquote : c ≠ '"' := by
    rintro rfl
    cases hblank
  rw [withoutBlanks, if_neg hquote, hblank, Bool.not_false, Bool.and_self, if_pos rfl]
  exact fun _ hstring => nomatch hstring

theorem withoutBlanks_word {word : List Char} (hblank : ∀ c ∈ word, isBlank c = false) (hquote : ∀ c ∈ word, c ≠ '"')
    (rest : List Char) : withoutBlanks false (word ++ rest) = word ++ withoutBlanks false rest := by
  induction word with
  | nil => rfl
  | cons c word ih =>
    rw [List.cons_append, withoutBlanks_cons (hblank c List.mem_cons_self) (hquote c List.mem_cons_self),
      ih (fun d hd => hblank d (List.mem_cons_of_mem c hd)) fun d hd => hquote d (List.mem_cons_of_mem c hd)]
    rfl

namespace Token

/-- What a word goes on with is neither a blank nor a quote. -/
theorem plain_of_continuesName {c : Char} (h : continuesName c = true) : isBlank c = false ∧ c ≠ '"' := by
  rcases Bool.or_eq_true_iff.1 h with hnumber | hpoint
  · refine ⟨isBlank_of_continuesNumber hnumber, ?_⟩
    rintro rfl
    cases hnumber
  · rw [beq_iff_eq.1 hpoint]
    exact ⟨rfl, by decide⟩

theorem continuesName_of_continuesNumber {c : Char} (h : continuesNumber c = true) : continuesName c = true :=
  Bool.or_eq_true_iff.2 (.inl h)

/-- **Nothing of a text is lost**: the source forms of its tokens, one behind the other, are the text without the blanks
that are in no string. -/
theorem Lexes.sources_eq {previous : Option Token} {cs : List Char} {tokens : List Token}
    (h : Lexes previous cs tokens) : (tokens.flatMap fun t => t.source.toList) = withoutBlanks false cs := by
  induction h with
  | nil => rfl
  | blank hblank _ ih => rw [withoutBlanks_blank hblank, ih]
  | @name _ c word rest _ hblank hbegins hword _ _ ih =>
    have hquote : c ≠ '"' := by
      rintro rfl
      cases hbegins
    have hplain := fun d hd => plain_of_continuesName (hword d hd)
    rw [withoutBlanks_cons hblank hquote, withoutBlanks_word (fun d hd => (hplain d hd).1) fun d hd => (hplain d hd).2,
      List.flatMap_cons, ih, toList_source_name, String.toList_ofList, List.cons_append]
  | @number _ c word rest _ _ hblank _ hbegins hword _ _ _ ih =>
    have hquote : c ≠ '"' := by
      rintro rfl
      cases hbegins
    have hplain := fun d hd => plain_of_continuesName (continuesName_of_continuesNumber (hword d hd))
    rw [withoutBlanks_cons hblank hquote, withoutBlanks_word (fun d hd => (hplain d hd).1) fun d hd => (hplain d hd).2,
      List.flatMap_cons, ih, toList_source_number, String.toList_ofList, List.cons_append]
  | @string _ rest text behind _ hquoted _ ih =>
    rw [withoutBlanks_quote, withoutBlanks_of_readQuoted hquoted, List.flatMap_cons, ih, toList_source_string,
      String.toList_ofList, List.cons_append, List.append_assoc, List.singleton_append]
  | symbol hblank _ _ hquote hsymbol _ ih =>
    rw [withoutBlanks_cons hblank hquote, List.flatMap_cons, ih, toList_source_of_symbol hsymbol, List.singleton_append]

/-! ## Nothing depends on the blanks -/

/-- The source forms of some tokens, with a single blank between them. -/
def spaced (tokens : List Token) : List Char := [' '].intercalate (tokens.map fun t => t.source.toList)

/-- The same behind another one: with a blank in front, if there is anything. -/
def spacedBehind (tokens : List Token) : List Char := if tokens.isEmpty then [] else ' ' :: spaced tokens

theorem spaced_cons (t : Token) (tokens : List Token) : spaced (t :: tokens) = t.source.toList ++ spacedBehind tokens := by
  cases tokens with
  | nil => exact List.intercalate_singleton.trans (List.append_nil _).symm
  | cons next tokens =>
    rw [spaced, List.map_cons, List.map_cons, List.intercalate_cons_cons, List.append_assoc]
    rfl

/-- No word goes on behind a source form. -/
theorem stops_spacedBehind {p : Char → Bool} (hp : p ' ' = false) (tokens : List Token) :
    stops p (spacedBehind tokens) = true := by
  cases tokens with
  | nil => rfl
  | cons t tokens => simp [spacedBehind, stops, hp]

theorem Lexes.spacedBehind {previous : Option Token} {tokens : List Token} (h : Lexes previous (spaced tokens) tokens) :
    Lexes previous (spacedBehind tokens) tokens := by
  cases tokens with
  | nil => exact h
  | cons t tokens => exact .blank rfl h

/-- A symbol is none before a blank either. -/
theorem beginsNumber_spacedBehind {previous : Option Token} {c : Char} {rest : List Char}
    (h : beginsNumber previous c rest = false) (tokens : List Token) :
    beginsNumber previous c (Token.spacedBehind tokens) = false := by
  have hdigit : c.isDigit = false := (Bool.or_eq_false_iff.1 h).1
  have hspaced : beginsNumber previous c ([] ++ Token.spacedBehind tokens) = beginsNumber previous c [] :=
    beginsNumber_append (stops_spacedBehind rfl tokens)
  rw [← List.nil_append (Token.spacedBehind tokens), hspaced, beginsNumber, hdigit]
  simp

/-- **Nothing depends on where the blanks were**: with one blank between the source forms of its tokens, a text has the
same tokens. -/
theorem Lexes.spaced {previous : Option Token} {cs : List Char} {tokens : List Token} (h : Lexes previous cs tokens) :
    Lexes previous (spaced tokens) tokens := by
  induction h with
  | nil => exact .nil
  | blank _ _ ih => exact ih
  | name hblank hbegins hword _ _ ih =>
    rw [spaced_cons, toList_source_name, String.toList_ofList, List.cons_append]
    exact .name hblank hbegins hword (stops_spacedBehind rfl _) ih.spacedBehind
  | number hblank hname hbegins hword hend hvalue _ ih =>
    rw [spaced_cons, toList_source_number, String.toList_ofList, List.cons_append]
    rw [beginsNumber_append (stops_isDigit hend)] at hbegins
    refine .number hblank hname ?_ hword (stops_spacedBehind rfl _) hvalue ih.spacedBehind
    rwa [beginsNumber_append (stops_spacedBehind rfl _)]
  | @string _ rest text behind tokens hquoted _ ih =>
    rw [spaced_cons, toList_source_string, String.toList_ofList, List.cons_append, List.append_assoc]
    exact .string (readQuoted_escapeQuotes hquoted _) ih.spacedBehind
  | symbol hblank hname hnumber hquote hsymbol _ ih =>
    rw [spaced_cons, toList_source_of_symbol hsymbol, List.singleton_append]
    exact .symbol hblank hname (beginsNumber_spacedBehind hnumber _) hquote hsymbol ih.spacedBehind

end Token

/-- **The tokens of a text hold all of it but the blanks that are in no string**, and are read again from what they are
written back as: their source forms one behind the other are the text without these blanks, and with single blanks
between them they have the same tokens. -/
theorem tokenize_sources {text : String} {tokens : List Token} (h : tokenize text = .ok tokens) :
    String.join (tokens.map Token.source) = onChars (withoutBlanks false) text ∧
      tokenize (" ".intercalate (tokens.map Token.source)) = .ok tokens := by
  have hlexes := Token.tokenize_eq_ok_iff.1 h
  constructor
  · refine String.toList_inj.1 ?_
    rw [toList_onChars, ← hlexes.sources_eq, String.toList_join, List.flatMap_map]
  · have hspaced : (" ".intercalate (tokens.map Token.source)).toList = Token.spaced tokens := by
      rw [String.toList_intercalate, List.map_map]
      rfl
    rw [Token.tokenize_eq_ok_iff, hspaced]
    exact hlexes.spaced

/-- A line with a string that has blanks, a backslash and a quote in it, and with a difference and a negative number. -/
def spacedLine : String := "Log  \"a \\\\\\\" b\" , x.1 -2 [-0x2F]"

/-- The tokens of that line. -/
def spacedTokens : List Token :=
  [.name "Log", .string "a \\\\\" b", .separator, .name "x.1", .operator '-', .number "2" 2, .bracket '[',
    .number "-0x2F" (-47), .bracket ']']

/-- **One line and its tokens**: the blanks that are in no string are all that gets lost. -/
theorem tokenize_sources_spacedLine :
    tokenize spacedLine = .ok spacedTokens ∧
      String.join (spacedTokens.map Token.source) = "Log\"a \\\\\\\" b\",x.1-2[-0x2F]" ∧
      tokenize "Log \"a \\\\\\\" b\" , x.1 - 2 [ -0x2F ]" = .ok spacedTokens := by
  have htokens : tokenize spacedLine = .ok spacedTokens := by
    have hsome : (tokenize spacedLine).toOption = some spacedTokens := by decide +kernel
    cases hresult : tokenize spacedLine with
    | error e => rw [hresult] at hsome; cases hsome
    | ok tokens => rw [hresult] at hsome; exact congrArg _ (Option.some.inj hsome)
  have hlossless : onChars (withoutBlanks false) spacedLine = "Log\"a \\\\\\\" b\",x.1-2[-0x2F]" := by decide +kernel
  have hspaced : " ".intercalate (spacedTokens.map Token.source) = "Log \"a \\\\\\\" b\" , x.1 - 2 [ -0x2F ]" := by
    decide +kernel
  have hsources := tokenize_sources htokens
  rw [hlossless, hspaced] at hsources
  exact ⟨htokens, hsources⟩

end BinaryPatching
