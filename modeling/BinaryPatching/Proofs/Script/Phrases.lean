import BinaryPatching.Proofs.Script.Fillings

/-!
# `BinaryPatching.Proofs.Script.Phrases` — how the values of a command are written

A value is a name, a number or a string, and a line gives it by its place or behind a name of its parameter. Written
with commas between them the values are read as they are, but for a negative number right behind the name of the
command: its sign is taken for an operator there, since a name could be an operand. With blanks alone between them,
every sign is.

## Contents
- `Literal`, `Assignment`, `Phrase`: values as they are written, with `Literal.ofName`, `Literal.ofNumber` and
  `Literal.ofString` for those that need no escapes.
- `CommandForm.Heading`: the name of a command as it is written, with the lines it begins.
- `read_commas`, `read_blanks`: what is read of values with commas or with blanks between them.
- `CommandForm.bind_commas`, `CommandForm.bind_blanks`: what becomes of the lines.
-/

namespace BinaryPatching

open Text Token

/-! ## Values -/

/-- **A value as it is written**: the text of a single name, number or string. -/
structure Literal where
  /-- The text. -/
  source : String
  /-- Its token. -/
  token : Token
  /-- The token is a value. -/
  isValue : token.isValue = true
  /-- The text holds nothing else. -/
  tokenize_source : tokenize source = .ok [token]

/-! ### Names, numbers and strings -/

/-- Whether a text is a name. -/
def isNameText : List Char → Bool
  | [] => false
  | c :: word => beginsName c && word.all continuesName

/-- Whether a text is written like a number. -/
def isNumberText : List Char → Bool
  | [] => false
  | c :: word => beginsNumber none c word && word.all continuesNumber

/-- Whether a text needs no escapes in a string. -/
def isStringText (cs : List Char) : Bool := cs.all fun c => c != '"' && c != '\\'

theorem isBlank_of_beginsName {c : Char} (h : beginsName c = true) : isBlank c = false := by
  refine isBlank_of_continuesNumber (Bool.or_eq_true_iff.2 ?_)
  exact (Bool.or_eq_true_iff.1 h).imp (fun halpha => Bool.or_eq_true_iff.2 (.inl halpha)) id

/-- **A name** is a token. -/
theorem tokenize_name {text : String} (h : isNameText text.toList = true) : tokenize text = .ok [.name text] := by
  rw [tokenize_eq_ok_iff, ← String.ofList_toList (s := text), String.toList_ofList]
  cases hchars : text.toList with
  | nil =>
    rw [hchars] at h
    cases h
  | cons c word =>
    rw [hchars] at h
    obtain ⟨hbegins, hword⟩ := Bool.and_eq_true_iff.1 h
    have htokens : Lexes none (c :: (word ++ [])) [.name (String.ofList (c :: word))] :=
      .name (isBlank_of_beginsName hbegins) hbegins (List.all_eq_true.1 hword) rfl .nil
    rwa [List.append_nil] at htokens

/-- **A number** is a token, with its sign. -/
theorem tokenize_number {text : String} {v : Int} (h : isNumberText text.toList = true)
    (hv : parseNumber text = some v) : tokenize text = .ok [.number text v] := by
  rw [← String.ofList_toList (s := text)] at hv ⊢
  rw [tokenize_eq_ok_iff, String.toList_ofList]
  cases hchars : text.toList with
  | nil =>
    rw [hchars] at h
    cases h
  | cons c word =>
    rw [hchars] at h hv
    obtain ⟨hbegins, hword⟩ := Bool.and_eq_true_iff.1 h
    have hfirst : isBlank c = false ∧ beginsName c = false := by
      rcases Bool.or_eq_true_iff.1 hbegins with hdigit | hsign
      · exact ⟨isBlank_of_continuesNumber (continuesNumber_of_isDigit hdigit), beginsName_of_isDigit hdigit⟩
      · rw [beq_iff_eq.1 (Bool.and_eq_true_iff.1 (Bool.and_eq_true_iff.1 hsign).1).1]
        exact ⟨rfl, rfl⟩
    have htokens : Lexes none (c :: (word ++ [])) [.number (String.ofList (c :: word)) v] :=
      .number hfirst.1 hfirst.2 (by rwa [List.append_nil]) (List.all_eq_true.1 hword) rfl hv .nil
    rwa [List.append_nil] at htokens

theorem readQuoted_of_isStringText {cs : List Char} (h : isStringText cs = true) :
    readQuoted (cs ++ ['"']) = some (cs, []) := by
  induction cs with
  | nil => rfl
  | cons c cs ih =>
    obtain ⟨hfirst, hrest⟩ := Bool.and_eq_true_iff.1 h
    obtain ⟨hquote, hescape⟩ := Bool.and_eq_true_iff.1 hfirst
    rw [List.cons_append, readQuoted, ih hrest]
    · rfl
    · exact fun _ hc _ => bne_iff_ne.1 hescape hc
    · exact fun hc => bne_iff_ne.1 hquote hc

/-- **A string** is a token. -/
theorem tokenize_string {text : String} (h : isStringText text.toList = true) :
    tokenize ("\"" ++ text ++ "\"") = .ok [.string text] := by
  have hchars : ("\"" ++ text ++ "\"").toList = '"' :: (text.toList ++ ['"']) := by
    rw [String.toList_append, String.toList_append]
    rfl
  have htokens : Lexes none ('"' :: (text.toList ++ ['"'])) [.string (String.ofList text.toList)] :=
    .string (readQuoted_of_isStringText h) .nil
  rwa [tokenize_eq_ok_iff, hchars, ← String.ofList_toList (s := text), String.toList_ofList]

namespace Literal

/-- A name. -/
def ofName (text : String) (h : isNameText text.toList = true) : Literal := ⟨text, .name text, rfl, tokenize_name h⟩

/-- A number. -/
def ofNumber (text : String) (v : Int) (h : isNumberText text.toList = true) (hv : parseNumber text = some v) :
    Literal := ⟨text, .number text v, rfl, tokenize_number h hv⟩

/-- A string in which nothing needs an escape. -/
def ofString (text : String) (h : isStringText text.toList = true) : Literal :=
  ⟨"\"" ++ text ++ "\"", .string text, rfl, tokenize_string h⟩

/-- The value. -/
def value (l : Literal) : String := l.token.text

/-- Whether the value is a number with a minus sign. -/
def isNegative (l : Literal) : Bool := l.token.isSigned

end Literal

/-- **A value behind a name**, as it is written. -/
structure Assignment where
  /-- The text of the name. -/
  spelling : String
  /-- The name. -/
  name : String
  /-- The text of the name holds nothing else. -/
  tokenize_spelling : tokenize spelling = .ok [.name name]
  /-- The value. -/
  literal : Literal

/-- A value behind a name. -/
def Assignment.ofName (text : String) (h : isNameText text.toList = true) (literal : Literal) : Assignment :=
  ⟨text, text, tokenize_name h, literal⟩

/-- **What gives a value**, as it is written. -/
inductive Phrase where
  /-- A value alone. -/
  | place (literal : Literal)
  /-- A value behind a name. -/
  | assignment (assignment : Assignment)

namespace Phrase

/-- The text. -/
def source : Phrase → String
  | place l => l.source
  | assignment a => a.spelling ++ "=" ++ a.literal.source

/-- The tokens of the text, where it stands alone. -/
def tokens : Phrase → List Token
  | place l => [l.token]
  | assignment a => [.name a.name, .operator '=', a.literal.token]

/-- The tokens of the text, where an operand ends in front of it. -/
def tokensBehindOperand : Phrase → List Token
  | place l => l.token.behindOperand
  | assignment a => [.name a.name, .operator '=', a.literal.token]

/-- What is read of the text. -/
def argument : Phrase → Argument
  | place l => .positional l.value
  | assignment a => .named a.name a.literal.value

/-- Whether the text begins with the minus sign of a number. -/
def isNegative : Phrase → Bool
  | place l => l.isNegative
  | assignment _ => false

end Phrase

/-! ## Tokens -/

theorem endsOperand_of_isValue {t : Token} (h : t.isValue = true) : t.endsOperand = true := by
  cases t <;> first | rfl | cases h

theorem Literal.lexes (l : Literal) {previous : Option Token} (h : behindOperand? previous = false) :
    Lexes previous l.source.toList [l.token] :=
  (tokenize_eq_ok_iff.1 l.tokenize_source).congr h.symm

theorem Literal.lexes_behindOperand (l : Literal) {previous : Option Token} (h : behindOperand? previous = true) :
    Lexes previous l.source.toList l.token.behindOperand := by
  have htokens := (tokenize_eq_ok_iff.1 l.tokenize_source).behind h
  rwa [List.append_nil] at htokens

/-- A value ends an operand wherever it stands. -/
theorem Literal.endsOperand_getLast? (l : Literal) (previous : Option Token) :
    behindOperand? (l.token.behindOperand.getLast?.or previous) = true := by
  unfold behindOperand
  split
  · rfl
  · exact endsOperand_of_isValue l.isValue

theorem Assignment.lexes (a : Assignment) (previous : Option Token) :
    Lexes previous (a.spelling ++ "=" ++ a.literal.source).toList [.name a.name, .operator '=', a.literal.token] := by
  have hname : Lexes previous a.spelling.toList [.name a.name] := by
    have halone := tokenize_eq_ok_iff.1 a.tokenize_spelling
    cases hprevious : behindOperand? previous with
    | false => exact halone.congr hprevious.symm
    | true => exact halone.behind hprevious
  have hsymbol : ofSymbol? '=' = some (.operator '=') := by decide
  rw [String.toList_append, String.toList_append, List.append_assoc]
  exact hname.append rfl (.symbol rfl rfl rfl (by decide) hsymbol (a.literal.lexes rfl))

theorem Phrase.lexes (x : Phrase) {previous : Option Token} (h : behindOperand? previous = false) :
    Lexes previous x.source.toList x.tokens := by
  cases x with
  | place l => exact l.lexes h
  | assignment a => exact a.lexes previous

theorem Phrase.lexes_behindOperand (x : Phrase) {previous : Option Token} (h : behindOperand? previous = true) :
    Lexes previous x.source.toList x.tokensBehindOperand := by
  cases x with
  | place l => exact l.lexes_behindOperand h
  | assignment a => exact a.lexes previous

/-- **Commas keep values apart**: behind a text, each has its own tokens. -/
theorem lexes_commas {previous : Option Token} {text : String} {tokens : List Token}
    (h : Lexes previous text.toList tokens) (phrases : List Phrase) :
    Lexes previous (",".intercalate (text :: phrases.map Phrase.source)).toList
      (tokens ++ phrases.flatMap fun x => .separator :: x.tokens) := by
  induction phrases generalizing previous text tokens with
  | nil =>
    rw [List.map_nil, String.intercalate_singleton, List.flatMap_nil, List.append_nil]
    exact h
  | cons x phrases ih =>
    have hsymbol : ofSymbol? ',' = some .separator := by decide
    rw [List.map_cons, String.intercalate_cons_cons, String.toList_append, String.toList_append, List.append_assoc,
      List.flatMap_cons]
    exact h.append rfl (.symbol rfl rfl rfl (by decide) hsymbol (ih (x.lexes rfl)))

/-- **Blanks do not**: each value stands behind an operand. -/
theorem lexes_blanks {previous : Option Token} (h : behindOperand? previous = true) (literals : List Literal) :
    Lexes previous (" ".intercalate (literals.map Literal.source)).toList
      (literals.flatMap fun l => l.token.behindOperand) := by
  induction literals generalizing previous with
  | nil => exact .nil
  | cons l literals ih =>
    cases literals with
    | nil =>
      rw [List.map_singleton, String.intercalate_singleton, List.flatMap_singleton]
      exact l.lexes_behindOperand h
    | cons next literals =>
      rw [List.map_cons, List.map_cons, String.intercalate_cons_cons, String.toList_append, String.toList_append,
        List.append_assoc, List.flatMap_cons]
      exact (l.lexes_behindOperand h).append rfl (.blank rfl (ih (l.endsOperand_getLast? previous)))

/-! ## Arguments -/

/-- A value is read as one, if no sign of equality is behind it. -/
theorem read_value {t : Token} (ht : t.isValue = true) {rest : List Token} (hrest : rest.head? ≠ some (.operator '=')) :
    Argument.read (t :: rest) = .positional t.text :: Argument.read rest := by
  rw [Argument.read, if_pos ht]
  · rintro rfl
    cases ht
  · rintro n value others _ rfl
    exact hrest rfl
  · rintro n _ rfl
    exact hrest rfl

theorem read_phrase (x : Phrase) {rest : List Token} (hrest : rest.head? ≠ some (.operator '=')) :
    Argument.read (x.tokens ++ rest) = x.argument :: Argument.read rest := by
  cases x with
  | place l => exact read_value l.isValue hrest
  | assignment a =>
    show Argument.read (.name a.name :: .operator '=' :: a.literal.token :: rest) = _
    rw [Argument.read, if_pos a.literal.isValue]
    rfl

/-- Values with commas in front of them are read one by one. -/
theorem read_commas (phrases : List Phrase) :
    Argument.read (phrases.flatMap fun x => .separator :: x.tokens) = phrases.map Phrase.argument := by
  induction phrases with
  | nil => rfl
  | cons x phrases ih =>
    rw [List.flatMap_cons, List.cons_append, Argument.read, read_phrase, ih, List.map_cons]
    cases phrases <;> simp

theorem exists_behindOperand_eq {l : Literal} (h : l.isNegative = true) :
    ∃ magnitude, l.token.behindOperand = [.operator '-', magnitude] := ⟨_, if_pos h⟩

theorem behindOperand_eq {l : Literal} (h : l.isNegative = false) : l.token.behindOperand = [l.token] :=
  behindOperand_of_not_isSigned h

/-- A sign that is a token of its own is where the values end. -/
theorem read_of_isNegative {l : Literal} (h : l.isNegative = true) (rest : List Token) :
    Argument.read (l.token.behindOperand ++ rest) = [.unexpected "-"] := by
  obtain ⟨magnitude, htokens⟩ := exists_behindOperand_eq h
  rw [htokens]
  rfl

/-- Behind an operand no value begins with a sign of equality. -/
theorem head?_behindOperand_ne (l : Literal) (rest : List Token) :
    (l.token.behindOperand ++ rest).head? ≠ some (.operator '=') := by
  cases hsign : l.isNegative with
  | true =>
    obtain ⟨magnitude, htokens⟩ := exists_behindOperand_eq hsign
    rw [htokens]
    exact fun heq => absurd (Option.some.inj heq) (by decide)
  | false =>
    rw [behindOperand_eq hsign]
    intro heq
    have hvalue := l.isValue
    rw [Option.some.inj heq] at hvalue
    cases hvalue

/-- **The arguments of values with blanks between them**: they end at the first negative number. -/
def blankArguments : List Literal → List Argument
  | [] => []
  | l :: literals => if l.isNegative then [.unexpected "-"] else .positional l.value :: blankArguments literals

theorem blankArguments_append {front : List Literal} (h : ∀ l ∈ front, l.isNegative = false) (rest : List Literal) :
    blankArguments (front ++ rest) = front.map (.positional ·.value) ++ blankArguments rest := by
  induction front with
  | nil => rfl
  | cons l front ih =>
    rw [List.cons_append, blankArguments, h l List.mem_cons_self, if_neg Bool.false_ne_true,
      ih fun k hk => h k (List.mem_cons_of_mem l hk)]
    rfl

theorem read_blanks (literals : List Literal) :
    Argument.read (literals.flatMap fun l => l.token.behindOperand) = blankArguments literals := by
  induction literals with
  | nil => rfl
  | cons l literals ih =>
    rw [List.flatMap_cons, blankArguments]
    cases hsign : l.isNegative with
    | true => rw [read_of_isNegative hsign, if_pos rfl]
    | false =>
      rw [behindOperand_eq hsign, if_neg Bool.false_ne_true, List.singleton_append, read_value l.isValue, ih]
      · rfl
      · cases literals with
        | nil => exact fun heq => nomatch heq
        | cons next literals => exact head?_behindOperand_ne next _

/-- **The arguments of what is given with commas between it**: nothing but a sign right at the front is lost. -/
def commaArguments (phrases : List Phrase) : List Argument :=
  if phrases.head?.any Phrase.isNegative then [.unexpected "-"] else phrases.map Phrase.argument

theorem commaArguments_cons (x : Phrase) (phrases : List Phrase) :
    commaArguments (x :: phrases)
      = if x.isNegative then [.unexpected "-"] else x.argument :: phrases.map Phrase.argument := rfl

theorem read_tokensBehindOperand (x : Phrase) (phrases : List Phrase) :
    Argument.read (x.tokensBehindOperand ++ phrases.flatMap fun y => .separator :: y.tokens)
      = commaArguments (x :: phrases) := by
  have hrest : (phrases.flatMap fun y => .separator :: y.tokens).head? ≠ some (Token.operator '=') := by
    cases phrases <;> simp
  cases hsign : x.isNegative with
  | true =>
    obtain l | a := x
    · rw [commaArguments_cons, if_pos hsign]
      exact read_of_isNegative hsign _
    · cases hsign
  | false =>
    have htokens : x.tokensBehindOperand = x.tokens := by
      obtain l | a := x
      · exact behindOperand_eq hsign
      · rfl
    rw [htokens, read_phrase x hrest, read_commas, commaArguments_cons, hsign, if_neg Bool.false_ne_true]

/-! ## Lines -/

/-- **The name of a command as it is written**, in any case. -/
structure CommandForm.Heading (form : CommandForm) where
  /-- The text. -/
  source : String
  /-- The name. -/
  name : String
  /-- The text holds nothing else. -/
  tokenize_source : tokenize source = .ok [.name name]
  /-- It is the name of the form. -/
  isName : equalIgnoringCase form.name name = true

namespace CommandForm

variable {form : CommandForm}

/-- A name alone. -/
def Heading.ofName (text : String) (h : isNameText text.toList = true)
    (hname : equalIgnoringCase form.name text = true) : form.Heading := ⟨text, text, tokenize_name h, hname⟩

/-- A line of a command, with some texts and the same between every two of them. -/
def Heading.line (h : form.Heading) (between : String) (texts : List String) : String :=
  h.source ++ " " ++ between.intercalate texts

theorem bind_line (hform : form ∈ all) (h : form.Heading) {between : String} {texts : List String}
    {tokens : List Token} (htokens : Lexes (some (.name h.name)) (between.intercalate texts).toList tokens)
    (body : String) :
    BinaryPatching.bind (h.line between texts) body = form.bindArguments (Argument.read tokens) body := by
  have hline : tokenize (h.line between texts) = .ok (.name h.name :: tokens) := by
    rw [tokenize_eq_ok_iff, Heading.line, String.toList_append, String.toList_append, List.append_assoc]
    exact (tokenize_eq_ok_iff.1 h.tokenize_source).append rfl (.blank rfl htokens)
  rw [BinaryPatching.bind, hline]
  dsimp only
  rw [named?_eq_some_iff.2 ⟨hform, h.isName⟩]
  exact form.bind_eq tokens body

/-- **What becomes of a line with commas.** -/
theorem bind_commas (hform : form ∈ all) (h : form.Heading) (phrases : List Phrase) (body : String) :
    BinaryPatching.bind (h.line "," (phrases.map Phrase.source)) body
      = form.bindArguments (commaArguments phrases) body := by
  cases phrases with
  | nil =>
    have htokens : Lexes (some (.name h.name)) (",".intercalate []).toList [] := .nil
    exact bind_line hform h htokens body
  | cons x phrases =>
    rw [← read_tokensBehindOperand]
    exact bind_line hform h (lexes_commas (x.lexes_behindOperand rfl) phrases) body

/-- **What becomes of a line with blanks.** -/
theorem bind_blanks (hform : form ∈ all) (h : form.Heading) (literals : List Literal) (body : String) :
    BinaryPatching.bind (h.line " " (literals.map Literal.source)) body
      = form.bindArguments (blankArguments literals) body := by
  rw [← read_blanks]
  exact bind_line hform h (lexes_blanks rfl literals) body

end CommandForm

end BinaryPatching
