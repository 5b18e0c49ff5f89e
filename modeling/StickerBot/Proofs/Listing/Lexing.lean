import StickerBot.Proofs.Listing.Names
set_option autoImplicit false

/-!
# Lexing a listing

The lexer finds again what was written: words, numbers, marks and string literals, if what
follows does not go on with them. An instruction is written as the tokens that it is read from.

## Main definitions

* `Listing.Takes` — the lexer takes tokens off the beginning of a text.
* `Instruction.tokens` — the tokens of an instruction.

## Main results

* `Listing.scanString_escape` — the inside of a string literal is read back.
* `Listing.takes_render` — the lexer takes the tokens of an instruction off its line.
* `Listing.lex_listing` — the tokens of a listing.
-/

namespace StickerBot

/-! ### The tokens of instructions -/

/-- The tokens of a number: a minus, if it needs one, and its digits. -/
def Listing.TokenKind.ofInt (n : Int) : List TokenKind :=
  if n < 0 then [.minus, .integer (-n)] else [.integer n]

/-- The tokens of the numbers of a call. -/
def Listing.argumentTokens (arguments : List Int32) : List TokenKind :=
  [TokenKind.comma].intercalate (arguments.map fun n => TokenKind.ofInt n.toInt)

/-- The tokens of a condition. -/
def Condition.tokens : Condition → List Listing.TokenKind
  | .below x limit => [.identifier x, .less] ++ Listing.TokenKind.ofInt limit.toInt
  | .sensorNotRaised s => [.not, .identifier s, .openParen, .closeParen]

/-- **The tokens of an instruction.** -/
def Instruction.tokens : Instruction → List Listing.TokenKind
  | .call f arguments =>
    [.identifier f, .openParen] ++ Listing.argumentTokens arguments ++ [.closeParen]
  | .wait n => [.wait, .integer n.toNat]
  | .assign x n => [.identifier x, .equals] ++ Listing.TokenKind.ofInt n.toInt
  | .increment x n =>
    [.identifier x, .equals, .identifier x, .plus] ++ Listing.TokenKind.ofInt n.toInt
  | .loop c => [.while] ++ c.tokens ++ [.colon, .newline, .openBrace]
  | .close => [.closeBrace]
  | .trace n => [.trace, .integer n.toNat]
  | .print s => [.print, .string s]

namespace Listing

/-! ### Taking tokens -/

/-- **Taking tokens.** From a text the lexer takes tokens of some kinds without an error and goes
on with the rest. -/
def Takes (cs : List Char) (ks : List TokenKind) (rest : List Char) : Prop :=
  ∀ l : Lexer, l.errors = [] → ∃ l' : Lexer, l'.errors = [] ∧
    l'.tokens.map Token.kind = ks.reverse ++ l.tokens.map Token.kind ∧
    lexFrom l cs = lexFrom l' rest

namespace Takes

/-- To take no characters gives no tokens. -/
lemma refl (cs : List Char) : Takes cs [] cs := fun l hl => ⟨l, hl, rfl, rfl⟩

/-- The tokens of one piece of the text come before those of the next piece. -/
lemma trans {cs cs' cs'' : List Char} {ks ks' : List TokenKind} (h : Takes cs ks cs')
    (h' : Takes cs' ks' cs'') : Takes cs (ks ++ ks') cs'' := by
  intro l hl
  obtain ⟨l₁, hl₁, hks, hlex⟩ := h l hl
  obtain ⟨l₂, hl₂, hks', hlex'⟩ := h' l₁ hl₁
  exact ⟨l₂, hl₂, by rw [hks', hks]; simp, hlex.trans hlex'⟩

end Takes

/-- Without errors there is room for errors. -/
lemma not_isFull {l : Lexer} (h : l.errors = []) : ¬ l.isFull = true := by
  simp [Lexer.isFull, h, DiagnosticLog.capacity]

/-! ### Blanks and marks -/

/-- Whatever is blank is skipped. -/
lemma takes_of_isBlank {c : Char} (h : isBlank c = true) (cs : List Char) :
    Takes (c :: cs) [] cs := by
  intro l hl
  refine ⟨l.skip [c], hl, rfl, ?_⟩
  rw [lexFrom, if_neg (not_isFull hl), if_pos h]

/-- A blank is skipped. -/
lemma takes_blank (cs : List Char) : Takes (' ' :: cs) [] cs := takes_of_isBlank rfl cs

/-- A mark is no blank and begins no comment. -/
lemma of_mark? {c : Char} {k : TokenKind} (h : mark? c = some k) : isBlank c = false ∧ c ≠ '/' := by
  unfold mark? at h
  split at h <;> first | exact ⟨by decide, by decide⟩ | simp at h

/-- A mark is a token. -/
lemma takes_mark {c : Char} {k : TokenKind} (h : mark? c = some k) (cs : List Char) :
    Takes (c :: cs) [k] cs := by
  intro l hl
  obtain ⟨hblank, hslash⟩ := of_mark? h
  refine ⟨l.pushMark k c, hl, rfl, ?_⟩
  rw [lexFrom, if_neg (not_isFull hl), if_neg (by simp [hblank]), if_neg (by simp [hslash])]
  simp only [h]

/-- A mark between blanks. -/
lemma takes_spaced (c : Char) {k : TokenKind} (h : mark? c = some k) (cs : List Char) :
    Takes (' ' :: c :: ' ' :: cs) [k] cs :=
  ((takes_blank _).trans (takes_mark h _)).trans (takes_blank cs)

/-! ### Words and numbers -/

/-- What follows does not go on with characters of a class. -/
def Stops (p : Char → Bool) (rest : List Char) : Prop := ∀ c ∈ rest.head?, p c = false

/-- A character that is not of a sort stops the characters of this sort. -/
lemma stops_cons {p : Char → Bool} {c : Char} (h : p c = false) (rest : List Char) :
    Stops p (c :: rest) := by
  intro d hd
  obtain rfl := Option.some.inj hd
  exact h

/-- Characters of a class are taken up to where what follows stops. -/
lemma takeWhile_append {p : Char → Bool} {cs rest : List Char} (hcs : ∀ c ∈ cs, p c = true)
    (hrest : Stops p rest) :
    (cs ++ rest).takeWhile p = cs ∧ (cs ++ rest).dropWhile p = rest := by
  rw [List.takeWhile_append_of_pos hcs, List.dropWhile_append_of_pos hcs]
  cases rest with
  | nil => simp
  | cons c rest => simp [hrest c rfl]

/-- A letter is no blank, no mark and no quote, and begins no comment and no number. -/
lemma of_startsWord {c : Char} (h : startsWord c = true) :
    isBlank c = false ∧ c ≠ '/' ∧ mark? c = none ∧ c ≠ '"' ∧ c.isDigit = false := by
  have hne : ∀ d : Char, startsWord d = false → c ≠ d := fun d hd hc => by simp [← hc, h] at hd
  refine ⟨by simp [isBlank, hne, startsWord], hne _ rfl, ?_, hne _ rfl, ?_⟩
  · unfold mark?
    split <;> first | exact absurd h (by decide) | rfl
  · rw [startsWord_iff] at h
    rw [Bool.eq_false_iff]
    intro hdigit
    have hle : c ≤ '9' := by
      simp only [Char.isDigit, Bool.and_eq_true, decide_eq_true_eq] at hdigit
      exact hdigit.2
    rcases h with ⟨h, -⟩ | ⟨h, -⟩ | rfl
    · exact absurd (Char.le_trans h hle) (by decide)
    · exact absurd (Char.le_trans h hle) (by decide)
    · exact absurd hle (by decide)

/-- A digit is no blank, no mark and no quote, and begins no comment. -/
lemma of_isDigit {c : Char} (h : c.isDigit = true) :
    isBlank c = false ∧ c ≠ '/' ∧ mark? c = none ∧ c ≠ '"' := by
  have hne : ∀ d : Char, d.isDigit = false → c ≠ d := fun d hd hc => by simp [← hc, h] at hd
  refine ⟨by simp [isBlank, hne], hne _ rfl, ?_, hne _ rfl⟩
  unfold mark?
  split <;> first | exact absurd h (by decide) | rfl

/-- A word is a token. -/
lemma takes_word {c : Char} {cs rest : List Char} (hc : startsWord c = true)
    (hcs : ∀ d ∈ cs, continuesWord d = true) (hrest : Stops continuesWord rest) :
    Takes (c :: cs ++ rest) [.ofWord (String.ofList (c :: cs))] rest := by
  intro l hl
  obtain ⟨hblank, hslash, hmark, hquote, hdigit⟩ := of_startsWord hc
  obtain ⟨htake, hdrop⟩ := takeWhile_append hcs hrest
  refine ⟨l.pushWord (c :: cs), hl, rfl, ?_⟩
  rw [List.cons_append, lexFrom, if_neg (not_isFull hl), if_neg (by simp [hblank]),
    if_neg (by simp [hslash])]
  simp only [hmark]
  rw [if_neg hquote, if_neg (by simp [hdigit]), if_pos hc, htake, hdrop]

/-- A name is a token. -/
lemma takes_name {x : String} (hx : IsName x) {rest : List Char}
    (hrest : Stops continuesWord rest) : Takes (x.toList ++ rest) [.identifier x] rest := by
  obtain ⟨⟨c, cs, hcs, hstart, hpart⟩, hkey⟩ := hx
  have h := takes_word (startsWord_iff.2 hstart) (fun d hd => continuesWord_iff.2 (hpart d hd))
    hrest
  have hword : String.ofList (c :: cs) = x := by rw [← hcs, String.ofList_toList]
  rwa [hword, TokenKind.ofWord, keyword?_eq_none_iff.2 hkey, ← hcs] at h

/-- Digits are a number, if it is not too large. What stops the number is no digit, so that all the
digits are taken at once; and a digit is tested only after it is no blank, no comment, no mark and
no quote. -/
lemma takes_number {c : Char} {cs rest : List Char} (hcs : ∀ d ∈ c :: cs, d.isDigit = true)
    (hrest : Stops Char.isDigit rest)
    (hfits : (Nat.ofDigitChars 10 (c :: cs) 0 : Int) ≤ Int64.maxValue.toInt) :
    Takes (c :: cs ++ rest) [.integer (Nat.ofDigitChars 10 (c :: cs) 0)] rest := by
  intro l hl
  obtain ⟨hc, hcs⟩ := List.forall_mem_cons.1 hcs
  obtain ⟨hblank, hslash, hmark, hquote⟩ := of_isDigit hc
  obtain ⟨htake, hdrop⟩ := takeWhile_append hcs hrest
  have hpush : l.pushNumber (c :: cs) =
      l.pushUpTo (.integer (Nat.ofDigitChars 10 (c :: cs) 0))
        (l.position.advance (c :: cs).length) := if_pos hfits
  refine ⟨l.pushNumber (c :: cs), by rw [hpush]; exact hl, by rw [hpush]; rfl, ?_⟩
  rw [List.cons_append, lexFrom, if_neg (not_isFull hl), if_neg (by simp [hblank]),
    if_neg (by simp [hslash])]
  simp only [hmark]
  rw [if_neg hquote, if_pos hc, htake, hdrop]

/-- The digits of a number are read as the number. -/
lemma takes_digits {n : Nat} (hn : n ≤ Int64.maxValue.toInt) {rest : List Char}
    (hrest : Stops Char.isDigit rest) :
    Takes (Nat.toDigits 10 n ++ rest) [.integer n] rest := by
  have hvalue : Nat.ofDigitChars 10 (Nat.toDigits 10 n) 0 = n := Nat.ofDigitChars_ten_toDigits
  have hall : ∀ d ∈ Nat.toDigits 10 n, d.isDigit = true := fun d hd =>
    Nat.isDigit_of_mem_toDigits (by decide) (by decide) hd
  rcases hdigits : Nat.toDigits 10 n with _ | ⟨c, cs⟩
  · exact absurd hdigits Nat.toDigits_ne_nil
  · rw [hdigits] at hvalue hall
    have hnumber := takes_number hall hrest (by rwa [hvalue])
    rwa [hvalue] at hnumber

/-- A number is read from its digits, after a minus if it has one. -/
lemma takes_int {n : Int} (hlow : -2 ^ 63 < n) (hhigh : n < 2 ^ 63) {rest : List Char}
    (hrest : Stops Char.isDigit rest) :
    Takes ((toString n).toList ++ rest) (TokenKind.ofInt n) rest := by
  have hmax : Int64.maxValue.toInt = 2 ^ 63 - 1 := rfl
  rw [Int.toString_eq_repr, Int.repr_eq_if, TokenKind.ofInt]
  by_cases hn : n < 0
  · have hdigits := takes_digits (n := (-n).toNat) (by omega) hrest
    rw [Int.toNat_of_nonneg (by omega)] at hdigits
    rw [if_neg (by omega), if_pos hn, String.toList_append, List.append_assoc, Nat.toList_repr]
    exact (takes_mark rfl _).trans hdigits
  · have hdigits := takes_digits (n := n.toNat) (by omega) hrest
    rw [Int.toNat_of_nonneg (by omega)] at hdigits
    rw [if_pos (by omega), if_neg hn, Nat.toList_repr]
    exact hdigits

/-! ### String literals -/

/-- **Escaping.** The inside of a string literal is read back up to the quote after it.

**Proof sketch.** Induction on the text, along the characters that are escaped and all others. -/
theorem scanString_escape (column : Nat) (errors : List Diagnostic) (cs rest : List Char) :
    ∀ (p : Position) (text : List Char), ∃ p', scanString column p text errors
      (cs.flatMap Instruction.escapeChar ++ '"' :: rest) =
        ⟨p', cs.reverse ++ text, errors, rest⟩ := by
  induction cs with
  | nil =>
    intro p text
    exact ⟨p.advance 1, by simp [scanString]⟩
  | cons c cs ih =>
    intro p text
    rw [List.flatMap_cons, List.append_assoc, List.reverse_cons, List.append_assoc]
    unfold Instruction.escapeChar
    split
    · exact ih (p.advance 2) ('"' :: text)
    · exact ih (p.advance 2) ('\\' :: text)
    · exact ih (p.advance 2) ('\n' :: text)
    · exact ih (p.advance 2) ('\t' :: text)
    · exact ih (p.advance 2) ('\r' :: text)
    · rename_i hquote hslash hbreak _ _
      obtain ⟨p', hp'⟩ := ih (p.after c) (c :: text)
      refine ⟨p', ?_⟩
      rw [List.singleton_append, scanString, if_neg hquote, if_neg hbreak]
      · exact hp'
      · exact fun h _ => hslash h
      · exact fun _ _ h _ => hslash h

/-- A string literal is a token. -/
lemma takes_string (text : String) (rest : List Char) :
    Takes ('"' :: ((Instruction.escape text).toList ++ '"' :: rest)) [.string text] rest := by
  intro l hl
  obtain ⟨p, hp⟩ := scanString_escape l.position.column l.errors text.toList rest
    (l.position.advance 1) []
  rw [Instruction.escape, String.toList_ofList]
  refine ⟨l.pushString ⟨p, text.toList.reverse, l.errors, rest⟩, hl, ?_, ?_⟩
  · simp [Lexer.pushString, Lexer.pushUpTo]
  · rw [lexFrom, if_neg (not_isFull hl), if_neg (by decide), if_neg (by simp)]
    simp only [show mark? '"' = none from rfl, if_true, hp, List.append_nil]

/-! ### Instructions -/

/-- A keyword and the blank after it. -/
lemma takes_keyword (k : TokenKind) (c : Char) (cs : List Char) (hc : startsWord c = true)
    (hcs : cs.all continuesWord = true) (hk : TokenKind.ofWord (String.ofList (c :: cs)) = k)
    (rest : List Char) : Takes (c :: cs ++ ' ' :: rest) [k] rest := by
  have hword : Takes (c :: cs ++ ' ' :: rest) [.ofWord (String.ofList (c :: cs))] (' ' :: rest) :=
    takes_word hc (List.all_eq_true.1 hcs) (stops_cons rfl _)
  rw [hk] at hword
  exact hword.trans (takes_blank rest)

/-- The number of a word with a sign, up to what does not go on with digits. -/
lemma takes_int32 (n : Int32) {rest : List Char} (hrest : Stops Char.isDigit rest) :
    Takes ((toString n.toInt).toList ++ rest) (TokenKind.ofInt n.toInt) rest := by
  have hlow : Int32.minValue.toInt = -2 ^ 31 := rfl
  have hhigh : Int32.maxValue.toInt = 2 ^ 31 - 1 := rfl
  have hmin := n.minValue_le_toInt
  have hmax := n.toInt_le
  exact takes_int (by omega) (by omega) hrest

/-- The number of a word without a sign, up to what does not go on with digits. -/
lemma takes_uint32 (n : UInt32) {rest : List Char} (hrest : Stops Char.isDigit rest) :
    Takes ((toString n.toNat).toList ++ rest) [.integer n.toNat] rest := by
  have hmax : Int64.maxValue.toInt = 2 ^ 63 - 1 := rfl
  have hlt := n.toNat_lt_size
  have hsize : UInt32.size = 2 ^ 32 := rfl
  rw [Nat.toString_eq_repr, Nat.toList_repr]
  exact takes_digits (by omega) hrest

/-- The numbers of a call and its closing parenthesis. By induction on the numbers, which are
divided by commas with a blank behind each; the last one stops at the parenthesis. -/
lemma takes_arguments (arguments : List Int32) (rest : List Char) :
    Takes ((", ".intercalate (arguments.map fun n => toString n.toInt)).toList ++ ')' :: rest)
      (argumentTokens arguments ++ [.closeParen]) rest := by
  induction arguments with
  | nil => exact takes_mark rfl rest
  | cons n ns ih =>
    cases ns with
    | nil =>
      have hn : Takes ((toString n.toInt).toList ++ ')' :: rest) (TokenKind.ofInt n.toInt)
          (')' :: rest) := takes_int32 n (stops_cons rfl _)
      simpa [argumentTokens] using hn.trans (takes_mark rfl rest)
    | cons n' ns =>
      have hn : Takes ((toString n.toInt).toList ++ ',' :: ' ' ::
          ((", ".intercalate ((n' :: ns).map fun n => toString n.toInt)).toList ++ ')' :: rest))
          (TokenKind.ofInt n.toInt) _ := takes_int32 n (stops_cons rfl _)
      have hall := ((hn.trans (takes_mark rfl _)).trans (takes_blank _)).trans ih
      simpa [argumentTokens, String.intercalate_cons_cons] using hall

/-- The condition of a loop, up to the colon. A counter, a comparison and a limit, or the keyword of
the negation and a call of the sensor; each of their parts stops before the next one. -/
lemma takes_condition {c : Condition} (hc : (Instruction.loop c).Named) (rest : List Char) :
    Takes (c.render.toList ++ ':' :: rest) (c.tokens ++ [.colon]) rest := by
  cases c with
  | below x limit =>
    have hx : Takes (x.toList ++ ' ' :: '<' :: ' ' ::
        ((toString limit.toInt).toList ++ ':' :: rest)) [.identifier x] _ :=
      takes_name (hc x (List.mem_singleton_self x)) (stops_cons rfl _)
    have hlimit : Takes ((toString limit.toInt).toList ++ ':' :: rest)
        (TokenKind.ofInt limit.toInt) _ := takes_int32 limit (stops_cons rfl _)
    have hall := ((hx.trans (takes_spaced '<' rfl _)).trans hlimit).trans (takes_mark rfl _)
    simpa [Condition.render, Condition.tokens] using hall
  | sensorNotRaised s =>
    have hnot := takes_keyword .not 'n' ['o', 't'] (by decide) (by decide) rfl
      (s.toList ++ '(' :: ')' :: ':' :: rest)
    have hs : Takes (s.toList ++ '(' :: ')' :: ':' :: rest) [.identifier s] _ :=
      takes_name (hc s (List.mem_singleton_self s)) (stops_cons rfl _)
    have hall := (((hnot.trans hs).trans (takes_mark rfl _)).trans (takes_mark rfl _)).trans
      (takes_mark rfl rest)
    simpa [Condition.render, Condition.tokens] using hall

/-- **Lines.** The lexer takes the tokens of an instruction, whose names may be names, off the line
it is written on. -/
theorem takes_render {i : Instruction} (hi : i.Named) (rest : List Char) :
    Takes (i.render.toList ++ '\n' :: rest) (i.tokens ++ [.newline]) rest := by
  have hline : ∀ cs : List Char, Takes ('\n' :: cs) [.newline] cs := fun cs => takes_mark rfl cs
  have hint : ∀ n : Int32, Takes ((toString n.toInt).toList ++ '\n' :: rest)
      (TokenKind.ofInt n.toInt) ('\n' :: rest) :=
    fun n => takes_int32 n (stops_cons rfl _)
  have hnat : ∀ n : UInt32, Takes ((toString n.toNat).toList ++ '\n' :: rest) [.integer n.toNat]
      ('\n' :: rest) := fun n => takes_uint32 n (stops_cons rfl _)
  cases i with
  | call f arguments =>
    have hf : Takes (f.toList ++ '(' :: ((", ".intercalate
        (arguments.map fun n => toString n.toInt)).toList ++ ')' :: '\n' :: rest))
        [.identifier f] _ :=
      takes_name (hi f (List.mem_singleton_self f)) (stops_cons rfl _)
    have hall := ((hf.trans (takes_mark rfl _)).trans (takes_arguments arguments _)).trans
      (hline rest)
    simpa [Instruction.render, Instruction.tokens] using hall
  | wait n =>
    have hword := takes_keyword .wait 'w' ['a', 'i', 't'] (by decide) (by decide) rfl
      ((toString n.toNat).toList ++ '\n' :: rest)
    simpa [Instruction.render, Instruction.tokens] using (hword.trans (hnat n)).trans (hline rest)
  | assign x n =>
    have hx : Takes (x.toList ++ ' ' :: '=' :: ' ' :: ((toString n.toInt).toList ++ '\n' :: rest))
        [.identifier x] _ :=
      takes_name (hi x (List.mem_singleton_self x)) (stops_cons rfl _)
    have hall := ((hx.trans (takes_spaced '=' rfl _)).trans (hint n)).trans (hline rest)
    simpa [Instruction.render, Instruction.tokens] using hall
  | increment x n =>
    have hx : ∀ cs : List Char, Takes (x.toList ++ ' ' :: cs) [.identifier x] (' ' :: cs) :=
      fun cs => takes_name (hi x (List.mem_singleton_self x)) (stops_cons rfl _)
    have hsum := ((hx _).trans (takes_spaced '+' rfl _)).trans (hint n)
    have hall := (((hx _).trans (takes_spaced '=' rfl _)).trans hsum).trans (hline rest)
    simpa [Instruction.render, Instruction.tokens] using hall
  | loop c =>
    have hword := takes_keyword .while 'w' ['h', 'i', 'l', 'e'] (by decide) (by decide) rfl
      (c.render.toList ++ ':' :: '\n' :: '{' :: '\n' :: rest)
    have hall := (((hword.trans (takes_condition hi _)).trans (hline _)).trans
      (takes_mark rfl _)).trans (hline rest)
    simpa [Instruction.render, Instruction.tokens] using hall
  | close => exact (takes_mark rfl _).trans (hline rest)
  | trace n =>
    have hword := takes_keyword .trace 't' ['r', 'a', 'c', 'e'] (by decide) (by decide) rfl
      ((toString n.toNat).toList ++ '\n' :: rest)
    simpa [Instruction.render, Instruction.tokens] using (hword.trans (hnat n)).trans (hline rest)
  | print s =>
    have hword := takes_keyword .print 'p' ['r', 'i', 'n', 't'] (by decide) (by decide) rfl
      ('"' :: ((Instruction.escape s).toList ++ '"' :: '\n' :: rest))
    have hall := (hword.trans (takes_string s _)).trans (hline rest)
    simpa [Instruction.render, Instruction.tokens] using hall

/-- The tokens of lines, each with the end of the line. -/
def lineTokens (is : List Instruction) : List TokenKind :=
  is.flatMap fun i => i.tokens ++ [.newline]

/-- The lexer takes the tokens of all lines. -/
lemma takes_lines (is : List Instruction) (h : ∀ i ∈ is, i.Named) :
    Takes (is.flatMap fun i => i.render.toList ++ ['\n']) (lineTokens is) [] := by
  induction is with
  | nil => exact .refl []
  | cons i is ih =>
    obtain ⟨hi, his⟩ := List.forall_mem_cons.1 h
    have hall := (takes_render hi _).trans (ih his)
    simpa [lineTokens] using hall

/-- A text of which all tokens are taken has these tokens, and no errors. -/
lemma Takes.lex {text : String} {ks : List TokenKind} (h : Takes text.toList ks []) :
    (lex text).tokens.map Token.kind = ks ++ [.endOfInput] ∧ (lex text).errors = [] := by
  obtain ⟨l, herrors, htokens, hlex⟩ := h .start rfl
  have hkinds : l.tokens.map Token.kind = ks.reverse := by simpa [Lexer.start] using htokens
  rw [Listing.lex, hlex, lexFrom]
  simp [Lexer.finish, hkinds, herrors]

/-- **Listings.** The tokens of a listing are those of its instructions line by line, if the names
in it may be names, and there are no errors. -/
theorem lex_listing {p : Program} (h : ∀ i ∈ p.instructions, i.Named) :
    (lex p.listing).tokens.map Token.kind = lineTokens p.instructions ++ [.endOfInput] ∧
      (lex p.listing).errors = [] := by
  have htext : p.listing.toList = p.instructions.flatMap fun i => i.render.toList ++ ['\n'] := by
    simp [Program.listing, List.flatMap_map]
  have htakes := takes_lines p.instructions h
  rw [← htext] at htakes
  exact htakes.lex

end Listing

end StickerBot
