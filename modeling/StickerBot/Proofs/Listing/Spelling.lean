import StickerBot.Proofs.Listing.Positions
set_option autoImplicit false

/-!
# Lossless lexing

If there is nothing wrong with a text, no octet of it is lost. Every token is spelled out where its
span says: a keyword, a mark or the end of a line as it is always spelled, a name as itself, a
number by its digits, a string between quotes with some characters escaped. No token could be
spelled by more of the characters that stand there. And all that is outside of tokens are blanks and
comments.

## Main definitions

* `Listing.TokenKind.spelling?` — the tokens that are always spelled the same.
* `Listing.Unescapes` — the inside of a string literal and the text it stands for.
* `Listing.TokenKind.Spells` — the spellings of tokens.
* `Listing.Token.IsSpelledAt` — a token is spelled out where its span says.
* `Listing.Extent.IsComment` — comments.
* `Listing.Lexed.IsLossless` — the tokens of a text and what is outside of them are all of it.

## Main results

* `Listing.IsLexeme.longest` — no token is spelled by more characters.
* `Listing.lex_lossless` — what stands where in a text with no errors.
-/

namespace StickerBot.Listing

/-! ### Spellings -/

/-- **Fixed spellings** of keywords, marks and the ends of lines. -/
def TokenKind.spelling? : TokenKind → Option String
  | .wait => some "wait"
  | .while => some "while"
  | .not => some "not"
  | .trace => some "trace"
  | .print => some "print"
  | .openParen => some "("
  | .closeParen => some ")"
  | .openBrace => some "\x7b"
  | .closeBrace => some "\x7d"
  | .comma => some ","
  | .colon => some ":"
  | .equals => some "="
  | .plus => some "+"
  | .minus => some "-"
  | .less => some "<"
  | .newline => some "\n"
  | .identifier _ | .integer _ | .string _ | .endOfInput => none

/-- The characters with a meaning behind a backslash, each with what it means. -/
def escapes : List (Char × Char) :=
  [('n', '\n'), ('t', '\t'), ('r', '\r'), ('"', '"'), ('\\', '\\')]

/-- **Unescaping.** The inside of a string literal and the text that it stands for. -/
inductive Unescapes : List Char → List Char → Prop where
  | nil : Unescapes [] []
  | plain {c : Char} {inner text : List Char} (hc : c ≠ '"' ∧ c ≠ '\\' ∧ c ≠ '\n')
    (h : Unescapes inner text) : Unescapes (c :: inner) (c :: text)
  | escape {c d : Char} {inner text : List Char} (hc : (c, d) ∈ escapes)
    (h : Unescapes inner text) : Unescapes ('\\' :: c :: inner) (d :: text)

/-- **Spellings** of a token. -/
inductive TokenKind.Spells : TokenKind → List Char → Prop where
  | fixed {k : TokenKind} {s : String} (h : k.spelling? = some s) : Spells k s.toList
  | name {x : String} (h : IsName x) : Spells (.identifier x) x.toList
  | digits {c : Char} {cs : List Char} (h : ∀ d ∈ c :: cs, d.isDigit = true) :
    Spells (.integer (Nat.ofDigitChars 10 (c :: cs) 0)) (c :: cs)
  | quoted {inner text : List Char} (h : Unescapes inner text) :
    Spells (.string (String.ofList text)) ('"' :: (inner ++ ['"']))

/-- **A token in a text**, between the characters before it and those after it: it is spelled out
where its span says, and no token is spelled by more of the characters that stand there. -/
structure Token.IsSpelledAt (t : Token) (before word rest : List Char) : Prop where
  spells : t.kind.Spells word
  longest : ∀ k longer, TokenKind.Spells k longer → longer <+: word ++ rest →
    longer.length ≤ word.length
  span : t.span = (Extent.mk (octets before) (octets word)).span
  excerpt : excerpt (octets (before ++ (word ++ rest))) t.span = octets word

/-- **Comments.** Two slashes and what follows, up to the end of the line. -/
structure Extent.IsComment (s : Extent) (bs : List UInt8) : Prop where
  slashes : octets ['/', '/'] <+: s.inside
  lineBreak_not_mem : lineBreak ∉ s.inside
  upTo : s.upTo = bs ∨ s.upTo ++ [lineBreak] <+: bs

/-- **Lossless lexing.** The tokens of a text and what is outside of them are all of it. -/
structure Lexed.IsLossless (found : Lexed) (cs : List Char) : Prop where
  /-- The last token and no other is the end of the input. -/
  endOfInput : ∃ ts last, found.tokens = ts ++ [last] ∧ last.kind = .endOfInput ∧
    ∀ t ∈ ts, t.kind ≠ .endOfInput
  /-- The others are spelled out where their spans say. -/
  spelled : ∀ t ∈ found.tokens, t.kind ≠ .endOfInput → ∃ before word rest,
    cs = before ++ (word ++ rest) ∧ t.IsSpelledAt before word rest
  /-- Tokens do not overlap. -/
  ordered : found.tokens.Pairwise fun t u => EndsBefore t.span u.span
  /-- An octet outside of the spans of tokens is a blank or belongs to a comment, which no token
  overlaps. -/
  outside : ∀ pre b post, octets cs = pre ++ b :: post →
    (∃ t ∈ found.tokens, Covers t.span (Position.behind pre)) ∨ b ∈ octets [' ', '\t', '\r'] ∨
      ∃ s : Extent, s.IsComment (octets cs) ∧ s.before <+: pre ∧ pre ++ [b] <+: s.upTo ∧
        ∀ t ∈ found.tokens, EndsBefore t.span s.span ∨ EndsBefore s.span t.span

/-- The end of the input has no spelling. -/
lemma TokenKind.Spells.ne_endOfInput {k : TokenKind} {word : List Char} (h : k.Spells word) :
    k ≠ .endOfInput := by
  rintro rfl
  cases h with
  | fixed h => simp [TokenKind.spelling?] at h

/-- What is meant by a character behind a backslash is looked up in a table, and nothing else is
meant by any. -/
lemma unescape?_eq_some_iff {c d : Char} : unescape? c = some d ↔ (c, d) ∈ escapes := by
  constructor
  · intro h
    unfold unescape? at h
    split at h <;> first | (obtain rfl := Option.some.inj h; decide) | simp at h
  · intro h
    simp only [escapes, List.mem_cons, Prod.mk.injEq, List.not_mem_nil, or_false] at h
    rcases h with ⟨rfl, rfl⟩ | ⟨rfl, rfl⟩ | ⟨rfl, rfl⟩ | ⟨rfl, rfl⟩ | ⟨rfl, rfl⟩ <;> rfl

namespace Unescapes

variable {inner text : List Char}

/-- No line ends inside of a string literal. -/
lemma lineBreak_not_mem (h : Unescapes inner text) : '\n' ∉ inner := by
  induction h with
  | nil => simp
  | plain hc _ ih => simp [ih, Ne.symm hc.2.2]
  | @escape c d inner text hc _ ih =>
    have hne : '\n' ≠ c := fun heq => by simp [← heq, escapes] at hc
    simp [ih, hne]

/-- A string literal ends at its first quote that is not escaped. By induction on the first of two
literals that begin alike: where one of them ends there is a quote, and the other has no quote there
except behind a backslash. -/
lemma unique {inner' text' rest rest' : List Char} (h : Unescapes inner text)
    (h' : Unescapes inner' text') (heq : inner ++ '"' :: rest = inner' ++ '"' :: rest') :
    inner = inner' := by
  induction h generalizing inner' text' with
  | nil =>
    cases h' with
    | nil => rfl
    | plain hc => exact absurd (List.cons.inj heq).1.symm hc.1
    | escape => simp at heq
  | plain hc _ ih =>
    cases h' with
    | nil => exact absurd (List.cons.inj heq).1 hc.1
    | plain _ h' =>
      obtain ⟨rfl, hinner⟩ := List.cons.inj heq
      rw [ih h' hinner]
    | escape => exact absurd (List.cons.inj heq).1 hc.2.1
  | escape _ _ ih =>
    cases h' with
    | nil => simp at heq
    | plain hc => exact absurd (List.cons.inj heq).1.symm hc.2.1
    | escape _ h' =>
      obtain ⟨rfl, hinner⟩ := List.cons.inj (List.cons.inj heq).2
      rw [ih h' hinner]

end Unescapes

/-! ### Lexemes with nothing wrong -/

/-- A string literal with nothing wrong in it ends with a quote. -/
lemma Quoted.unescapes {before : List UInt8} {read body rest text : List Char}
    {errors : List (LexError × Extent)} (h : Quoted before read body rest text errors)
    (herrors : errors = []) : ∃ inner, body = inner ++ ['"'] ∧ Unescapes inner text := by
  induction h with
  | closed => exact ⟨[], rfl, .nil⟩
  | unterminated => simp at herrors
  | cut => simp at herrors
  | plain hc _ ih =>
    obtain ⟨inner, rfl, h⟩ := ih herrors
    exact ⟨_ :: inner, rfl, .plain hc h⟩
  | escaped hc _ ih =>
    obtain ⟨inner, rfl, h⟩ := ih herrors
    exact ⟨_ :: _ :: inner, rfl, .escape (unescape?_eq_some_iff.1 hc) h⟩
  | unknown => simp at herrors

/-- The rest of a string literal with nothing wrong does not depend on what follows it. -/
lemma Quoted.of_clean {before : List UInt8} {read body rest text : List Char}
    {errors : List (LexError × Extent)} (h : Quoted before read body rest text errors)
    (hclean : errors = []) (rest' : List Char) : Quoted before read body rest' text [] := by
  induction h with
  | closed read rest => exact .closed read rest'
  | unterminated => simp at hclean
  | cut => simp at hclean
  | plain hc _ ih => exact .plain hc (ih hclean)
  | escaped hc _ ih => exact .escaped hc (ih hclean)
  | unknown => simp at hclean

/-- A mark is the only character of its spelling. -/
lemma spelling?_of_mark? {c : Char} {k : TokenKind} (h : mark? c = some k) :
    k.spelling? = some (String.ofList [c]) := by
  unfold mark? at h
  split at h <;> first | (obtain rfl := Option.some.inj h; rfl) | simp at h

/-- A keyword is spelled as itself. -/
lemma spelling?_of_keyword? {word : String} {k : TokenKind}
    (h : TokenKind.keyword? word = some k) : k.spelling? = some word := by
  unfold TokenKind.keyword? at h
  split_ifs at h <;> simp_all [TokenKind.spelling?] <;> subst h <;> rfl

namespace IsLexeme

variable {before : List UInt8} {word rest : List Char} {k : TokenKind}

/-- **Spelling.** A token with nothing wrong is spelled out. One case for each kind of lexeme. A
word is a keyword with its fixed spelling, or a name that spells itself. -/
lemma spells (h : IsLexeme before word rest (some k) []) : k.Spells word := by
  cases h with
  | mark h =>
    have hs := TokenKind.Spells.fixed (spelling?_of_mark? h)
    rwa [String.toList_ofList] at hs
  | @word c cs _ hc hcs _ =>
    cases hkey : TokenKind.keyword? (String.ofList (c :: cs)) with
    | none =>
      have hname := named_ofWord hc hcs
      rw [TokenKind.ofWord, hkey, Option.getD_none] at hname ⊢
      have hs := TokenKind.Spells.name (hname _ rfl)
      rwa [String.toList_ofList] at hs
    | some k =>
      rw [TokenKind.ofWord, hkey, Option.getD_some]
      have hs := TokenKind.Spells.fixed (spelling?_of_keyword? hkey)
      rwa [String.toList_ofList] at hs
  | number hcs => exact .digits hcs
  | literal h =>
    obtain ⟨inner, rfl, hinner⟩ := h.unescapes rfl
    exact .quoted hinner

/-- A lexeme has characters. -/
lemma exists_cons {k? : Option TokenKind} {errors : List (LexError × Extent)}
    (h : IsLexeme before word rest k? errors) : ∃ c cs, word = c :: cs := by
  cases h <;> exact ⟨_, _, rfl⟩

section First

variable {c : Char} {cs : List Char} {k? : Option TokenKind} {errors : List (LexError × Extent)}

/-- What begins as a word is one. -/
lemma of_startsWord (h : IsLexeme before (c :: cs) rest k? errors) (hc : startsWord c = true) :
    Stops continuesWord rest := by
  obtain ⟨hblank, hslash, hmark, hquote, hdigit⟩ := Listing.of_startsWord hc
  cases h with
  | blank h => simp [hblank] at h
  | comment => exact absurd rfl hslash
  | mark h => simp [hmark] at h
  | word _ _ hrest => exact hrest
  | number h => simp [hdigit] at h
  | hugeNumber h => simp [hdigit] at h
  | literal => exact absurd rfl hquote

/-- What begins as a number is one. -/
lemma of_isDigit (h : IsLexeme before (c :: cs) rest k? errors) (hc : c.isDigit = true) :
    Stops Char.isDigit rest := by
  obtain ⟨hblank, hslash, hmark, hquote⟩ := Listing.of_isDigit hc
  cases h with
  | blank h => simp [hblank] at h
  | comment => exact absurd rfl hslash
  | mark h => simp [hmark] at h
  | word h =>
    obtain ⟨-, -, -, -, hdigit⟩ := Listing.of_startsWord h
    simp [hdigit] at hc
  | number _ hrest => exact hrest
  | hugeNumber _ hrest => exact hrest
  | literal => exact absurd rfl hquote

/-- What begins as a string literal is one. -/
lemma of_quote (h : IsLexeme before ('"' :: cs) rest k? errors) :
    ∃ text, Quoted before ['"'] cs rest text errors := by
  cases h with
  | blank h => simp [isBlank] at h
  | mark h => simp [mark?] at h
  | word h => simp [startsWord] at h
  | number h => simp at h
  | hugeNumber h => simp at h
  | literal h => exact ⟨_, h⟩

end First

end IsLexeme

/-- Where what follows stops, no more characters of a class can be taken. -/
lemma length_le_of_stops {p : Char → Bool} {word rest longer : List Char}
    (hlonger : ∀ d ∈ longer, p d = true) (hbegins : longer <+: word ++ rest)
    (hrest : Stops p rest) : longer.length ≤ word.length := by
  by_contra hlength
  obtain ⟨more, rfl⟩ := List.prefix_of_prefix_length_le (List.prefix_append word rest) hbegins
    (Nat.le_of_not_le hlength)
  cases more with
  | nil => simp at hlength
  | cons d more =>
    obtain ⟨tail, htail⟩ := hbegins
    rw [List.append_assoc, List.append_cancel_left_eq] at htail
    have hd : p d = false := hrest d (by rw [← htail]; rfl)
    rw [hlonger d (by simp)] at hd
    exact absurd hd (by simp)

/-- A fixed spelling is a single character, or a keyword. -/
lemma length_of_spelling? {k : TokenKind} {s : String} (h : k.spelling? = some s) :
    s.toList.length = 1 ∨ ∃ c cs, s.toList = c :: cs ∧ startsWord c = true ∧
      ∀ d ∈ cs, continuesWord d = true := by
  unfold TokenKind.spelling? at h
  split at h <;> first
    | (obtain rfl := Option.some.inj h; exact .inl rfl)
    | (obtain rfl := Option.some.inj h; exact .inr ⟨_, _, rfl, rfl, List.all_eq_true.1 rfl⟩)
    | simp at h

/-- **Longest match.** No token is spelled by more of the characters that stand where a token with
nothing wrong stands. -/
theorem IsLexeme.longest {before : List UInt8} {word rest longer : List Char}
    {k? : Option TokenKind} (h : IsLexeme before word rest k? []) {k : TokenKind}
    (hk : k.Spells longer) (hlonger : longer <+: word ++ rest) :
    longer.length ≤ word.length := by
  obtain ⟨c, cs, rfl⟩ := h.exists_cons
  have hword : ∀ {d : Char} {ds : List Char}, d :: ds <+: c :: cs ++ rest → startsWord d = true →
      (∀ e ∈ ds, continuesWord e = true) → (d :: ds).length ≤ (c :: cs).length := by
    intro d ds hbegins hd hds
    obtain ⟨rfl, -⟩ := List.cons_prefix_cons.1 hbegins
    exact length_le_of_stops (continuesWord_of_startsWord hd hds) hbegins (h.of_startsWord hd)
  cases hk with
  | @fixed _ s hs =>
    rcases length_of_spelling? hs with hone | ⟨d, ds, hs, hd, hds⟩
    · rw [hone]
      exact Nat.succ_le_of_lt (Nat.succ_pos _)
    · rw [hs] at hlonger ⊢
      exact hword hlonger hd hds
  | name hx =>
    obtain ⟨⟨d, ds, hx, hd, hds⟩, -⟩ := hx
    rw [hx] at hlonger ⊢
    exact hword hlonger (startsWord_iff.2 hd) fun e he => continuesWord_iff.2 (hds e he)
  | digits hds =>
    obtain ⟨rfl, -⟩ := List.cons_prefix_cons.1 hlonger
    exact length_le_of_stops hds hlonger (h.of_isDigit (hds _ (List.mem_cons_self ..)))
  | @quoted inner text hinner =>
    obtain ⟨rfl, -⟩ := List.cons_prefix_cons.1 hlonger
    obtain ⟨text', hbody⟩ := h.of_quote
    obtain ⟨inner', rfl, hinner'⟩ := hbody.unescapes rfl
    obtain ⟨tail, htail⟩ := (List.cons_prefix_cons.1 hlonger).2
    change inner ++ ['"'] ++ tail = inner' ++ ['"'] ++ rest at htail
    rw [List.append_assoc, List.append_assoc] at htail
    rw [hinner.unique hinner' htail]

/-- The end of a line is a lexeme of its own, if nothing is wrong. -/
lemma IsLexeme.of_newline_mem {before : List UInt8} {word rest : List Char}
    {k? : Option TokenKind} (h : IsLexeme before word rest k? []) (hmem : '\n' ∈ word) :
    word = ['\n'] := by
  rcases h.of_mem_lineBreak hmem with hword | ⟨-, body, rfl, hbody⟩
  · exact hword
  · obtain ⟨text, hquoted⟩ := h.of_quote
    obtain ⟨inner, rfl, hinner⟩ := hquoted.unescapes rfl
    have hbreak : '\n' ∈ inner ++ ['"'] := hbody.mem (by simp)
    exact absurd (by simpa using hbreak) hinner.lineBreak_not_mem

/-- A lexeme with nothing wrong goes on behind no line break. -/
lemma IsLexeme.not_runsOver {before bs : List UInt8} {word rest : List Char}
    {k? : Option TokenKind} (h : IsLexeme before word rest k? []) :
    ¬ (Extent.mk bs (octets word)).RunsOver := by
  rintro ⟨hmem, hne⟩
  rw [h.of_newline_mem (lineBreak_mem_octets_iff.1 hmem)] at hne
  exact hne rfl

/-! ### Texts with nothing wrong -/

section Clean

variable {cs : List Char} {xs : List Lexeme} {stop : List UInt8}

/-- A lexeme with nothing wrong is one of the characters where it stands. -/
lemma Cuts.of_clean (h : Cuts [] cs xs stop) {x : Lexeme} (hx : x ∈ xs) (hclean : x.errors = []) :
    ∃ before word rest, cs = before ++ (word ++ rest) ∧
      x.extent = ⟨octets before, octets word⟩ ∧
      IsLexeme (octets before) word rest x.kind? [] := by
  rcases Cuts.of_mem hx h with ⟨before, b, rfl⟩ | ⟨before, word, rest, hcs, hextent, hword⟩
  · simp [Lexeme.stray] at hclean
  · rw [hextent, hclean] at hword
    exact ⟨before, word, rest, hcs, hextent, hword⟩

/-- A token with nothing wrong is spelled out where its span says. -/
lemma IsLexeme.isSpelledAt {before word rest : List Char} {t : Token}
    (h : IsLexeme (octets before) word rest (some t.kind) [])
    (hspan : t.span = (Extent.mk (octets before) (octets word)).span) :
    t.IsSpelledAt before word rest := by
  refine ⟨h.spells, fun k longer hk hlonger => h.longest hk hlonger, hspan, ?_⟩
  have hin : (Extent.mk (octets before) (octets word)).IsIn
      (octets (before ++ (word ++ rest))) := by
    rw [octets_append, octets_append, ← List.append_assoc]
    exact List.prefix_append ..
  rw [hspan]
  exact ((Extent.isAt_span_iff hin).2 h.not_runsOver).excerpt

/-- A lexeme that is no token is a blank or a comment. The comment goes up to the end of the line or
of the text, because the lexeme stops only there. -/
lemma IsLexeme.blank_or_comment {before word rest : List Char}
    (h : IsLexeme (octets before) word rest none []) :
    (∃ c ∈ [' ', '\t', '\r'], word = [c]) ∨
      (Extent.mk (octets before) (octets word)).IsComment
        (octets (before ++ (word ++ rest))) := by
  cases h with
  | @blank c _ hc =>
    refine .inl ⟨c, ?_, rfl⟩
    simpa [isBlank] using hc
  | @comment body _ hbody hrest =>
    refine .inr ⟨?_, ?_, ?_⟩
    · exact ⟨octets body, by simp⟩
    · rw [lineBreak_mem_octets_iff]
      simpa using hbody
    · rw [octets_append, octets_append, ← List.append_assoc, Extent.upTo]
      cases rest with
      | nil => exact .inl (by rw [octets_nil, List.append_nil])
      | cons d rest =>
        have hd := hrest d rfl
        simp only [ne_eq, decide_not, Bool.not_eq_false', decide_eq_true_eq] at hd
        refine .inr ⟨octets rest, ?_⟩
        rw [hd, List.append_assoc]
        rfl

/-- Of two lexemes one ends before the other begins. -/
lemma Cuts.apart (h : Cuts [] cs xs stop) {x y : Lexeme} (hx : x ∈ xs) (hy : y ∈ xs)
    (hne : x ≠ y) : x.extent.Precedes y.extent ∨ y.extent.Precedes x.extent := by
  have hapart : xs.Pairwise fun x y =>
      x.extent.Precedes y.extent ∨ y.extent.Precedes x.extent := h.chained.pairwise.imp .inl
  have : Std.Symm fun x y : Lexeme =>
      x.extent.Precedes y.extent ∨ y.extent.Precedes x.extent := ⟨fun _ _ => Or.symm⟩
  exact hapart.forall hx hy hne

/-- **Nothing is lost.** Every octet belongs to a token, a blank or a comment.

**Proof sketch.** The octet is in some lexeme, since the lexemes leave no gap. If the lexeme is a
token its columns cover the octet, because it does not run over the end of a line; otherwise it is a
blank or a comment. -/
lemma Cuts.octet_cases (h : Cuts [] cs xs (octets cs)) (hclean : ∀ x ∈ xs, x.errors = [])
    {pre post : List UInt8} {b : UInt8} (hpre : octets cs = pre ++ b :: post) :
    (∃ x ∈ xs, x.kind? ≠ none ∧ Covers x.extent.span (Position.behind pre)) ∨
      b ∈ octets [' ', '\t', '\r'] ∨
        ∃ x ∈ xs, x.kind? = none ∧ x.extent.IsComment (octets cs) ∧ x.extent.before <+: pre ∧
          pre ++ [b] <+: x.extent.upTo := by
  have hchained := h.chained
  rw [hpre] at hchained
  obtain ⟨x, hx, part, more, rfl, hinside⟩ := Chained.exists_of_octet
    (show Chained [] xs ([] ++ (pre ++ b :: post)) from hchained)
  obtain ⟨before, word, rest, rfl, hextent, hword⟩ := h.of_clean hx (hclean x hx)
  cases hkind : x.kind? with
  | some k =>
    have hover : ¬ x.extent.RunsOver := hextent ▸ hword.not_runsOver
    exact .inl ⟨x, hx, by simp [hkind], Extent.span_covers hover hinside⟩
  | none =>
    rw [hkind] at hword
    rcases hword.blank_or_comment with ⟨c, hc, rfl⟩ | hcomment
    · refine .inr (.inl (List.mem_flatMap.2 ⟨c, hc, ?_⟩))
      have hb : b ∈ x.extent.inside := by simp [hinside]
      rw [hextent] at hb
      simpa using hb
    · refine .inr (.inr ⟨x, hx, hkind, hextent ▸ hcomment, List.prefix_append .., ?_⟩)
      rw [Extent.upTo, hinside]
      exact ⟨more, by simp⟩

/-- What is no token is apart from all tokens. -/
lemma Cuts.apart_of_mem (h : Cuts [] cs xs stop) {x : Lexeme} (hx : x ∈ xs)
    (hkind : x.kind? = none) {p : Token × Extent} (hp : p ∈ placedTokens xs stop) :
    EndsBefore p.1.span x.extent.span ∨ EndsBefore x.extent.span p.1.span := by
  rcases mem_placedTokens.1 hp with ⟨y, hy, hk, hspan, -⟩ | rfl
  · have hne : y ≠ x := fun heq => by simp [heq, hkind] at hk
    rw [hspan]
    exact (h.apart hy hx hne).imp Extent.span_endsBefore Extent.span_endsBefore
  · exact .inr (Extent.span_endsBefore (t := ⟨stop, []⟩) (Chained.of_mem hx h.chained).2)

end Clean

/-- A text with no lexical errors is cut into lexemes with nothing wrong, up to its end. -/
lemma exists_cuts_of_clean {text : String} (h : (lex text).errors = []) :
    ∃ xs, Cuts [] text.toList xs (octets text.toList) ∧ (∀ x ∈ xs, x.errors = []) ∧
      (lex text).tokens = xs.filterMap Lexeme.token? ++
        [⟨.endOfInput, (Extent.mk (octets text.toList) []).span⟩] := by
  obtain ⟨xs, stop, hxs, htokens, herrors, hstop⟩ := lexFrom_spec .start text.toList []
    Position.behind_nil.symm
  have hnone : xs.flatMap Lexeme.diagnostics = [] := herrors.symm.trans h
  -- There is room for errors, so the whole text is read.
  obtain rfl : stop = octets text.toList := by
    refine hstop.resolve_right fun hfull => ?_
    have hempty : (lexFrom .start text.toList).errors = [] := h
    rw [hempty] at hfull
    exact absurd hfull (by decide)
  exact ⟨xs, hxs, fun x hx => List.map_eq_nil_iff.1 (List.flatMap_eq_nil_iff.1 hnone x hx), htokens⟩

/-- **Lossless lexing.** If a text has no lexical errors, the end of the input is its last token and
no other one. The others are spelled out where their spans say, each by as many characters as
can be, and none begins before the one before it ends. All that is outside of them are blanks and
comments. -/
theorem lex_lossless {text : String} (h : (lex text).errors = []) :
    (lex text).IsLossless text.toList := by
  obtain ⟨xs, hxs, hclean, htokens⟩ := exists_cuts_of_clean h
  have hplaced : (lex text).tokens = (placedTokens xs (octets text.toList)).map Prod.fst :=
    htokens.trans map_placedTokens.symm
  -- The tokens but the last one are lexemes with nothing wrong.
  have hspelled : ∀ t ∈ xs.filterMap Lexeme.token?, ∃ before word rest,
      text.toList = before ++ (word ++ rest) ∧ t.IsSpelledAt before word rest := by
    intro t ht
    obtain ⟨x, hx, htoken⟩ := List.mem_filterMap.1 ht
    obtain ⟨k, hk, rfl⟩ := Option.map_eq_some_iff.1 htoken
    obtain ⟨before, word, rest, hcs, hextent, hword⟩ := hxs.of_clean hx (hclean x hx)
    rw [hk] at hword
    exact ⟨before, word, rest, hcs, hword.isSpelledAt (by rw [hextent])⟩
  refine ⟨⟨xs.filterMap Lexeme.token?, _, htokens, rfl, fun t ht => ?_⟩, fun t ht hne => ?_, ?_,
    fun pre b post hpre => ?_⟩
  · obtain ⟨before, word, rest, -, ht⟩ := hspelled t ht
    exact ht.spells.ne_endOfInput
  · rw [htokens] at ht
    rcases List.mem_append.1 ht with ht | ht
    · exact hspelled t ht
    · rw [List.mem_singleton.1 ht] at hne
      exact absurd rfl hne
  · rw [hplaced]
    exact List.pairwise_map.2 (hxs.pairwise_placed.imp And.right)
  · rw [hplaced]
    refine (hxs.octet_cases hclean hpre).imp ?_ (Or.imp id ?_)
    · rintro ⟨x, hx, hkind, hcovers⟩
      obtain ⟨k, hk⟩ := Option.ne_none_iff_exists'.1 hkind
      have hp : (⟨k, x.extent.span⟩, x.extent) ∈ placedTokens xs (octets text.toList) :=
        mem_placedTokens.2 (.inl ⟨x, hx, hk, rfl, rfl⟩)
      exact ⟨_, List.mem_map_of_mem hp, hcovers⟩
    · rintro ⟨x, hx, hkind, hcomment, hbefore, hupTo⟩
      refine ⟨x.extent, hcomment, hbefore, hupTo, fun t ht => ?_⟩
      obtain ⟨p, hp, rfl⟩ := List.mem_map.1 ht
      exact hxs.apart_of_mem hx hkind hp

/-- A text with a comment, numbers next to letters, escapes and characters of several octets. -/
def mixedListing : String := "x=007// ä\nwait 12ab\r\nprint \"\\t\\\"é//\""

/-- A text in which nothing is wrong. -/
theorem lex_lossless_mixedListing :
    (lex mixedListing).errors = [] ∧ (lex mixedListing).IsLossless mixedListing.toList :=
  have hclean : (lex mixedListing).errors = [] := by decide +kernel
  ⟨hclean, lex_lossless hclean⟩

end StickerBot.Listing
