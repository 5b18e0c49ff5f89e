import StickerBot.Proofs.Listing.Spelling
set_option autoImplicit false

/-!
# Clippings of a text

In a text with nothing wrong, the tokens from one to another can be cut out of it: the characters
from the beginning of the first to the end of the last have the same tokens on their own. If no line
ends among these tokens, the clipping is on one line, and its span is that of the first token merged
with that of the last.

## Main definitions

* `Listing.Tokenizes` — characters behind others, and the tokens among them with their spans.
* `Listing.placeBehind` — where characters end.
* `Listing.StandsFrom` — tokens on the lines after one another, from a line on.

## Main results

* `Listing.exists_tokenizes` — the tokens of a text with no errors.
* `Listing.Tokenizes.split` — characters are cut at the end of a token.
* `Listing.Tokenizes.standsFrom` — a token is on the line after those that end before it.
* `Listing.Tokenizes.exists_clipping` — tokens on one line are cut out of it.
-/

namespace StickerBot.Listing

/-! ### Characters and their tokens -/

/-- **Tokens among characters** that stand behind others. Nothing is wrong with the characters, and
the tokens have the spans of their extents. -/
inductive Tokenizes : List Char → List Char → List Token → Prop where
  | done (before : List Char) : Tokenizes before [] []
  | gap {before word rest : List Char} {ts : List Token}
    (h : IsLexeme (octets before) word rest none []) (hrest : Tokenizes (before ++ word) rest ts) :
    Tokenizes before (word ++ rest) ts
  | token {before word rest : List Char} {k : TokenKind} {ts : List Token}
    (h : IsLexeme (octets before) word rest (some k) [])
    (hrest : Tokenizes (before ++ word) rest ts) :
    Tokenizes before (word ++ rest) (⟨k, (Extent.mk (octets before) (octets word)).span⟩ :: ts)

/-- Lexemes with nothing wrong that go up to the end of the characters have their tokens.

**Proof sketch.** By induction on the lexemes. A stray character has an error, and so there is none;
what is left in each case is a lexeme with a token, or one without. -/
lemma Cuts.tokenizes {bs stop : List UInt8} {cs : List Char} {xs : List Lexeme}
    (h : Cuts bs cs xs stop) (hclean : ∀ x ∈ xs, x.errors = []) (hstop : stop = bs ++ octets cs) :
    ∀ before, bs = octets before → Tokenizes before cs (xs.filterMap Lexeme.token?) := by
  have hstray : ∀ {bs ds : List UInt8}, ds ≠ [] →
      ¬ ∀ x ∈ Lexeme.strays bs ds, x.errors = [] := by
    intro bs ds hds hall
    obtain ⟨d, ds, rfl⟩ := List.exists_cons_of_ne_nil hds
    simpa [Lexeme.stray] using hall _ (List.mem_cons_self ..)
  induction h with
  | stop bs cs =>
    intro before _
    have hnone : octets cs = [] := by simpa using hstop
    cases cs with
    | nil => exact .done before
    | cons c cs => simp [String.utf8EncodeChar_ne_nil] at hnone
  | @lexeme bs _ word rest k? errors xs h _ ih =>
    rintro before rfl
    obtain ⟨herrors, hxs⟩ := List.forall_mem_cons.1 hclean
    obtain rfl : errors = [] := herrors
    have hrest := ih hxs (by rw [hstop, octets_append, List.append_assoc]) (before ++ word)
      (octets_append ..).symm
    cases k? with
    | none => exact .gap h hrest
    | some k => exact .token h hrest
  | stray =>
    exact absurd (fun x hx => hclean x (List.mem_append_left _ hx))
      (hstray String.utf8EncodeChar_ne_nil)
  | @strayPart bs c ds cs _ _ =>
    refine absurd hclean (hstray fun hds => ?_)
    simp [hds, String.utf8EncodeChar_ne_nil] at hstop

/-- **The tokens of a text** with no lexical errors, but for the end of the input. -/
theorem exists_tokenizes {text : String} (h : (lex text).errors = []) :
    ∃ ts, Tokenizes [] text.toList ts ∧
      (lex text).tokens = ts ++ [⟨.endOfInput, (Extent.mk (octets text.toList) []).span⟩] := by
  obtain ⟨xs, hxs, hclean, htokens⟩ := exists_cuts_of_clean h
  exact ⟨_, hxs.tokenizes hclean rfl [] rfl, htokens⟩

/-! ### Cutting -/

/-- What stops in front of characters stops in front of the first of them. -/
lemma Stops.of_append {p : Char → Bool} {rest after : List Char} (h : Stops p (rest ++ after)) :
    Stops p rest := by
  cases rest with
  | nil => exact fun c hc => by simp at hc
  | cons c rest => exact h

/-- A lexeme with nothing wrong is one as well if less follows it. -/
lemma IsLexeme.of_append {before : List UInt8} {word rest after : List Char}
    {k? : Option TokenKind} (h : IsLexeme before word (rest ++ after) k? []) :
    IsLexeme before word rest k? [] := by
  cases h with
  | blank h => exact .blank h
  | comment hbody hrest => exact .comment hbody hrest.of_append
  | mark h => exact .mark h
  | word hc hcs hrest => exact .word hc hcs hrest.of_append
  | number hcs hrest hfits => exact .number hcs hrest.of_append hfits
  | literal h => exact .literal (h.of_clean rfl rest)

/-- A lexeme with nothing wrong has a line break in it exactly if it is the end of a line. -/
lemma IsLexeme.newline_mem_iff {before : List UInt8} {word rest : List Char}
    {k? : Option TokenKind} (h : IsLexeme before word rest k? []) :
    '\n' ∈ word ↔ k? = some .newline := by
  constructor
  · intro hmem
    obtain rfl := h.of_newline_mem hmem
    cases h with
    | blank h => exact absurd h (by decide)
    | mark h => exact h.symm
    | word hc => exact absurd hc (by decide)
    | number hcs => exact absurd (hcs _ (List.mem_singleton_self _)) (by decide)
  · rintro rfl
    cases h.spells with
    | fixed hs =>
      obtain rfl := Option.some.inj hs
      exact List.mem_singleton_self _

/-! ### Places on a line -/

/-- **Behind characters**: the line and the column. -/
def placeBehind (before : List Char) : Position := Position.behind (octets before)

/-- The line of a place is one more than the line breaks before it, for only these lead to the next
line. -/
lemma line_placeBehind (before : List Char) :
    (placeBehind before).line = 1 + before.count '\n' := by
  rw [placeBehind, Position.behind, count_octets]

/-- Characters without a line break lead further on their line. -/
lemma placeBehind_append {cs : List Char} (h : '\n' ∉ cs) (before : List Char) :
    placeBehind (before ++ cs) = (placeBehind before).advance (octets cs).length := by
  rw [placeBehind, octets_append, Position.behind_append_of_not_mem]
  · rfl
  · rwa [lineBreak_mem_octets_iff]

/-- The span of characters without a line break goes from their beginning to their end. -/
lemma span_eq_of_not_mem {cs : List Char} (h : '\n' ∉ cs) (before : List Char) :
    (Extent.mk (octets before) (octets cs)).span = ⟨(placeBehind before).line,
      (placeBehind before).column, (placeBehind (before ++ cs)).column⟩ := by
  have hbreak : lineBreak ∉ octets cs := fun hmem => h (lineBreak_mem_octets_iff.1 hmem)
  rw [Extent.span_of_not_runsOver fun hover => hbreak hover.1, placeBehind_append h]
  rfl

/-! ### Lines of tokens -/

/-- Whether a token is the end of a line. -/
def isBreak (t : Token) : Bool := t.kind = .newline

/-- **Standing on lines**, from one with a number on: a token is as many lines further as tokens
before it end lines. -/
def StandsFrom (n : Nat) (ts : List Token) : Prop :=
  ∀ (pre : List Token) (t : Token) (post : List Token), ts = pre ++ t :: post →
    t.span.line = n + pre.countP isBreak

namespace StandsFrom

variable {n : Nat} {ts us : List Token}

/-- The first token stands on the line from which the tokens are counted. -/
lemma head {t : Token} (h : StandsFrom n (t :: ts)) : t.span.line = n := h [] t ts rfl

/-- Tokens that stand on lines stand there whatever comes after them. -/
lemma left (h : StandsFrom n (ts ++ us)) : StandsFrom n ts := by
  rintro pre t post rfl
  exact h pre t (post ++ us) (by simp)

/-- What comes behind tokens that stand on lines stands as many lines further as they end. -/
lemma right (h : StandsFrom n (ts ++ us)) : StandsFrom (n + ts.countP isBreak) us := by
  rintro pre t post rfl
  rw [h (ts ++ pre) t post (by simp), List.countP_append, Nat.add_assoc]

/-- If none of the tokens ends a line, they are all on one. -/
lemma line_eq (h : StandsFrom n ts) (hline : ∀ t ∈ ts, t.kind ≠ .newline) :
    ∀ t ∈ ts, t.span.line = n := by
  intro t ht
  obtain ⟨pre, post, rfl⟩ := List.append_of_mem ht
  have hnone : pre.countP isBreak = 0 := List.countP_eq_zero.2 fun u hu => by
    simpa [isBreak] using hline u (List.mem_append_left _ hu)
  rw [h pre t post rfl, hnone, Nat.add_zero]

end StandsFrom

/-! ### Cutting -/

namespace Tokenizes

variable {before cs : List Char} {ts : List Token}

/-- **Cutting.** Characters are cut at the end of one of their tokens.

**Proof sketch.** By induction on the tokens. Nothing is cut inside of a lexeme, since the pieces
end where a token ends; a lexeme stays one when only what follows it is cut away. -/
theorem split {g post : List Token} (h : Tokenizes before cs (g ++ post)) :
    ∃ piece rest, cs = piece ++ rest ∧ Tokenizes before piece g ∧
      Tokenizes (before ++ piece) rest post ∧
      ∀ last ∈ g.getLast?, last.kind ≠ .newline →
        last.span.endColumn = (placeBehind (before ++ piece)).column := by
  generalize hts : g ++ post = ts at h
  induction h generalizing g with
  | done before =>
    obtain ⟨rfl, rfl⟩ := List.append_eq_nil_iff.1 hts
    exact ⟨[], [], rfl, .done before, by rw [List.append_nil]; exact .done before, by simp⟩
  | @gap before word rest ts h hrest ih =>
    cases g with
    | nil =>
      obtain rfl : post = ts := hts
      exact ⟨[], word ++ rest, rfl, .done before, by rw [List.append_nil]; exact .gap h hrest,
        by simp⟩
    | cons t g =>
      obtain ⟨piece, rest', rfl, hpiece, hrest', hlast⟩ := ih hts
      rw [List.append_assoc] at hrest' hlast
      exact ⟨word ++ piece, rest', (List.append_assoc ..).symm, .gap h.of_append hpiece, hrest',
        hlast⟩
  | @token before word rest k ts h hrest ih =>
    cases g with
    | nil =>
      obtain rfl : post = _ := hts
      exact ⟨[], word ++ rest, rfl, .done before, by rw [List.append_nil]; exact .token h hrest,
        by simp⟩
    | cons t g =>
      obtain ⟨rfl, htail⟩ := List.cons.inj hts
      cases g with
      | nil =>
        obtain rfl : post = ts := htail
        have hword : IsLexeme (octets before) word ([] ++ rest) (some k) [] := h
        have hone := Tokenizes.token hword.of_append (.done (before ++ word))
        rw [List.append_nil] at hone
        refine ⟨word, rest, rfl, hone, hrest, fun last hmem hk => ?_⟩
        rw [List.getLast?_singleton] at hmem
        obtain rfl := Option.some.inj hmem
        have hbreak : '\n' ∉ word := fun hmem => hk (Option.some.inj (h.newline_mem_iff.1 hmem))
        rw [span_eq_of_not_mem hbreak]
      | cons u g =>
        obtain ⟨piece, rest', rfl, hpiece, hrest', hlast⟩ := ih htail
        rw [List.append_assoc] at hrest' hlast
        exact ⟨word ++ piece, rest', (List.append_assoc ..).symm, .token h.of_append hpiece, hrest',
          hlast⟩

/-- The first token stands behind characters that belong to no token. There is no line break in
between, because a line break is a token of its own. So the token begins on the line, and at the
column, that these characters lead to. -/
lemma exists_head {t : Token} (h : Tokenizes before cs (t :: ts)) :
    ∃ gap rest, cs = gap ++ rest ∧ Tokenizes (before ++ gap) rest (t :: ts) ∧ '\n' ∉ gap ∧
      t.span.line = (placeBehind (before ++ gap)).line ∧
      t.span.column = (placeBehind (before ++ gap)).column := by
  generalize hts : t :: ts = us at h
  induction h with
  | done => simp at hts
  | @gap before word rest us h hrest ih =>
    obtain ⟨gap, rest', rfl, hrest', hgap, hline, hcolumn⟩ := ih hts
    have hword : '\n' ∉ word := fun hmem => by simpa using h.newline_mem_iff.1 hmem
    rw [List.append_assoc] at hrest' hline hcolumn
    exact ⟨word ++ gap, rest', (List.append_assoc ..).symm, hrest', by simp [hword, hgap], hline,
      hcolumn⟩
  | @token before word rest k us h hrest ih =>
    obtain ⟨rfl, rfl⟩ := List.cons.inj hts
    refine ⟨[], word ++ rest, rfl, ?_, List.not_mem_nil, ?_, ?_⟩
    · rw [List.append_nil]
      exact .token h hrest
    · rw [List.append_nil, Extent.span_of_not_runsOver h.not_runsOver]
      rfl
    · rw [List.append_nil, Extent.column_span]
      rfl

/-! ### Lines -/

/-- There are as many line breaks as tokens that end lines. -/
lemma count_newline (h : Tokenizes before cs ts) : cs.count '\n' = ts.countP isBreak := by
  induction h with
  | done => rfl
  | gap h _ ih =>
    have hword : '\n' ∉ _ := fun hmem => by simpa using h.newline_mem_iff.1 hmem
    rw [List.count_append, ih, List.count_eq_zero.2 hword, Nat.zero_add]
  | @token before word rest k ts h _ ih =>
    rw [List.count_append, ih, List.countP_cons, Nat.add_comm]
    congr 1
    by_cases hk : k = .newline
    · have hmem : '\n' ∈ word := h.newline_mem_iff.2 (congrArg some hk)
      rw [h.of_newline_mem hmem, hk]
      rfl
    · have hword : '\n' ∉ word := fun hmem => hk (Option.some.inj (h.newline_mem_iff.1 hmem))
      rw [List.count_eq_zero.2 hword, if_neg (by simpa [isBreak] using hk)]

/-- **Lines.** The tokens stand on the lines from the one on where the characters begin. -/
theorem standsFrom (h : Tokenizes before cs ts) : StandsFrom (placeBehind before).line ts := by
  rintro pre t post rfl
  obtain ⟨piece, rest, rfl, hpiece, hrest, -⟩ := h.split
  obtain ⟨gap, rest', -, -, hgap, hline, -⟩ := hrest.exists_head
  rw [hline, line_placeBehind, line_placeBehind, List.count_append, List.count_append,
    List.count_eq_zero.2 hgap, hpiece.count_newline, Nat.add_zero, Nat.add_assoc]

/-- On one line, tokens are between the beginning and the end of the characters. Without line breaks
the column grows with each lexeme by its length, so that a token begins not before the first of the
characters, and does not end behind the last. -/
lemma columns (h : Tokenizes before cs ts) (hcs : '\n' ∉ cs) : ∀ t ∈ ts,
    t.span.line = (placeBehind before).line ∧ (placeBehind before).column ≤ t.span.column ∧
      t.span.endColumn ≤ (placeBehind (before ++ cs)).column := by
  induction h with
  | done => simp
  | @gap before word rest ts h _ ih =>
    rw [List.mem_append, not_or] at hcs
    have hword := placeBehind_append hcs.1 before
    intro t ht
    obtain ⟨hline, hcolumn, hend⟩ := ih hcs.2 t ht
    rw [hword] at hline hcolumn
    rw [List.append_assoc] at hend
    exact ⟨hline, Nat.le_trans (Nat.le_add_right ..) hcolumn, hend⟩
  | @token before word rest k ts h _ ih =>
    rw [List.mem_append, not_or] at hcs
    have hword := placeBehind_append hcs.1 before
    have hrest := placeBehind_append hcs.2 (before ++ word)
    rw [List.append_assoc] at hrest
    refine List.forall_mem_cons.2 ⟨?_, fun t ht => ?_⟩
    · rw [span_eq_of_not_mem hcs.1, hrest]
      exact ⟨rfl, Nat.le_refl _, Nat.le_add_right ..⟩
    · obtain ⟨hline, hcolumn, hend⟩ := ih hcs.2 t ht
      rw [hword] at hline hcolumn
      rw [List.append_assoc] at hend
      exact ⟨hline, Nat.le_trans (Nat.le_add_right ..) hcolumn, hend⟩

/-- **Clippings.** Tokens with no end of a line among them are cut out of the line on which they
stand: the characters from the beginning of the first to the end of the last have these tokens, and
their span is that of the first merged with that of the last. -/
theorem exists_clipping {pre g post : List Token} {t last : Token}
    (h : Tokenizes before cs (pre ++ (t :: g ++ post))) (hlast : last ∈ (t :: g).getLast?)
    (hline : ∀ u ∈ t :: g, u.kind ≠ .newline) :
    ∃ front piece rest, cs = front ++ (piece ++ rest) ∧
      Tokenizes (before ++ front) piece (t :: g) ∧ '\n' ∉ piece ∧
      t.span.merge last.span = (Extent.mk (octets (before ++ front)) (octets piece)).span := by
  obtain ⟨skipped, behind, rfl, -, hbehind, -⟩ := h.split
  obtain ⟨whole, rest, rfl, hwhole, -, hend⟩ := hbehind.split
  obtain ⟨gap, piece, rfl, hpiece, -, -, hcolumn⟩ := hwhole.exists_head
  have hmem := List.mem_of_getLast? hlast
  have hbreak : '\n' ∉ piece := by
    rw [← List.count_eq_zero, hpiece.count_newline, List.countP_eq_zero]
    exact fun u hu => by simpa [isBreak] using hline u hu
  obtain ⟨htline, -, htend⟩ := hpiece.columns hbreak t List.mem_cons_self
  obtain ⟨hlline, hlcolumn, -⟩ := hpiece.columns hbreak last hmem
  have hlend := hend last hlast (hline last hmem)
  rw [← List.append_assoc] at hlend
  refine ⟨skipped ++ gap, piece, rest, by simp only [List.append_assoc], ?_, hbreak, ?_⟩
  · rwa [← List.append_assoc]
  · rw [← List.append_assoc, span_eq_of_not_mem hbreak, Span.merge,
      if_pos (htline.trans hlline.symm), htline, hcolumn, hlend, Nat.min_eq_left hlcolumn,
      Nat.max_eq_right htend]

end Tokenizes

/-- In a text with no lexical errors the tokens stand on the lines from the first one on. -/
theorem standsFrom_lex {text : String} (h : (lex text).errors = []) :
    StandsFrom 1 (lex text).tokens := by
  obtain ⟨ts, hts, htokens⟩ := exists_tokenizes h
  rw [htokens]
  intro pre t post heq
  rcases List.eq_nil_or_concat post with rfl | ⟨post, last, rfl⟩
  · obtain ⟨rfl, hlast⟩ := List.append_inj' heq rfl
    obtain rfl := List.singleton_inj.1 hlast
    change (Extent.mk (octets text.toList) (octets [])).span.line = _
    rw [span_eq_of_not_mem List.not_mem_nil, line_placeBehind, hts.count_newline]
  · rw [List.concat_eq_append, ← List.cons_append, ← List.append_assoc] at heq
    obtain ⟨rfl, -⟩ := List.append_inj' heq rfl
    exact hts.standsFrom pre t post rfl

end StickerBot.Listing
