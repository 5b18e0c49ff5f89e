import StickerBot.Proofs.Listing.Lexemes
set_option autoImplicit false

/-!
# Positions of tokens and errors

Every token and every lexical error of a text, good or not, has the span of a piece of the text: a
token of its lexeme, an error of what had been read of one when it was noticed. The tokens stand in
the order of the text and do not overlap, and the span of each lies on the line on which the token
begins and cuts the token out of that line. There is one exception: behind a backslash a line break
does not end a string literal, and a literal with one in it goes on on the next line. Its span is on
the line where it ends, from the column where it began on another line, and the errors in it noticed
behind the line break have such spans too.

## Main definitions

* `Listing.Token.StandsAt`, `Listing.ErrorAt` — tokens and errors in the text.
* `Listing.placedTokens` — the tokens among lexemes, each with its extent.

## Main results

* `Listing.lex_positions` — where the tokens and errors of a text stand.
* `Listing.backward_span` — a literal that begins behind the column where it ends.
-/

namespace StickerBot.Listing

/-- **A token in a text.** It has the span of its extent, which is on the line where the token
begins unless a line break behind a backslash lets a string literal run over. -/
structure Token.StandsAt (t : Token) (bs : List UInt8) (s : Extent) : Prop where
  isIn : s.IsIn bs
  span : t.span = s.span
  isAt_iff : s.IsAt bs t.span ↔ ¬ s.RunsOver
  runsOver : s.RunsOver → (∃ text, t.kind = .string text) ∧
    ∃ body, s.inside = octets ('"' :: body) ∧ ['\\', '\n'] <:+: body

/-- **An error in a text.** It has the span of what was read of a token when it was noticed, or of a
single octet, which is on the line where the token begins unless the token had run over. -/
structure ErrorAt (d : Diagnostic) (bs : List UInt8) (tokens : List Extent) (s : Extent) :
    Prop where
  isIn : s.IsIn bs
  diagnosed : ∃ e : LexError, d = e.diagnose s.span
  isAt_iff : s.IsAt bs s.span ↔ ¬ s.RunsOver
  of_token : (∃ b, s.inside = [b]) ∨ ∃ t ∈ tokens, s.before = t.before ∧ s.inside <+: t.inside

/-! ### Lexemes that run over -/

/-- What is wrong with a string literal is shown with the beginning of it. -/
lemma Quoted.of_mem_errors {before : List UInt8} {read body rest text : List Char}
    {errors : List (LexError × Extent)} (h : Quoted before read body rest text errors) :
    ∀ e ∈ errors, e.2.before = before ∧ e.2.inside <+: octets (read ++ body) := by
  induction h with
  | closed => simp
  | unterminated => simp
  | cut => simp
  | plain _ _ ih => simpa using ih
  | escaped _ _ ih => simpa using ih
  | @unknown c read body _ _ _ _ _ ih =>
    refine List.forall_mem_cons.2 ⟨⟨rfl, ?_⟩, fun e he => ?_⟩
    · have htake := (List.take_prefix 1 (String.utf8EncodeChar c)).trans
        (List.prefix_append _ (octets body))
      simpa using htake
    · simpa using ih e he

/-- In a string literal a line break stands only behind a backslash. By induction on the literal: no
character stands for a line break itself, since the literal would end there without a quote. -/
lemma Quoted.escaped_lineBreak {before : List UInt8} {read body rest text : List Char}
    {errors : List (LexError × Extent)} (h : Quoted before read body rest text errors)
    (hbreak : '\n' ∈ body) : ['\\', '\n'] <:+: body := by
  induction h with
  | closed => simp at hbreak
  | unterminated => simp at hbreak
  | cut => simp at hbreak
  | plain hc _ ih =>
    exact (ih ((List.mem_cons.1 hbreak).resolve_left (Ne.symm hc.2.2))).trans
      (List.suffix_cons _ _).isInfix
  | @escaped c d read body rest text errors hc _ ih =>
    have hne : '\n' ≠ c := fun heq => by simp [← heq, unescape?] at hc
    have hbody : '\n' ∈ body := by simpa [hne] using hbreak
    exact (ih hbody).trans (List.suffix_append ['\\', c] body).isInfix
  | @unknown c read body rest text errors hc _ ih =>
    by_cases hne : '\n' = c
    · exact ⟨[], body, by rw [← hne]; rfl⟩
    · have hbody : '\n' ∈ body := by simpa [hne] using hbreak
      exact (ih hbody).trans (List.suffix_append ['\\', c] body).isInfix

namespace IsLexeme

variable {before : List UInt8} {word rest : List Char} {k? : Option TokenKind}
  {errors : List (LexError × Extent)}

/-- What is wrong with a lexeme is shown with the beginning of it. -/
lemma of_mem_errors (h : IsLexeme before word rest k? errors) :
    ∀ e ∈ errors, e.2.before = before ∧ e.2.inside <+: octets word := by
  cases h with
  | hugeNumber => simp
  | literal h => exact h.of_mem_errors
  | _ => simp

/-- Only tokens have something wrong with them. -/
lemma exists_kind (h : IsLexeme before word rest k? errors) (he : errors ≠ []) :
    ∃ k, k? = some k := by
  cases h with
  | blank => exact absurd rfl he
  | comment => exact absurd rfl he
  | _ => exact ⟨_, rfl⟩

/-- The only lexemes with a line break in them are line breaks and string literals. -/
lemma of_mem_lineBreak (h : IsLexeme before word rest k? errors) (hbreak : '\n' ∈ word) :
    word = ['\n'] ∨ (∃ text, k? = some (.string text)) ∧
      ∃ body, word = '"' :: body ∧ ['\\', '\n'] <:+: body := by
  cases h with
  | blank h =>
    rw [← List.mem_singleton.1 hbreak] at h
    exact absurd h (by decide)
  | comment hbody => simp [hbody] at hbreak
  | mark => exact .inl (congrArg (fun c => [c]) (List.mem_singleton.1 hbreak).symm)
  | word hc hcs => exact absurd (continuesWord_of_startsWord hc hcs _ hbreak) (by decide)
  | number hcs => exact absurd (hcs _ hbreak) (by decide)
  | hugeNumber hcs => exact absurd (hcs _ hbreak) (by decide)
  | literal h =>
    refine .inr ⟨⟨_, rfl⟩, _, rfl, h.escaped_lineBreak ?_⟩
    simpa using hbreak

end IsLexeme

/-! ### The lexemes of a text -/

section Cuts

variable {cs : List Char} {xs : List Lexeme} {stop : List UInt8} {x : Lexeme}

/-- Only string literals run over. -/
lemma Cuts.of_runsOver (h : Cuts [] cs xs stop) (hx : x ∈ xs) (hover : x.extent.RunsOver) :
    (∃ text, x.kind? = some (.string text)) ∧
      ∃ body, x.extent.inside = octets ('"' :: body) ∧ ['\\', '\n'] <:+: body := by
  obtain ⟨hmem, hne⟩ := hover
  rcases Cuts.of_mem hx h with ⟨before, b, rfl⟩ | ⟨pre, word, rest, -, hextent, hword⟩
  · exact absurd (congrArg (fun c => [c]) (List.mem_singleton.1 hmem).symm) hne
  · rw [hextent] at hmem hne
    rcases hword.of_mem_lineBreak (lineBreak_mem_octets_iff.1 hmem) with
      rfl | ⟨hk, body, rfl, hbody⟩
    · exact absurd rfl hne
    · exact ⟨hk, body, by rw [hextent], hbody⟩

/-- What is wrong with a lexeme is shown with the beginning of it. -/
lemma Cuts.of_mem_errors (h : Cuts [] cs xs stop) (hx : x ∈ xs) {e : LexError × Extent}
    (he : e ∈ x.errors) : e.2.before = x.extent.before ∧ e.2.inside <+: x.extent.inside := by
  rcases Cuts.of_mem hx h with ⟨before, b, rfl⟩ | ⟨pre, word, rest, -, hextent, hword⟩
  · obtain rfl := List.mem_singleton.1 he
    exact ⟨rfl, List.prefix_rfl⟩
  · have herrors := hword.of_mem_errors e he
    rwa [hextent] at herrors ⊢

/-- What is wrong with something is wrong with a single octet or a token. -/
lemma Cuts.exists_kind (h : Cuts [] cs xs stop) (hx : x ∈ xs) {e : LexError × Extent}
    (he : e ∈ x.errors) : (∃ b, e.2.inside = [b]) ∨ ∃ k, x.kind? = some k := by
  rcases Cuts.of_mem hx h with ⟨before, b, rfl⟩ | ⟨pre, word, rest, -, -, hword⟩
  · obtain rfl := List.mem_singleton.1 he
    exact .inl ⟨b, rfl⟩
  · exact .inr (hword.exists_kind (List.ne_nil_of_mem he))

end Cuts

/-! ### Tokens and errors -/

/-- The tokens among lexemes and the end of the input, each with its extent. -/
def placedTokens (xs : List Lexeme) (stop : List UInt8) : List (Token × Extent) :=
  (xs.filterMap fun x => x.token?.map fun t => (t, x.extent)) ++
    [(⟨.endOfInput, (Extent.mk stop []).span⟩, ⟨stop, []⟩)]

section Placed

variable {cs : List Char} {xs : List Lexeme} {stop : List UInt8}

/-- A token with its extent is one of a lexeme that is a token, or it is the end of the input behind
all of them. -/
lemma mem_placedTokens {p : Token × Extent} : p ∈ placedTokens xs stop ↔
    (∃ x ∈ xs, x.kind? = some p.1.kind ∧ p.1.span = x.extent.span ∧ p.2 = x.extent) ∨
      p = (⟨.endOfInput, (Extent.mk stop []).span⟩, ⟨stop, []⟩) := by
  rw [placedTokens, List.mem_append, List.mem_singleton, List.mem_filterMap]
  refine or_congr_left (exists_congr fun x => and_congr_right fun _ => ?_)
  obtain ⟨⟨k, a⟩, s⟩ := p
  simp only [Lexeme.token?, Option.map_map, Option.map_eq_some_iff, Function.comp_apply,
    Prod.mk.injEq, Token.mk.injEq]
  constructor
  · rintro ⟨k, hk, ⟨rfl, rfl⟩, rfl⟩
    exact ⟨hk, rfl, rfl⟩
  · rintro ⟨hk, rfl, rfl⟩
    exact ⟨k, hk, ⟨rfl, rfl⟩, rfl⟩

/-- Without the extents these are the tokens of the lexemes and the end of the input. -/
lemma map_placedTokens : (placedTokens xs stop).map Prod.fst =
    xs.filterMap Lexeme.token? ++ [⟨.endOfInput, (Extent.mk stop []).span⟩] := by
  rw [placedTokens, List.map_append, List.map_filterMap]
  simp [Function.comp_def]

/-- Where the tokens stand. -/
lemma Cuts.standsAt (h : Cuts [] cs xs stop) {p : Token × Extent}
    (hp : p ∈ placedTokens xs stop) : p.1.StandsAt (octets cs) p.2 := by
  have hstop : stop <+: octets cs := h.isPrefix
  rcases mem_placedTokens.1 hp with ⟨x, hx, hkind, hspan, hextent⟩ | rfl
  · have hin : x.extent.IsIn (octets cs) := (Chained.of_mem hx h.chained).2.trans hstop
    refine ⟨hextent ▸ hin, by rw [hspan, hextent], ?_, fun hover => ?_⟩
    · rw [hspan, hextent]
      exact Extent.isAt_span_iff hin
    · rw [hextent] at hover ⊢
      obtain ⟨⟨text, htext⟩, hbody⟩ := h.of_runsOver hx hover
      exact ⟨⟨text, Option.some.inj (hkind.symm.trans htext)⟩, hbody⟩
  · have hin : (Extent.mk stop []).IsIn (octets cs) := by
      rwa [Extent.IsIn, Extent.upTo, List.append_nil]
    exact ⟨hin, rfl, Extent.isAt_span_iff hin, fun hover => absurd hover.1 (by simp)⟩

/-- The order of the tokens. Lexemes follow one another, and so do those of them that are tokens,
with the end of the input behind them all; and extents in this order have spans in this order. -/
lemma Cuts.pairwise_placed (h : Cuts [] cs xs stop) :
    (placedTokens xs stop).Pairwise fun p q =>
      p.2.Precedes q.2 ∧ EndsBefore p.1.span q.1.span := by
  have hextent : ∀ {x : Lexeme} {p : Token × Extent},
      (x.token?.map fun t => (t, x.extent)) = some p → p.2 = x.extent := by
    intro x p hp
    obtain ⟨t, -, rfl⟩ := Option.map_eq_some_iff.1 hp
    rfl
  have hprecedes : (placedTokens xs stop).Pairwise fun p q => p.2.Precedes q.2 := by
    refine List.pairwise_append.2 ⟨?_, List.pairwise_singleton .., fun p hp q hq => ?_⟩
    · refine h.chained.pairwise.filterMap _ fun x y hxy p hp q hq => ?_
      rwa [hextent hp, hextent hq]
    · obtain rfl := List.mem_singleton.1 hq
      obtain ⟨x, hx, hp⟩ := List.mem_filterMap.1 hp
      rw [hextent hp]
      exact (Chained.of_mem hx h.chained).2
  refine hprecedes.imp_of_mem fun {p q} hp hq hpq => ⟨hpq, ?_⟩
  rw [(h.standsAt hp).span, (h.standsAt hq).span]
  exact Extent.span_endsBefore hpq

/-- Where the errors stand. -/
lemma Cuts.errorAt (h : Cuts [] cs xs stop) {d : Diagnostic}
    (hd : d ∈ xs.flatMap Lexeme.diagnostics) :
    ∃ s, ErrorAt d (octets cs) ((placedTokens xs stop).map Prod.snd) s := by
  obtain ⟨x, hx, hd⟩ := List.mem_flatMap.1 hd
  obtain ⟨e, he, rfl⟩ := List.mem_map.1 hd
  obtain ⟨hbefore, hinside⟩ := h.of_mem_errors hx he
  have hin : e.2.IsIn (octets cs) := by
    refine List.IsPrefix.trans ?_ ((Chained.of_mem hx h.chained).2.trans h.isPrefix)
    rw [Extent.upTo, Extent.upTo, hbefore, List.prefix_append_right_inj]
    exact hinside
  refine ⟨e.2, hin, ⟨e.1, rfl⟩, Extent.isAt_span_iff hin, (h.exists_kind hx he).imp id ?_⟩
  rintro ⟨k, hk⟩
  have hp : (⟨k, x.extent.span⟩, x.extent) ∈ placedTokens xs stop :=
    mem_placedTokens.2 (.inl ⟨x, hx, hk, rfl, rfl⟩)
  exact ⟨x.extent, List.mem_map_of_mem hp, hbefore, hinside⟩

end Placed

/-- **Positions.** A text is cut into lexemes. Those that are tokens are where the spans of the
tokens say, and no token begins before the one before it ends. Every lexical error is where its span
says, too. -/
theorem lex_positions (text : String) : ∃ xs stop, Cuts [] text.toList xs stop ∧
    (placedTokens xs stop).map Prod.fst = (lex text).tokens ∧
    (∀ p ∈ placedTokens xs stop, p.1.StandsAt (octets text.toList) p.2) ∧
    ((placedTokens xs stop).Pairwise fun p q =>
      p.2.Precedes q.2 ∧ EndsBefore p.1.span q.1.span) ∧
    ∀ d ∈ (lex text).errors, ∃ s,
      ErrorAt d (octets text.toList) ((placedTokens xs stop).map Prod.snd) s := by
  obtain ⟨xs, stop, hxs, htokens, herrors, -⟩ := lexFrom_spec .start text.toList []
    Position.behind_nil.symm
  refine ⟨xs, stop, hxs, ?_, fun p hp => hxs.standsAt hp, hxs.pairwise_placed, fun d hd => ?_⟩
  · rw [lex, htokens, map_placedTokens]
    rfl
  · rw [lex, herrors] at hd
    exact hxs.errorAt hd

/-- A string literal that goes on on the next line behind a backslash. -/
def brokenLiteral : String := "print \"ab\\\ncd\" 7"

/-- **Backwards.** The literal begins on the first line, in the seventh column, but its span is on
the second line and ends there in the fourth column. What is wrong with it ends in the first. -/
theorem backward_span :
    ⟨.string "ab\ncd", ⟨2, 7, 4⟩⟩ ∈ (lex brokenLiteral).tokens ∧
      (lex brokenLiteral).errors.map Diagnostic.span = [some ⟨2, 7, 1⟩] ∧
      ¬ ∀ t ∈ (lex brokenLiteral).tokens, t.span.column ≤ t.span.endColumn := by
  decide +kernel

end StickerBot.Listing
