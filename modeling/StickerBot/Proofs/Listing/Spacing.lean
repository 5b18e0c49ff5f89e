import StickerBot.Proofs.Listing.Acceptance
import StickerBot.Proofs.Listing.Clipping
set_option autoImplicit false

/-!
# Spacing

How the text of a program is laid out does not matter. Between its tokens may stand more blanks, in
front of the end of a line a comment, and in front of a line more lines with nothing but blanks and
a comment in them. Only in front of the brace that opens a loop may no line stand, if the brace is
on a line of its own. In particular a text may end its lines with a carriage return as well.

## Main definitions

* `Listing.ReadsAs` — characters in which nothing is wrong, and their tokens.
* `Listing.MoreLines` — tokens with more ends of lines among them.
* `Listing.SpacedOut` — a text laid out with more blanks, comments and lines.
* `Listing.crlf` — a text with carriage returns at the ends of its lines.

## Main results

* `Listing.exists_readsAs`, `Listing.lex_of_readsAs` — what the lexer finds in such characters.
* `Listing.Derives.moreLines` — more ends of lines leave the lines of a listing as they are.
* `Listing.SpacedOut.readsAs` — spacing out puts in ends of lines and no other tokens.
* `Listing.parseProgram_spacedOut` — a text that is spaced out has the same program.
-/

namespace StickerBot.Listing

/-! ### Characters in which nothing is wrong -/

/-- **Reading.** Characters that are lexemes with nothing wrong, one after the other, and the tokens
among them. -/
inductive ReadsAs : List Char → List TokenKind → Prop where
  | done : ReadsAs [] []
  | lexeme (before : List UInt8) {word rest : List Char} {k? : Option TokenKind}
    {ks : List TokenKind} (h : IsLexeme before word rest k? []) (hrest : ReadsAs rest ks) :
    ReadsAs (word ++ rest) (k?.toList ++ ks)

/-- The rest of a string literal with nothing wrong is read up to its quote. By induction on the
literal; three of its cases have errors and cannot occur. What the lexer keeps of the position does
not matter here, so the lemma only says that there is one. -/
lemma scanString_of_quoted {before : List UInt8} {read body rest text : List Char}
    {errors : List (LexError × Extent)} (h : Quoted before read body rest text errors)
    (hclean : errors = []) (column : Nat) (found : List Diagnostic) :
    ∀ (p : Position) (new : List Char), ∃ p',
      scanString column p new found (body ++ rest) = ⟨p', text.reverse ++ new, found, rest⟩ := by
  induction h with
  | closed read rest => exact fun p new => ⟨p.advance 1, by simp [scanString]⟩
  | unterminated => simp at hclean
  | cut => simp at hclean
  | @plain c _ _ _ _ _ hc _ ih =>
    intro p new
    obtain ⟨p', hp'⟩ := ih hclean (p.after c) (c :: new)
    refine ⟨p', ?_⟩
    rw [List.cons_append, scanString, if_neg hc.1, if_neg hc.2.2, hp']
    · simp
    · exact fun h _ => hc.2.1 h
    · exact fun _ _ h _ => hc.2.1 h
  | @escaped c d _ _ _ _ _ hc _ ih =>
    intro p new
    obtain ⟨p', hp'⟩ := ih hclean (p.advance 2) (d :: new)
    refine ⟨p', ?_⟩
    rw [List.cons_append, List.cons_append, scanString]
    simp [hc, hp']
  | unknown => simp at hclean

/-- The lexer takes a lexeme with nothing wrong off a text. One case for each kind of lexeme. A
comment is skipped up to the end of the line, a literal is scanned, and the others are shown
before. -/
lemma takes_lexeme {before : List UInt8} {word rest : List Char} {k? : Option TokenKind}
    (h : IsLexeme before word rest k? []) : Takes (word ++ rest) k?.toList rest := by
  cases h with
  | blank h => exact takes_of_isBlank h rest
  | @comment body _ hbody hrest =>
    intro l hl
    have hall : ∀ c ∈ '/' :: body, decide (c ≠ '\n') = true := fun c hc =>
      decide_eq_true fun h => hbody (List.mem_of_ne_of_mem (by decide) (h ▸ hc))
    obtain ⟨htake, hdrop⟩ := takeWhile_append hall hrest
    refine ⟨l.skip ('/' :: '/' :: body), hl, rfl, ?_⟩
    rw [List.cons_append, lexFrom, if_neg (not_isFull hl), if_neg (by decide),
      if_pos ⟨rfl, rfl⟩, htake, hdrop]
  | mark h => exact takes_mark h rest
  | word hc hcs hrest => exact takes_word hc hcs hrest
  | number hcs hrest hfits => exact takes_number hcs hrest hfits
  | @literal body _ text _ h =>
    intro l hl
    obtain ⟨p, hp⟩ := scanString_of_quoted h rfl l.position.column l.errors
      (l.position.advance 1) []
    refine ⟨l.pushString ⟨p, text.reverse, l.errors, rest⟩, hl, ?_, ?_⟩
    · simp [Lexer.pushString, Lexer.pushUpTo]
    · rw [List.cons_append, lexFrom, if_neg (not_isFull hl), if_neg (by decide),
        if_neg (by simp)]
      simp only [show mark? '"' = none from rfl, if_true, hp, List.append_nil]

/-- A text that reads as tokens is taken by the lexer from wherever it stands. -/
lemma ReadsAs.takes {cs : List Char} {ks : List TokenKind} (h : ReadsAs cs ks) :
    Takes cs ks [] := by
  induction h with
  | done => exact .refl []
  | lexeme _ h _ ih => exact (takes_lexeme h).trans ih

/-- **Reading a text.** If nothing is wrong with its characters, the lexer finds their tokens and no
errors. -/
theorem lex_of_readsAs {text : String} {ks : List TokenKind} (h : ReadsAs text.toList ks) :
    (lex text).errors = [] ∧ kinds (lex text).tokens = ks := by
  obtain ⟨hkinds, herrors⟩ := h.takes.lex
  refine ⟨herrors, ?_⟩
  rcases wellEnded_lex text with hnone | hended
  · simp [hnone] at hkinds
  · exact List.append_cancel_right (hended.symm.trans hkinds)

/-- Characters with their tokens are read as the kinds of these. -/
lemma Tokenizes.readsAs {before cs : List Char} {ts : List Token} (h : Tokenizes before cs ts) :
    ReadsAs cs (ts.map Token.kind) := by
  induction h with
  | done => exact .done
  | gap h _ ih => exact .lexeme _ h ih
  | token h _ ih => exact .lexeme _ h ih

/-- If the lexer finds no errors in a text, nothing is wrong with its characters. -/
theorem exists_readsAs {text : String} (h : (lex text).errors = []) :
    ∃ ks, ReadsAs text.toList ks := by
  obtain ⟨ts, hts, -⟩ := exists_tokenizes h
  exact ⟨_, hts.readsAs⟩

/-! ### More ends of lines -/

/-- A token that ends no line is no line break. -/
lemma ne_newline {k : TokenKind} (h : k.endsLine = false) : k ≠ .newline := by
  rintro rfl
  simp [TokenKind.endsLine] at h

/-- **More ends of lines**, at the beginnings of lines but those that begin with a brace. The flag
says whether the tokens begin a line. -/
inductive MoreLines : Bool → List TokenKind → List TokenKind → Prop where
  | done {fresh : Bool} : MoreLines fresh [] []
  | token {fresh : Bool} {k : TokenKind} {ks ks' : List TokenKind}
    (h : MoreLines (k = .newline) ks ks') : MoreLines fresh (k :: ks) (k :: ks')
  | newline {ks ks' : List TokenKind} (hks : ks.head? ≠ some .openBrace)
    (h : MoreLines true ks ks') : MoreLines true ks (.newline :: ks')

namespace MoreLines

variable {fresh : Bool} {ks ks' rest : List TokenKind}

/-- More ends of lines may stand in front of the first token. Without any token there are only
those. -/
lemma cases_head (h : MoreLines fresh ks ks') :
    (ks = [] ∧ ∃ n, ks' = newlines n) ∨ ∃ k rest rest' n, ks = k :: rest ∧
      ks' = newlines n ++ k :: rest' ∧ MoreLines (k = .newline) rest rest' := by
  induction h with
  | done => exact .inl ⟨rfl, 0, rfl⟩
  | @token _ k ks ks' h _ => exact .inr ⟨k, ks, ks', 0, rfl, rfl, h⟩
  | newline _ _ ih =>
    rcases ih with ⟨hks, n, rfl⟩ | ⟨k, rest, rest', n, hks, rfl, h⟩
    · exact .inl ⟨hks, n + 1, rfl⟩
    · exact .inr ⟨k, rest, rest', n + 1, hks, rfl, h⟩

/-- On a line that has begun there are no more ends of lines. -/
lemma append (hks : OnOneLine ks) (h : MoreLines false (ks ++ rest) ks') :
    ∃ rest', ks' = ks ++ rest' ∧ MoreLines false rest rest' := by
  induction ks generalizing ks' with
  | nil => exact ⟨ks', rfl, h⟩
  | cons k ks ih =>
    obtain ⟨hk, hks⟩ := onOneLine_cons.1 hks
    cases h with
    | token h =>
      rw [decide_eq_false (ne_newline hk)] at h
      obtain ⟨rest', rfl, hrest⟩ := ih hks h
      exact ⟨rest', rfl, hrest⟩

/-- Nor are there any in front of a brace. -/
lemma openBrace (h : MoreLines fresh (.openBrace :: rest) ks') :
    ∃ rest', ks' = .openBrace :: rest' ∧ MoreLines false rest rest' := by
  cases h with
  | token h => exact ⟨_, rfl, h⟩
  | newline hks => exact absurd rfl hks

/-- A line ends where it ended before. -/
lemma endsLine (h : MoreLines false ks ks') (hks : EndsLine ks) : EndsLine ks' := by
  cases h with
  | done => exact hks
  | token => exact endsLine_cons (hks _ rfl) _

end MoreLines

/-- In front of an instruction there may be more ends of lines, but there are none inside. The one
exception is the header of a loop with its brace on the next line: between the two there may be more
line breaks, and the parser takes only one of them. -/
lemma MoreLines.line {fresh : Bool} {ks rest ks' : List TokenKind} {i : Instruction}
    (hline : IsLine ks i) (h : MoreLines fresh (ks ++ rest) ks') :
    ∃ n rest', ks' = newlines n ++ (ks ++ rest') ∧ MoreLines false rest rest' := by
  obtain ⟨k, ks, rfl, hk⟩ := hline.exists_cons
  rcases h.cases_head with ⟨hnil, -⟩ | ⟨_, _, tail, n, hcons, rfl, htail⟩
  · simp at hnil
  rw [List.cons_append, List.cons.injEq] at hcons
  obtain ⟨rfl, rfl⟩ := hcons
  rw [decide_eq_false (ne_newline hk)] at htail
  rcases hline.onOneLine_or with hone | ⟨header, hheader, hks⟩
  · obtain ⟨rest', rfl, hrest⟩ := htail.append (onOneLine_cons.1 hone).2
    exact ⟨n, rest', rfl, hrest⟩
  · -- The header of a loop, and its brace on the next line.
    rw [List.cons.injEq] at hks
    obtain ⟨rfl, rfl⟩ := hks
    rw [List.append_assoc] at htail
    obtain ⟨rest₁, rfl, hrest₁⟩ := htail.append hheader
    cases hrest₁ with
    | token hbrace =>
      obtain ⟨rest', rfl, hrest⟩ := hbrace.openBrace
      exact ⟨n, rest', by simp, hrest⟩

/-- **The same lines.** More ends of lines leave the lines of a listing as they are.

**Proof sketch.** Induction on the derivation. What stands in front of a line is passed over. -/
theorem Derives.moreLines {ks : List TokenKind} {ls : List DerivedLine} (h : Derives ks ls) :
    ∀ {fresh : Bool} {ks' : List TokenKind}, MoreLines fresh ks ks' → Derives ks' ls := by
  induction h with
  | done =>
    intro fresh ks' h
    rcases h.cases_head with ⟨-, n, rfl⟩ | ⟨_, _, _, _, hks, -⟩
    · exact derives_newlines n
    · simp at hks
  | newline _ ih =>
    intro fresh ks' h
    rcases h.cases_head with ⟨hks, -⟩ | ⟨k, _, rest', n, hks, rfl, hrest⟩
    · simp at hks
    · obtain ⟨rfl, rfl⟩ := List.cons.inj hks
      exact (ih hrest).newline.newlines_append n
  | line hline hend _ ih =>
    intro fresh ks' h
    obtain ⟨n, rest', rfl, hrest⟩ := h.line hline
    exact (Derives.line hline (hrest.endsLine hend) (ih hrest)).newlines_append n

/-! ### Spacing out -/

/-- **Gaps.** What may stand on a line without a token: blanks, and a comment behind them. -/
inductive IsGap : List Char → Prop where
  | nil : IsGap []
  | blank {c : Char} {gap : List Char} (hc : isBlank c = true) (h : IsGap gap) : IsGap (c :: gap)
  | comment {body : List Char} (hbody : '\n' ∉ body) : IsGap ('/' :: '/' :: body)

/-- At most blanks are left on the line. -/
def LineEnds (cs : List Char) : Prop := Stops (· ≠ '\n') (cs.dropWhile isBlank)

/-- Whether a place behind a lexeme is at the beginning of a line, or behind nothing but blanks and
a comment there. -/
def startsLine (fresh : Bool) : Option TokenKind → Bool
  | none => fresh
  | some k => k = .newline

/-- **Spacing out.** Characters, and the same characters laid out with more blanks, comments and
lines. The flag says whether the characters begin a line, or stand behind nothing but blanks there.

The lexemes stay as they are, but what a comment says does not matter. Between two of them may be
put any blanks; where at most blanks are left on the line, a comment; and at the beginning of a line
that does not begin with the brace of a loop, a line with nothing but a gap in it. -/
inductive SpacedOut : Bool → List Char → List Char → Prop where
  | done {fresh : Bool} : SpacedOut fresh [] []
  /-- A lexeme that stays. -/
  | lexeme {fresh : Bool} (before : List UInt8) {word rest rest' : List Char}
    {k? : Option TokenKind} (h : IsLexeme before word rest k? [])
    (hrest : SpacedOut (startsLine fresh k?) rest rest') :
    SpacedOut fresh (word ++ rest) (word ++ rest')
  /-- A comment that may say something else. -/
  | comment {fresh : Bool} {body body' rest rest' : List Char} (hbody : '\n' ∉ body)
    (hstops : Stops (· ≠ '\n') rest) (hbody' : '\n' ∉ body') (hrest : SpacedOut fresh rest rest') :
    SpacedOut fresh ('/' :: '/' :: (body ++ rest)) ('/' :: '/' :: (body' ++ rest'))
  /-- One more blank. -/
  | moreBlank {fresh : Bool} {c : Char} {cs cs' : List Char} (hc : isBlank c = true)
    (h : SpacedOut fresh cs cs') : SpacedOut fresh cs (c :: cs')
  /-- One more comment at the end of a line, or of the text. -/
  | moreComment {fresh : Bool} (body : List Char) {cs cs' : List Char} (hbody : '\n' ∉ body)
    (hend : LineEnds cs) (h : SpacedOut fresh cs cs') :
    SpacedOut fresh cs ('/' :: '/' :: (body ++ cs'))
  /-- One more line with no token in it. -/
  | moreLine {gap cs cs' : List Char} (hgap : IsGap gap)
    (hline : (kinds (lex (String.ofList cs)).tokens).head? ≠ some .openBrace)
    (h : SpacedOut true cs cs') : SpacedOut true cs (gap ++ '\n' :: cs')

/-- A blank does not end a line. -/
lemma isBlank_ne_newline {c : Char} (h : isBlank c = true) : c ≠ '\n' := by
  rintro rfl
  exact absurd h (by decide)

/-- A comment goes up to the end of the line, whatever else there is on it. -/
lemma ReadsAs.comment {body cs : List Char} {ks : List TokenKind} (hbody : '\n' ∉ body)
    (h : ReadsAs (cs.dropWhile (· ≠ '\n')) ks) : ReadsAs ('/' :: '/' :: (body ++ cs)) ks := by
  obtain ⟨-, hline, hstops⟩ := taken_while (fun c => decide (c ≠ '\n')) '/' cs
  have hmem : '\n' ∉ body ++ cs.takeWhile (· ≠ '\n') := fun hmem => by
    rcases List.mem_append.1 hmem with hmem | hmem
    · exact hbody hmem
    · simpa using hline _ hmem
  have hall := ReadsAs.lexeme [] (.comment hmem hstops) h
  simpa using hall

namespace IsGap

variable {gap cs : List Char} {ks : List TokenKind}

/-- There is no line break in a gap: a comment goes up to the end of its line. -/
lemma newline_not_mem (h : IsGap gap) : '\n' ∉ gap := by
  induction h with
  | nil => simp
  | blank hc _ ih => simp [ih, Ne.symm (isBlank_ne_newline hc)]
  | comment hbody => simp [hbody]

/-- A gap holds no token. -/
lemma readsAs (hgap : IsGap gap) (h : ReadsAs ('\n' :: cs) ks) :
    ReadsAs (gap ++ '\n' :: cs) ks := by
  induction hgap with
  | nil => exact h
  | blank hc _ ih => exact .lexeme [] (.blank hc) ih
  | comment hbody => exact .comment hbody h

end IsGap

/-- What stands before the end of a line is blank, up to this end. -/
lemma LineEnds.of_cons {c : Char} {cs : List Char} (h : LineEnds (c :: cs)) :
    isBlank c = true ∧ LineEnds cs ∨ c = '\n' := by
  unfold LineEnds at h
  rw [List.dropWhile_cons] at h
  split at h
  · rename_i hc
    exact .inl ⟨hc, h⟩
  · exact .inr (by simpa using h c rfl)

/-- Nothing is left on a line that ends here. -/
lemma Stops.lineEnds {cs : List Char} (h : Stops (· ≠ '\n') cs) : LineEnds cs := by
  cases cs with
  | nil => exact h
  | cons c cs =>
    obtain rfl : c = '\n' := by simpa using h c rfl
    exact h

/-- What a blank begins is the blank. -/
lemma IsLexeme.of_isBlank {before : List UInt8} {c : Char} {cs rest : List Char}
    {k? : Option TokenKind} {errors : List (LexError × Extent)}
    (h : IsLexeme before (c :: cs) rest k? errors) (hc : isBlank c = true) :
    cs = [] ∧ k? = none := by
  cases h with
  | blank => exact ⟨rfl, rfl⟩
  | comment => exact absurd hc (by decide)
  | mark h =>
    unfold mark? at h
    split at h <;> first | exact absurd hc (by decide) | simp at h
  | word h => simp [(Listing.of_startsWord h).1] at hc
  | number h => simp [(Listing.of_isDigit (h _ (List.mem_cons_self ..))).1] at hc
  | hugeNumber h => simp [(Listing.of_isDigit (h _ (List.mem_cons_self ..))).1] at hc
  | literal => exact absurd hc (by decide)

/-- Up to the end of the line nothing is left of what holds no line break. -/
lemma dropWhile_line {line : List Char} (h : '\n' ∉ line) (cs : List Char) :
    (line ++ cs).dropWhile (· ≠ '\n') = cs.dropWhile (· ≠ '\n') :=
  List.dropWhile_append_of_pos fun _ hc => decide_eq_true fun heq => h (heq ▸ hc)

namespace SpacedOut

variable {fresh : Bool} {cs cs' : List Char}

/-- What is put in goes on with no word and no number. What can be put in front begins with a
blank, with the slash of a comment or with a line break, and otherwise the first character is
what it was. -/
lemma stops {p : Char → Bool} (hblank : ∀ c, isBlank c = true → p c = false)
    (hslash : p '/' = false) (hbreak : p '\n' = false) (h : SpacedOut fresh cs cs')
    (hstops : Stops p cs) : Stops p cs' := by
  cases h with
  | done => exact hstops
  | lexeme _ h =>
    obtain ⟨c, cs, rfl⟩ := h.exists_cons
    exact stops_cons (hstops c rfl) _
  | comment => exact stops_cons hslash _
  | moreBlank hc => exact stops_cons (hblank _ hc) _
  | moreComment => exact stops_cons hslash _
  | moreLine hgap =>
    cases hgap with
    | nil => exact stops_cons hbreak _
    | blank hc => exact stops_cons (hblank _ hc) _
    | comment => exact stops_cons hslash _

end SpacedOut

/-- A lexeme in front of characters that are spaced out. What follows a word or a number must not go
on with it. This is still so after spacing out, because blanks, comments and line breaks go on with
neither. -/
lemma IsLexeme.readsAs_spacedOut {before : List UInt8} {word rest rest' : List Char}
    {k? : Option TokenKind} (h : IsLexeme before word rest k? []) {fresh : Bool}
    (hrest : SpacedOut fresh rest rest') {ks : List TokenKind} (hks : ReadsAs rest' ks)
    (hend : LineEnds rest → ReadsAs (rest'.dropWhile (· ≠ '\n')) ks) :
    ReadsAs (word ++ rest') (k?.toList ++ ks) := by
  have hblank : ∀ c, isBlank c = true → continuesWord c = false ∧ c.isDigit = false := by
    intro c hc
    simp only [isBlank, decide_eq_true_eq] at hc
    rcases hc with rfl | rfl | rfl <;> exact ⟨rfl, rfl⟩
  cases h with
  | blank h => exact .lexeme before (.blank h) hks
  | comment hbody hstops => exact .comment hbody (hend hstops.lineEnds)
  | mark h => exact .lexeme before (.mark h) hks
  | word hc hcs hstops =>
    exact .lexeme before (.word hc hcs
      (hrest.stops (fun c hc => (hblank c hc).1) rfl rfl hstops)) hks
  | number hcs hstops hfits =>
    exact .lexeme before (.number hcs
      (hrest.stops (fun c hc => (hblank c hc).2) rfl rfl hstops) hfits) hks
  | literal h => exact .lexeme before (.literal (h.of_clean rfl rest')) hks

/-- **What is put in** are ends of lines, and no other tokens. They do not stand in front of a
brace.

**Proof sketch.** Induction on how the characters are laid out. A comment takes in what is put
behind it on its line, so besides the tokens of the characters those from the end of the line on are
kept, as long as there is no token before it. -/
theorem SpacedOut.readsAs {fresh : Bool} {cs cs' : List Char} (h : SpacedOut fresh cs cs') :
    ∃ ks ks', ReadsAs cs ks ∧ ReadsAs cs' ks' ∧ MoreLines fresh ks ks' ∧
      (LineEnds cs → ReadsAs (cs'.dropWhile (· ≠ '\n')) ks') := by
  induction h with
  | done => exact ⟨[], [], .done, .done, .done, fun _ => .done⟩
  | @lexeme fresh before word rest rest' k? h hrest ih =>
    obtain ⟨ks, ks', hks, hks', hmore, hend⟩ := ih
    have hword := h.readsAs_spacedOut hrest hks' hend
    refine ⟨_, _, .lexeme before h hks, hword, ?_, fun hline => ?_⟩
    · cases k? with
      | none => exact hmore
      | some k => exact .token hmore
    · obtain ⟨c, cs, rfl⟩ := h.exists_cons
      rcases hline.of_cons with ⟨hc, hline⟩ | rfl
      · obtain ⟨rfl, rfl⟩ := h.of_isBlank hc
        rw [dropWhile_line (by simpa using Ne.symm (isBlank_ne_newline hc))]
        exact hend hline
      · exact hword
  | comment hbody hstops hbody' hrest ih =>
    obtain ⟨ks, ks', hks, hks', hmore, hend⟩ := ih
    have hcomment := ReadsAs.lexeme [] (.comment hbody hstops) hks
    refine ⟨ks, ks', hcomment, .comment hbody' (hend hstops.lineEnds), hmore, fun hline => ?_⟩
    rcases hline.of_cons with ⟨hc, -⟩ | hc
    · exact absurd hc (by decide)
    · exact absurd hc (by decide)
  | @moreBlank fresh c cs cs' hc h ih =>
    obtain ⟨ks, ks', hks, hks', hmore, hend⟩ := ih
    refine ⟨ks, ks', hks, .lexeme [] (.blank hc) hks', hmore, fun hline => ?_⟩
    rw [← List.singleton_append,
      dropWhile_line (by simpa using Ne.symm (isBlank_ne_newline hc))]
    exact hend hline
  | moreComment body hbody hline h ih =>
    obtain ⟨ks, ks', hks, hks', hmore, hend⟩ := ih
    refine ⟨ks, ks', hks, .comment hbody (hend hline), hmore, fun _ => ?_⟩
    rw [← List.cons_append, ← List.cons_append, dropWhile_line (by simpa using hbody)]
    exact hend hline
  | @moreLine gap cs cs' hgap hline h ih =>
    obtain ⟨ks, ks', hks, hks', hmore, -⟩ := ih
    have hbreak : ReadsAs ('\n' :: cs') (.newline :: ks') :=
      .lexeme [] (.mark rfl) hks'
    have htext : ReadsAs (String.ofList cs).toList ks := by rwa [String.toList_ofList]
    have hfirst : ks.head? ≠ some .openBrace := by rwa [(lex_of_readsAs htext).2] at hline
    refine ⟨ks, .newline :: ks', hks, hgap.readsAs hbreak, .newline hfirst hmore, fun _ => ?_⟩
    rw [dropWhile_line hgap.newline_not_mem]
    exact hbreak

/-! ### Ends of lines -/

/-- The characters behind a place with a carriage return in front of each end of a line that has
none. The flag says whether there is one in front of the place. -/
def crlfFrom (behindReturn : Bool) : List Char → List Char
  | [] => []
  | c :: cs =>
    if c = '\n' ∧ ¬ behindReturn then '\r' :: '\n' :: crlfFrom false cs
    else c :: crlfFrom (c = '\r') cs

/-- **Ends of lines.** A text that ends each of its lines with a carriage return and a line
break. -/
def crlf (text : String) : String := String.ofList (crlfFrom false text.toList)

/-- Within a line nothing is put in. -/
lemma crlfFrom_append {word : List Char} (hword : '\n' ∉ word) (rest : List Char) :
    ∀ behindReturn, ∃ behindReturn',
      crlfFrom behindReturn (word ++ rest) = word ++ crlfFrom behindReturn' rest := by
  induction word with
  | nil => exact fun behindReturn => ⟨behindReturn, rfl⟩
  | cons c word ih =>
    intro behindReturn
    rw [List.mem_cons, not_or] at hword
    obtain ⟨behindReturn', hrest⟩ := ih hword.2 (c = '\r')
    refine ⟨behindReturn', ?_⟩
    rw [List.cons_append, crlfFrom, if_neg fun h => hword.1 h.1.symm, hrest, List.cons_append]

/-- Carriage returns at the ends of lines space a text out. -/
lemma ReadsAs.spacedOut_crlf {cs : List Char} {ks : List TokenKind} (h : ReadsAs cs ks) :
    ∀ fresh behindReturn, SpacedOut fresh cs (crlfFrom behindReturn cs) := by
  induction h with
  | done => exact fun _ _ => .done
  | @lexeme before word rest k? ks h _ ih =>
    intro fresh behindReturn
    by_cases hmem : '\n' ∈ word
    · obtain rfl := h.of_newline_mem hmem
      rw [List.singleton_append, crlfFrom]
      split
      · exact .moreBlank rfl (.lexeme before h (ih _ _))
      · exact .lexeme before h (ih _ _)
    · obtain ⟨behindReturn', hrest⟩ := crlfFrom_append hmem rest behindReturn
      rw [hrest]
      exact .lexeme before h (ih _ _)

/-! ### Programs -/

/-- **Layout does not matter.** If a text is accepted, so is every text that is laid out with more
blanks between its tokens, more comments at the ends of its lines, and more lines in front of its
lines, and it has the same program. So has the text with carriage returns at the ends of its lines.

**Proof sketch.** The tokens of the other text are the same but for more ends of lines, none of
which stands inside of the header of a loop, so they are derived by the same lines. -/
theorem parseProgram_spacedOut {text : String} {p : Program} (h : parseProgram text = .ok p) :
    (∀ text' : String, SpacedOut true text.toList text'.toList → parseProgram text' = .ok p) ∧
      parseProgram (crlf text) = .ok p := by
  obtain ⟨hlex, hparse, rfl⟩ := parseProgram_eq_ok_iff.1 h
  have hspaced : ∀ text' : String, SpacedOut true text.toList text'.toList →
      parseProgram text' =
        .ok (.ofInstructions ((parse (lex text).tokens).lines.map Prod.fst)) := by
    intro text' hspaced
    obtain ⟨ks, ks', hks, hks', hmore, -⟩ := hspaced.readsAs
    obtain ⟨-, hkinds⟩ := lex_of_readsAs hks
    obtain ⟨hlex', hkinds'⟩ := lex_of_readsAs hks'
    obtain ⟨ls, hls⟩ := (errors_parse_eq_nil_iff (wellEnded_lex text)).1 hparse
    have hls' : IsListing (kinds (lex text').tokens) ls := by
      rw [hkinds] at hls
      rw [hkinds', isListing_iff_derives]
      exact (isListing_iff_derives.1 hls).moreLines hmore
    obtain ⟨-, hlines⟩ := parse_of_wellEnded (wellEnded_lex text) hls
    obtain ⟨hparse', hlines'⟩ := parse_of_wellEnded (wellEnded_lex text') hls'
    exact parseProgram_eq_ok_iff.2 ⟨hlex', hparse', by rw [hlines, hlines']⟩
  refine ⟨hspaced, hspaced (crlf text) ?_⟩
  obtain ⟨ks, hks⟩ := exists_readsAs hlex
  rw [crlf, String.toList_ofList]
  exact hks.spacedOut_crlf true false

/-- A loop with nothing between its tokens that need not be there. -/
def tightLoop : String := "while a<2:\n\x7b\n\x7d"

/-- The same loop with comments, blanks and more lines. -/
def looseLoop : String := "// twice\n\twhile a <2: // or not\r\n \x7b\n  \r\n\x7d//"

/-- The program of both. -/
def loopProgram : Program := .ofInstructions [.loop (.below "a" 2), .close]

/-- The loose loop is the tight one spaced out. Line by line, from the last one to the first, since
each step says what is put in front of what is already spaced out. -/
lemma spacedOut_looseLoop : SpacedOut true tightLoop.toList looseLoop.toList := by
  have hmark : ∀ (c : Char) (k : TokenKind) {rest : List Char}, mark? c = some k →
      IsLexeme [] [c] rest (some k) [] := fun _ _ _ h => .mark h
  have hword : ∀ (c : Char) (cs : List Char) {rest : List Char}, startsWord c = true →
      cs.all continuesWord = true → Stops continuesWord rest →
      IsLexeme [] (c :: cs) rest (some (.ofWord (String.ofList (c :: cs)))) [] :=
    fun c cs _ hc hcs hrest => .word hc (List.all_eq_true.1 hcs) hrest
  have htwo : IsLexeme [] ['2'] [':', '\n', '\x7b', '\n', '\x7d'] (some (.integer 2)) [] :=
    .number (by simp) (stops_cons rfl _) (by decide +kernel)
  have hnone : LineEnds [] := fun _ hc => by simp at hc
  -- The closing brace, behind an empty line and in front of an empty comment.
  have hclose : SpacedOut true ['\x7d'] "  \r\n\x7d//".toList :=
    .moreLine (.blank rfl (.blank rfl (.blank rfl .nil))) (by decide +kernel)
      (.lexeme [] (hmark '\x7d' .closeBrace rfl) (.moreComment [] (by decide) hnone .done))
  -- The opening brace, behind a comment at the end of the header.
  have hopen : SpacedOut false ['\n', '\x7b', '\n', '\x7d']
      "// or not\r\n \x7b\n  \r\n\x7d//".toList :=
    .moreComment " or not".toList (by decide) (stops_cons (by decide) _) (.moreBlank rfl
      (.lexeme [] (hmark '\n' .newline rfl) (.moreBlank rfl
        (.lexeme [] (hmark '\x7b' .openBrace rfl)
          (.lexeme [] (hmark '\n' .newline rfl) hclose)))))
  -- The header, behind a line with a comment.
  have hheader : SpacedOut true tightLoop.toList
      "\twhile a <2: // or not\r\n \x7b\n  \r\n\x7d//".toList :=
    .moreBlank rfl (.lexeme [] (hword 'w' ['h', 'i', 'l', 'e'] rfl rfl (stops_cons rfl _))
      (.lexeme [] (.blank rfl) (.lexeme [] (hword 'a' [] rfl rfl (stops_cons rfl _))
        (.moreBlank rfl (.lexeme [] (hmark '<' .less rfl) (.lexeme [] htwo
          (.lexeme [] (hmark ':' .colon rfl) (.moreBlank rfl hopen))))))))
  have htwice : IsGap "// twice".toList := .comment (show '\n' ∉ " twice".toList by decide)
  exact .moreLine htwice (by decide +kernel) hheader

/-- The loose loop has the program of the tight one. -/
theorem parseProgram_spacedOut_looseLoop : parseProgram tightLoop = .ok loopProgram ∧
    SpacedOut true tightLoop.toList looseLoop.toList ∧ parseProgram looseLoop = .ok loopProgram ∧
    parseProgram (crlf tightLoop) = .ok loopProgram := by
  have h : parseProgram tightLoop = .ok loopProgram := by cbv
  have hboth := parseProgram_spacedOut h
  exact ⟨h, spacedOut_looseLoop, hboth.1 looseLoop spacedOut_looseLoop, hboth.2⟩

end StickerBot.Listing
