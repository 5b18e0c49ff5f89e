import StickerBot.Proofs.Listing.Passing
import StickerBot.Proofs.Listing.Spacing
set_option autoImplicit false

/-!
# Spans quote their instructions

If a text is assembled with no error, each instruction has a span, on a line after that of the span
before. An instruction that is on one line is quoted by its span: what stands there is assembled on
its own, to this instruction and no other. Only a loop may be on two lines, if its brace is on the
next one, and then its span is that of its first word.

## Main definitions

* `Listing.Divides` — tokens, and those of each instruction among them.
* `Listing.IsReadAs` — the tokens of an instruction, and its span.
* `Listing.Quotes`, `Listing.Locates` — what the span of an instruction says about it.

## Main results

* `Listing.Divides.unique` — tokens are divided in one way only.
* `Listing.isReadAs_of_line` — the span goes from the first token to the last.
* `Listing.exists_divides` — the parser divides the tokens, and reads each line that it finds.
* `Listing.Divides.line_lt` — the spans are on lines after one another.
* `Listing.spans_quote` — spans quote their instructions.
-/

namespace StickerBot.Listing

/-! ### Dividing -/

/-- **Dividing.** Tokens up to the end of the input, and the tokens of each instruction. Ends of
lines between instructions are passed over, and every instruction ends where a line ends. -/
inductive Divides : List Token → List (List Token) → Prop where
  | done : Divides [] []
  | stop {t : Token} (ts : List Token) (ht : t.kind = .endOfInput) : Divides (t :: ts) []
  | newline {t : Token} {ts : List Token} {gs : List (List Token)} (ht : t.kind = .newline)
    (hrest : Divides ts gs) : Divides (t :: ts) gs
  | line {g rest : List Token} {i : Instruction} {gs : List (List Token)}
    (hg : IsLine (g.map Token.kind) i) (hend : EndsLine (rest.map Token.kind))
    (hrest : Divides rest gs) : Divides (g ++ rest) (g :: gs)

/-- The tokens of an instruction stand among those that are divided. -/
lemma Divides.exists_append {ts g : List Token} {gs : List (List Token)} (h : Divides ts gs)
    (hg : g ∈ gs) : ∃ pre post, ts = pre ++ (g ++ post) := by
  induction h with
  | done => simp at hg
  | stop => simp at hg
  | @newline t ts gs _ _ ih =>
    obtain ⟨pre, post, rfl⟩ := ih hg
    exact ⟨t :: pre, post, rfl⟩
  | @line g' rest i gs _ _ _ ih =>
    rcases List.mem_cons.1 hg with rfl | hg
    · exact ⟨[], rest, rfl⟩
    · obtain ⟨pre, post, rfl⟩ := ih hg
      exact ⟨g' ++ pre, post, (List.append_assoc ..).symm⟩

/-- The tokens of an instruction begin with one that ends no line. -/
lemma exists_first {g : List Token} {i : Instruction} (hg : IsLine (g.map Token.kind) i) :
    ∃ (first : Token) (others : List Token), g = first :: others ∧
      first.kind.endsLine = false := by
  obtain ⟨k, ks, hks, hk⟩ := hg.exists_cons
  obtain ⟨first, others, rfl, rfl, -⟩ := List.map_eq_cons_iff.1 hks
  exact ⟨first, others, rfl, hk⟩

/-- No tokens are divided into no instructions. -/
lemma Divides.eq_nil {gs : List (List Token)} (h : Divides [] gs) : gs = [] := by
  generalize hts : [] = ts at h
  cases h with
  | done => rfl
  | stop => rfl
  | newline => simp at hts
  | line hg =>
    obtain ⟨first, others, rfl, -⟩ := exists_first hg
    simp at hts

/-- The first token decides how tokens are divided. It is the end of the input, or a line break,
which belongs to no instruction, or it begins a line; no two of these can be. -/
lemma Divides.cases_head {t : Token} {ts : List Token} {gs : List (List Token)}
    (h : Divides (t :: ts) gs) :
    (t.kind = .endOfInput ∧ gs = []) ∨ (t.kind = .newline ∧ Divides ts gs) ∨
      t.kind.endsLine = false ∧ ∃ (g rest : List Token) (i : Instruction) (gs' : List (List Token)),
        t :: ts = g ++ rest ∧ gs = g :: gs' ∧ IsLine (g.map Token.kind) i ∧
          EndsLine (rest.map Token.kind) ∧ Divides rest gs' := by
  generalize hts : t :: ts = whole at h
  cases h with
  | done => simp at hts
  | stop _ ht =>
    obtain ⟨rfl, rfl⟩ := List.cons.inj hts
    exact .inl ⟨ht, rfl⟩
  | newline ht hrest =>
    obtain ⟨rfl, rfl⟩ := List.cons.inj hts
    exact .inr (.inl ⟨ht, hrest⟩)
  | @line g rest i gs' hg hend hrest =>
    obtain ⟨first, others, rfl, hfirst⟩ := exists_first hg
    obtain ⟨rfl, -⟩ := List.cons.inj hts
    exact .inr (.inr ⟨hfirst, _, _, _, _, rfl, rfl, hg, hend, hrest⟩)

/-- **One division.** Tokens are divided in one way only.

**Proof sketch.** Induction on the one division, by what its first token says of the other. Two
lines that begin in one place have the same tokens. -/
theorem Divides.unique {ts : List Token} {gs : List (List Token)} (h : Divides ts gs) :
    ∀ {gs' : List (List Token)}, Divides ts gs' → gs' = gs := by
  induction h with
  | done => exact fun h' => h'.eq_nil
  | stop ts ht =>
    intro gs' h'
    rcases h'.cases_head with ⟨-, rfl⟩ | ⟨hbreak, -⟩ | ⟨hline, -⟩
    · rfl
    · simp [ht] at hbreak
    · simp [ht, TokenKind.endsLine] at hline
  | newline ht _ ih =>
    intro gs' h'
    rcases h'.cases_head with ⟨hend, -⟩ | ⟨-, hrest⟩ | ⟨hline, -⟩
    · simp [ht] at hend
    · exact ih hrest
    · simp [ht, TokenKind.endsLine] at hline
  | @line g rest i gs hg hend _ ih =>
    intro gs' h'
    obtain ⟨first, others, rfl, hfirst⟩ := exists_first hg
    rcases h'.cases_head with ⟨hkind, -⟩ | ⟨hkind, -⟩ | ⟨-, hline⟩
    · simp [hkind, TokenKind.endsLine] at hfirst
    · simp [hkind, TokenKind.endsLine] at hfirst
    · obtain ⟨g', rest', i', gs'', heq, rfl, hg', hend', hrest'⟩ := hline
      have htokens : first :: others ++ rest = g' ++ rest' := heq
      have hkinds := congrArg (List.map Token.kind) htokens
      rw [List.map_append, List.map_append] at hkinds
      obtain ⟨hsame, -, -⟩ := hg.unique hend hg' hend' hkinds
      have hlength := congrArg List.length hsame
      rw [List.length_map, List.length_map] at hlength
      obtain ⟨rfl, rfl⟩ := List.append_inj htokens hlength
      rw [ih hrest']

/-- **Reading.** The tokens of an instruction, and its span: that of the first token merged with
that of the last. -/
structure IsReadAs (g : List Token) (l : Instruction × Span) : Prop where
  isLine : IsLine (g.map Token.kind) l.1
  span : ∃ first ∈ g.head?, ∃ last ∈ g.getLast?, l.2 = first.span.merge last.span

/-- **A line** that is read goes from its first token to the last one taken. The tokens of the line
are those that were taken, since both are followed by the same rest, and the span is merged from the
spans of the first and the last of them. -/
lemma isReadAs_of_line {t : Token} {ts : List Token} {i : Instruction} {c : Cursor}
    (h : line t ⟨ts, t.span⟩ = .ok i c) :
    ∃ others, ts = others ++ c.rest ∧ IsReadAs (t :: others) (i, t.span.merge c.last) ∧
      EndsLine (c.rest.map Token.kind) := by
  obtain ⟨ks, hks, hrest, hends⟩ := of_line h
  have hpasses := passes_line t ⟨ts, t.span⟩
  rw [h] at hpasses
  obtain ⟨taken, htaken, -, hlast⟩ := Cursor.exists_taken hpasses
  have hts : ts = taken ++ c.rest := htaken
  have hall : taken.map Token.kind ++ c.rest.map Token.kind = ks ++ c.rest.map Token.kind := by
    rw [← hrest, ← List.map_append, ← hts]
  have hkinds : taken.map Token.kind = ks := List.append_cancel_right hall
  have hspan : c.last = (taken.getLast?.getD t).span :=
    hlast.trans (Option.getD_map Token.span t taken.getLast?)
  refine ⟨taken, hts, ⟨?_, t, rfl, taken.getLast?.getD t, ?_, congrArg t.span.merge hspan⟩, hends⟩
  · rw [List.map_cons, hkinds]
    exact hks
  · rw [List.getLast?_cons]
    rfl

/-- **The parser divides** the tokens if it finds no error, and reads those of each instruction.

**Proof sketch.** Induction on the reading, line by line. -/
theorem exists_divides (lines : List (Instruction × Span)) (errors : List Diagnostic)
    (ts : List Token) (h : (parseFrom lines errors ts).errors = []) :
    ∃ gs found, Divides ts gs ∧ List.Forall₂ IsReadAs gs found ∧
      (parseFrom lines errors ts).lines = lines.reverse ++ found := by
  fun_induction parseFrom lines errors ts with
  | case1 lines errors => exact ⟨[], [], .done, .nil, by simp⟩
  | case2 lines errors t ts ht ih =>
    obtain ⟨gs, found, hgs, hfound, hlines⟩ := ih h
    exact ⟨gs, found, .newline ht hgs, hfound, hlines⟩
  | case3 lines errors t ts ht hend =>
    have herrors : errors = [] := List.reverse_eq_nil_iff.1 h
    have hinput : t.kind = .endOfInput := by
      simpa [herrors, DiagnosticLog.capacity] using hend
    exact ⟨[], [], .stop ts hinput, .nil, by simp⟩
  | case4 lines errors t ts ht hend i c hline ih =>
    obtain ⟨gs, found, hgs, hfound, hlines⟩ := ih h
    obtain ⟨others, rfl, hread, hends⟩ := isReadAs_of_line hline
    refine ⟨(t :: others) :: gs, _ :: found, .line hread.isLine hends hgs, .cons hread hfound, ?_⟩
    rw [hlines, List.reverse_cons, List.append_assoc]
    rfl
  | case5 lines errors t ts ht hend d c hline ih =>
    exact absurd (derives_of_parseFrom _ _ _ h).1 (by simp)

/-! ### Lines of spans -/

/-- What is merged with something further on is on the same line. -/
lemma line_merge_of_le {a b : Span} (h : a.line ≤ b.line) : (a.merge b).line = a.line := by
  unfold Span.merge
  split
  · rfl
  · rw [if_pos (by omega)]

/-- The span of an instruction is on the line on which the instruction begins. -/
lemma IsReadAs.line_eq {n : Nat} {g : List Token} {l : Instruction × Span} (h : IsReadAs g l)
    (hg : StandsFrom n g) : l.2.line = n := by
  obtain ⟨first, hfirst, last, hlast, hspan⟩ := h.span
  obtain ⟨others, rfl⟩ := List.head?_eq_some_iff.1 hfirst
  obtain ⟨pre, hpre⟩ := List.getLast?_eq_some_iff.1 hlast
  have hline := hg pre last [] hpre
  rw [hspan, line_merge_of_le (by rw [hg.head, hline]; exact Nat.le_add_right ..), hg.head]

/-- **Lines after one another.** Between two instructions a line ends, so the spans are on lines
that increase.

**Proof sketch.** Induction on the division. All spans are on the line from which on the tokens
stand, or further on, and further on indeed if the line ends there. -/
lemma Divides.line_lt {ts : List Token} {gs : List (List Token)} (h : Divides ts gs) :
    ∀ {n : Nat} {found : List (Instruction × Span)}, StandsFrom n ts →
      List.Forall₂ IsReadAs gs found →
      (∀ l ∈ found, n ≤ l.2.line ∧ (EndsLine (ts.map Token.kind) → n < l.2.line)) ∧
        found.Pairwise fun l l' => l.2.line < l'.2.line := by
  induction h with
  | done | stop =>
    intro n found _ hfound
    cases hfound
    simp
  | @newline t ts gs ht _ ih =>
    intro n found hts hfound
    have hbreak : [t].countP isBreak = 1 := by simp [isBreak, ht]
    have hfirst : StandsFrom n ([t] ++ ts) := hts
    have hrest := hfirst.right
    rw [hbreak] at hrest
    obtain ⟨hlines, hpairs⟩ := ih hrest hfound
    refine ⟨fun l hl => ?_, hpairs⟩
    have hle := (hlines l hl).1
    exact ⟨by omega, fun _ => by omega⟩
  | @line g rest i gs hg hend _ ih =>
    intro n found hts hfound
    cases hfound with
    | @cons _ l _ found hread hfound =>
    obtain ⟨hlines, hpairs⟩ := ih hts.right hfound
    have hlater : ∀ l' ∈ found, n < l'.2.line := fun l' hl' =>
      Nat.lt_of_le_of_lt (Nat.le_add_right ..) ((hlines l' hl').2 hend)
    have hline := hread.line_eq hts.left
    refine ⟨List.forall_mem_cons.2 ⟨⟨hline.ge, fun hends => ?_⟩, fun l' hl' =>
      ⟨(hlater l' hl').le, fun _ => hlater l' hl'⟩⟩, List.pairwise_cons.2 ⟨?_, hpairs⟩⟩
    · obtain ⟨k, ks, hks, hk⟩ := hg.exists_cons
      rw [List.map_append, hks, List.cons_append] at hends
      exact absurd (hends k rfl) (by simp [hk])
    · rwa [hline]

/-! ### Quotations -/

/-- **Quoting.** A span quotes an instruction if it lies within its line, and the octets of the line
in the columns of the span are those of a text that is assembled with no error, to the instruction
and no other. -/
structure Quotes (text : String) (a : Span) (i : Instruction) : Prop where
  one_le_column : 1 ≤ a.column
  column_le : a.column ≤ a.endColumn
  endColumn_le : a.endColumn ≤ (lineOf (octets text.toList) a.line).length + 1
  assembles : ∃ quoted : String, excerpt (octets text.toList) a = octets quoted.toList ∧
    (assemble quoted).errors.hasErrors = false ∧ (assemble quoted).instructions = [i]

/-- **The span of an instruction** with some tokens in a text. -/
structure Locates (text : String) (g : List Token) (i : Instruction) (a : Span) : Prop where
  isLine : IsLine (g.map Token.kind) i
  /-- The span is on the line on which the instruction begins. -/
  line : ∀ t ∈ g.head?, t.span.line = a.line
  /-- An instruction on one line is quoted. -/
  quotes : (∀ t ∈ g, t.span.line = a.line) → Quotes text a i
  /-- On two lines there is only a loop that has its brace on the next line, and its span is that of
  its first word. -/
  loop : (¬ ∀ t ∈ g, t.span.line = a.line) →
    ∃ (first : Token) (header : List Token) (newline brace : Token),
      g = first :: (header ++ [newline, brace]) ∧ first.kind = .while ∧
      newline.kind = .newline ∧ brace.kind = .openBrace ∧
      (∀ t ∈ first :: header, t.span.line = a.line) ∧ brace.span.line = a.line + 1 ∧
      a = first.span

/-- A text that reads as one line is assembled to the instruction of the line. -/
lemma assemble_of_isLine {text : String} {ks : List TokenKind} {i : Instruction}
    (hks : ReadsAs text.toList ks) (hi : IsLine ks i) :
    (assemble text).errors.hasErrors = false ∧ (assemble text).instructions = [i] := by
  obtain ⟨hlex, hkinds⟩ := lex_of_readsAs hks
  have hderives : Derives ks [(ks, i)] := by
    simpa using Derives.line hi endsLine_nil .done
  rw [← hkinds] at hderives
  obtain ⟨hparse, hlines⟩ :=
    parse_of_wellEnded (wellEnded_lex text) (isListing_iff_derives.2 hderives)
  exact ⟨hasErrors_assemble_eq_false_iff.2 ⟨hlex, hparse⟩, hlines⟩

/-- The tokens of an instruction stand before the end of the input. What the lexer adds at the end
is the end of the input alone, which belongs to no instruction; so it is among the tokens behind
them, and can be taken away. -/
lemma IsReadAs.exists_text {text : String} {pre g post : List Token} {l : Instruction × Span}
    (h : IsReadAs g l) (hlex : (lex text).errors = [])
    (htokens : (lex text).tokens = pre ++ (g ++ post)) :
    ∃ post', Tokenizes [] text.toList (pre ++ (g ++ post')) := by
  obtain ⟨ts, hts, hlast⟩ := exists_tokenizes hlex
  rw [hlast] at htokens
  rcases List.eq_nil_or_concat post with rfl | ⟨post, last, rfl⟩
  · -- otherwise the last token of the instruction were the end of the input
    obtain ⟨-, -, last, hmem, -⟩ := h.span
    obtain ⟨front, rfl⟩ := List.getLast?_eq_some_iff.1 hmem
    rw [List.append_nil, ← List.append_assoc] at htokens
    obtain ⟨-, hend⟩ := List.append_inj' htokens rfl
    obtain rfl := List.singleton_inj.1 hend
    exact absurd (by simp) h.isLine.endOfInput_not_mem
  · rw [List.concat_eq_append, ← List.append_assoc, ← List.append_assoc] at htokens
    obtain ⟨rfl, -⟩ := List.append_inj' htokens rfl
    exact ⟨post, by rwa [← List.append_assoc]⟩

/-- Tokens of an instruction with no end of a line among them are quoted by the span from the first
to the last. -/
lemma IsReadAs.quotes {text : String} {pre g post : List Token} {l : Instruction × Span}
    (h : IsReadAs g l) (htext : Tokenizes [] text.toList (pre ++ (g ++ post)))
    (hline : ∀ t ∈ g, t.kind ≠ .newline) : Quotes text l.2 l.1 := by
  obtain ⟨first, hfirst, last, hlast, hspan⟩ := h.span
  obtain ⟨others, rfl⟩ := List.head?_eq_some_iff.1 hfirst
  obtain ⟨front, piece, rest, hpieces, hpiece, hbreak, hmerged⟩ := htext.exists_clipping hlast hline
  rw [List.nil_append] at hpiece hmerged
  have hin : (Extent.mk (octets front) (octets piece)).IsIn (octets text.toList) := by
    rw [hpieces, octets_append, octets_append, ← List.append_assoc]
    exact List.prefix_append ..
  have hat := (Extent.isAt_span_iff hin).2 fun hover => hbreak (lineBreak_mem_octets_iff.1 hover.1)
  rw [← hmerged, ← hspan] at hat
  have hquoted : ReadsAs (String.ofList piece).toList ((first :: others).map Token.kind) := by
    rw [String.toList_ofList]
    exact hpiece.readsAs
  exact ⟨hat.one_le_column, hat.column_le, hat.endColumn_le, String.ofList piece,
    by rw [hat.excerpt, String.toList_ofList], assemble_of_isLine hquoted h.isLine⟩

/-- Tokens on one line do not end it. -/
lemma OnOneLine.kind_ne_newline {g : List Token} (h : OnOneLine (g.map Token.kind)) :
    ∀ t ∈ g, t.kind ≠ .newline := fun _ ht => ne_newline (h _ (List.mem_map_of_mem ht))

/-- The tokens of a loop that has its brace on the next line. -/
lemma exists_header {g : List Token} {ks : List TokenKind} (hks : OnOneLine ks)
    (h : g.map Token.kind = TokenKind.while :: (ks ++ [TokenKind.newline, .openBrace])) :
    ∃ (first : Token) (header : List Token) (newline brace : Token),
      g = first :: (header ++ [newline, brace]) ∧ first.kind = .while ∧
      newline.kind = .newline ∧ brace.kind = .openBrace ∧
      ∀ t ∈ first :: header, t.kind ≠ .newline := by
  obtain ⟨first, others, rfl, hfirst, hothers⟩ := List.map_eq_cons_iff.1 h
  obtain ⟨header, ends, rfl, rfl, hends⟩ := List.map_eq_append_iff.1 hothers
  obtain ⟨newline, ends, rfl, hnewline, hends⟩ := List.map_eq_cons_iff.1 hends
  obtain ⟨brace, ends, rfl, hbrace, hends⟩ := List.map_eq_cons_iff.1 hends
  obtain rfl := List.map_eq_nil_iff.1 hends
  exact ⟨first, header, newline, brace, rfl, hfirst, hnewline, hbrace,
    List.forall_mem_cons.2 ⟨by simp [hfirst], hks.kind_ne_newline⟩⟩

/-- Behind the end of a line the next line begins. -/
lemma StandsFrom.line_behind {n : Nat} {front : List Token} {newline t : Token}
    (h : StandsFrom n (front ++ [newline, t])) (hfront : ∀ u ∈ front, u.kind ≠ .newline)
    (hnewline : newline.kind = .newline) : t.span.line = n + 1 := by
  have hnone : front.countP isBreak = 0 := List.countP_eq_zero.2 fun u hu => by
    simpa [isBreak] using hfront u hu
  have hline := h.right [newline] t [] rfl
  simpa [hnone, isBreak, hnewline] using hline

/-- **The span of an instruction.** On one line the instruction is quoted, and of a loop on two
lines its first word is left.

**Proof sketch.** By whether a line ends among the tokens of the instruction. If not, all of them
are on one line and can be clipped out. If so, they are the header of a loop, and the brace is on
the line after the first word, so that merging leaves the span of the word. -/
lemma IsReadAs.locates {text : String} {pre g post : List Token} {l : Instruction × Span}
    (h : IsReadAs g l) (htext : Tokenizes [] text.toList (pre ++ (g ++ post))) :
    Locates text g l.1 l.2 := by
  have hg : StandsFrom l.2.line g := by
    have hstands := htext.standsFrom.right.left
    rwa [h.line_eq hstands]
  have hbegin : ∀ t ∈ g.head?, t.span.line = l.2.line := by
    intro t ht
    obtain ⟨others, rfl⟩ := List.head?_eq_some_iff.1 ht
    exact hg.head
  rcases h.isLine.onOneLine_or with hone | ⟨ks, hks, hkinds⟩
  · exact ⟨h.isLine, hbegin, fun _ => h.quotes htext hone.kind_ne_newline,
      fun htwo => absurd (hg.line_eq hone.kind_ne_newline) htwo⟩
  · obtain ⟨first, header, newline, brace, rfl, hfirst, hnewline, hbrace, hheader⟩ :=
      exists_header hks hkinds
    have hlines : StandsFrom l.2.line ((first :: header) ++ [newline, brace]) := hg
    have hfront := hlines.left.line_eq hheader
    have hnext := hlines.line_behind hheader hnewline
    have hspan : l.2 = first.span := by
      obtain ⟨first', hfirst', last, hlast, hspan⟩ := h.span
      obtain rfl := Option.some.inj hfirst'
      obtain rfl : brace = last := by simpa [List.getLast?_cons] using hlast
      rw [hspan, Span.merge, hg.head, hnext, if_neg (by omega), if_pos (by omega)]
    exact ⟨h.isLine, hbegin, fun hone => absurd (hone brace (by simp)) (by omega), fun _ =>
      ⟨first, header, newline, brace, rfl, hfirst, hnewline, hbrace, hfront, hnext, hspan⟩⟩

/-! ### Texts -/

/-- **Spans quote their instructions.** If a text is assembled with no error, there are as many
spans as instructions, on lines after one another. The tokens of the text are divided among the
instructions, in the only way there is, and the span of each instruction locates its tokens: an
instruction on one line is quoted, and of a loop that has its brace on the next line the first word
is left.

**Proof sketch.** The parser reads each line from its first token to its last. In a text with
nothing wrong the tokens stand one line further after each end of a line, which puts the spans on
lines after one another, and those of an instruction can be clipped out. -/
theorem spans_quote {text : String} (h : (assemble text).errors.hasErrors = false) :
    (assemble text).spans.length = (assemble text).instructions.length ∧
      (assemble text).spans.Pairwise (fun a b => a.line < b.line) ∧
      ∃ groups, Divides (lex text).tokens groups ∧
        (∀ groups', Divides (lex text).tokens groups' → groups' = groups) ∧
        List.Forall₂ (fun g l => Locates text g l.1 l.2) groups (assemble text).lines := by
  obtain ⟨hlex, hparse⟩ := hasErrors_assemble_eq_false_iff.1 h
  obtain ⟨groups, found, hgroups, hfound, hlines⟩ := exists_divides [] [] _ hparse
  have hassembled : (assemble text).lines = found := hlines
  refine ⟨by simp [Assembly.spans, Assembly.instructions], ?_, groups, hgroups,
    fun _ => hgroups.unique, ?_⟩
  · rw [Assembly.spans, hassembled, List.pairwise_map]
    exact (hgroups.line_lt (standsFrom_lex hlex) hfound).2
  · rw [hassembled]
    have hall := (List.forall₂_and_left _ _).2 ⟨fun g => hgroups.exists_append, hfound⟩
    refine hall.imp fun g l hg => ?_
    obtain ⟨⟨pre, post, htokens⟩, hread⟩ := hg
    obtain ⟨post', htext⟩ := hread.exists_text hlex htokens
    exact hread.locates htext

/-- A loop with its brace on the next line, and in it a negative number with a comment behind it. -/
def longLoop : String := "while x < 3:\n\x7b\n  x = x + -1 // back\n\x7d"

/-- The loop on two lines and the lines in it have their spans. -/
theorem spans_quote_longLoop : (assemble longLoop).errors.hasErrors = false ∧
    (assemble longLoop).lines = [(.loop (.below "x" 3), ⟨1, 1, 6⟩),
      (.increment "x" (-1), ⟨3, 3, 13⟩), (.close, ⟨4, 1, 2⟩)] ∧
    (assemble longLoop).spans.Pairwise (fun a b => a.line < b.line) ∧
    ∃ groups, Divides (lex longLoop).tokens groups ∧
      (∀ groups', Divides (lex longLoop).tokens groups' → groups' = groups) ∧
      List.Forall₂ (fun g l => Locates longLoop g l.1 l.2) groups (assemble longLoop).lines := by
  have h : (assemble longLoop).errors.hasErrors = false := by cbv
  exact ⟨h, by cbv, (spans_quote h).2⟩

end StickerBot.Listing
