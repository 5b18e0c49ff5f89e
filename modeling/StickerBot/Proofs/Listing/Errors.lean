import StickerBot.Proofs.Listing.Names
set_option autoImplicit false

/-!
# What is wrong with a listing

All that the lexer and the parser find wrong in a text are errors of theirs, never warnings, and
every one of them is counted. So a listing is accepted exactly if neither has found anything.

## Main definitions

* `Listing.Reader.Blames` — readers that fail only with errors of the parser, on lines of tokens.
* `Listing.found` — all that is wrong with a text.

## Main results

* `DiagnosticLog.pushAll_of_errors` — errors are counted, and stored while there is room.
* `Listing.of_mem_errors_lex`, `Listing.of_mem_errors_parse` — what the lexer and the parser find.
* `Listing.errors_assemble` — all that is found is counted, and the first of it stored.
* `Listing.parseProgram_eq_ok_iff` — when a listing is accepted.
-/

namespace StickerBot

namespace DiagnosticLog

/-- **Errors** that are pushed are all counted, and stored while there is room. By induction on the
errors: each takes one of the places that are left, if there is one, and is counted in any case. -/
theorem pushAll_of_errors (ds : List Diagnostic) : ∀ l : DiagnosticLog,
    (∀ d ∈ ds, d.severity = .error) → l.pushAll ds =
      { l with
        errors := l.errors ++ ds.take (capacity - l.errors.length)
        totalErrors := l.totalErrors + ds.length } := by
  induction ds with
  | nil => intro l _; simp [pushAll]
  | cons d ds ih =>
    intro l h
    obtain ⟨hd, hds⟩ := List.forall_mem_cons.1 h
    have hpush : l.push d =
        { l with
          errors := if l.errors.length < capacity then l.errors ++ [d] else l.errors
          totalErrors := l.totalErrors + 1 } := by
      simp [push, hd]
    rw [pushAll, List.foldl_cons]
    refine (ih (l.push d) hds).trans ?_
    rw [hpush]
    by_cases hroom : l.errors.length < capacity
    · obtain ⟨n, hn⟩ : ∃ n, capacity - l.errors.length = n + 1 :=
        ⟨capacity - l.errors.length - 1, by omega⟩
      have hrest : capacity - (l.errors.length + 1) = n := by omega
      simp [hroom, hn, hrest, Nat.add_comm, Nat.add_left_comm]
    · have hnone : capacity - l.errors.length = 0 := by omega
      simp [hroom, hnone, Nat.add_comm, Nat.add_left_comm]

end DiagnosticLog

namespace Listing

/-! ### The lexer -/

/-- Whether a diagnostic is an error of the lexer. -/
def IsLexical (d : Diagnostic) : Prop := ∃ (e : LexError) (span : Span), d = e.diagnose span

/-- A string literal reports nothing but errors of the lexer: a wrong escape, or that the line ends
inside the literal. -/
lemma isLexical_scanString (column : Nat) (p : Position) (text : List Char)
    (errors : List Diagnostic) (cs : List Char) (h : ∀ d ∈ errors, IsLexical d) :
    ∀ d ∈ (scanString column p text errors cs).errors, IsLexical d := by
  fun_induction scanString column p text errors cs with
  | case1 p text errors => exact List.forall_mem_cons.2 ⟨⟨_, _, rfl⟩, h⟩
  | case2 p text errors => exact List.forall_mem_cons.2 ⟨⟨_, _, rfl⟩, h⟩
  | case3 p text errors c cs d hd ih => exact ih h
  | case4 p text errors c cs hd reported ih =>
    exact ih (List.forall_mem_cons.2 ⟨⟨_, _, rfl⟩, h⟩)
  | case5 p text errors cs => exact h
  | case6 p text errors cs => exact List.forall_mem_cons.2 ⟨⟨_, _, rfl⟩, h⟩
  | case7 p text errors c cs hlone hescape hquote hbreak ih => exact ih h

/-- Octets that begin no token are each reported by an error of the lexer. -/
lemma isLexical_reject (bs : List UInt8) : ∀ l : Lexer, (∀ d ∈ l.errors, IsLexical d) →
    ∀ d ∈ (l.reject bs).errors, IsLexical d := by
  induction bs with
  | nil => exact fun l h => h
  | cons b bs ih =>
    intro l h
    rw [Lexer.reject]
    split
    · exact h
    · exact ih _ (List.forall_mem_cons.2 ⟨⟨_, _, rfl⟩, h⟩)

/-- **The lexer** reports nothing but errors of its own. Induction along its rounds: each of them
takes a blank, a comment or a token, or reports one of these errors. -/
lemma isLexical_lexFrom (l : Lexer) (cs : List Char) (h : ∀ d ∈ l.errors, IsLexical d) :
    ∀ d ∈ (lexFrom l cs).errors, IsLexical d := by
  have hfinish : ∀ l : Lexer, (∀ d ∈ l.errors, IsLexical d) →
      ∀ d ∈ l.finish.errors, IsLexical d := fun l h d hd => h d (List.mem_reverse.1 hd)
  fun_induction lexFrom l cs with
  | case1 l => exact hfinish l h
  | case2 l c cs hfull => exact hfinish l h
  | case3 l c cs hfull hblank ih => exact ih h
  | case4 l c cs hfull hblank hcomment ih => exact ih h
  | case5 l c cs hfull hblank hcomment k hk ih => exact ih h
  | case6 l cs hfull s hblank hcomment hk ih => exact ih (isLexical_scanString _ _ _ _ _ h)
  | case7 l c cs hfull hblank hcomment hk hquote hdigit ih =>
    refine ih ?_
    unfold Lexer.pushNumber
    dsimp only
    split
    · exact h
    · exact List.forall_mem_cons.2 ⟨⟨_, _, rfl⟩, h⟩
  | case8 l c cs hfull hblank hcomment hk hquote hdigit hstarts ih => exact ih h
  | case9 l c cs hfull hblank hcomment hk hquote hdigit hstarts ih =>
    exact ih (isLexical_reject _ _ h)

/-- **Lexical errors.** All that the lexer finds are errors of its own. -/
theorem of_mem_errors_lex {text : String} {d : Diagnostic} (h : d ∈ (lex text).errors) :
    ∃ (e : LexError) (span : Span), d = e.diagnose span :=
  isLexical_lexFrom .start text.toList (by simp [Lexer.start]) d h

/-! ### The parser -/

/-- A property of lines that the tokens left and the last one taken have. -/
def Cursor.OnLines (P : Nat → Prop) (c : Cursor) : Prop :=
  (∀ t ∈ c.rest, P t.span.line) ∧ P c.last.line

/-- Whether a diagnostic is an error of the parser, on a line with a property. -/
def IsSyntactic (P : Nat → Prop) (d : Diagnostic) : Prop :=
  ∃ (e : ParseError) (span : Span), d = e.diagnose span ∧ P span.line

/-- **Blaming.** If a reader fails it is with an error of the parser, on a line of one of the tokens
that were left, or of the last one taken. -/
def Reader.Blames {α : Type} (P : Nat → Prop) (p : Reader α) : Prop :=
  ∀ c, c.OnLines P → (p c).next.OnLines P ∧ ∀ d e, p c = .fail d e → IsSyntactic P d

section Readers

variable {α β : Type} {P : Nat → Prop} {c : Cursor}

/-- The next token is on one of the lines of the cursor: where no token is left it stands where the
last one was taken. -/
lemma Cursor.OnLines.head (h : c.OnLines P) : P c.head.span.line := by
  unfold Cursor.head
  split
  · exact h.2
  · rename_i heq
    exact h.1 _ (by rw [heq]; exact List.mem_cons_self ..)

/-- Going past a token keeps the lines of the cursor: the token that is now the last one was one of
those left. -/
lemma Cursor.OnLines.tail (h : c.OnLines P) : c.tail.OnLines P := by
  unfold Cursor.tail
  split
  · exact h
  · rename_i heq
    have hall := h.1
    rw [heq] at hall
    obtain ⟨ht, hts⟩ := List.forall_mem_cons.1 hall
    exact ⟨hts, ht⟩

/-- Two spans together are on the line of one of them. -/
lemma line_merge {a b : Span} (ha : P a.line) (hb : P b.line) : P (a.merge b).line := by
  unfold Span.merge
  split
  · exact ha
  · split
    · exact ha
    · exact hb

/-- A reader that reads nothing never fails. -/
lemma blames_pure (a : α) : (pure a : Reader α).Blames P :=
  fun _ hc => ⟨hc, fun _ _ h => by cases h⟩

/-- Readers one after the other blame the lines of the first cursor: the first goes on with tokens
that were left, and the second blames their lines. -/
lemma Reader.Blames.bind {p : Reader α} {f : α → Reader β} (hp : p.Blames P)
    (hf : ∀ a, (f a).Blames P) : (p >>= f).Blames P := by
  intro c hc
  obtain ⟨hnext, hfail⟩ := hp c hc
  change (Reader.bind p f c).next.OnLines P ∧ ∀ d e, Reader.bind p f c = .fail d e → _
  unfold Reader.bind
  cases h : p c with
  | ok a c' =>
    rw [h] at hnext
    exact hf a c' hnext
  | fail e c' =>
    rw [h] at hnext
    refine ⟨hnext, fun d e' heq => ?_⟩
    cases heq
    exact hfail _ _ h

/-- A complaint about the next token is about the line of this token. -/
lemma blames_unexpected (what : String) : (unexpected what : Reader α).Blames P :=
  fun _ hc => ⟨hc, fun _ _ h => by cases h; exact ⟨_, _, rfl, hc.head⟩⟩

/-- Looking for a token never fails, and takes at most the next one. -/
lemma blames_eat (k : TokenKind) : (eat k).Blames P := by
  intro c hc
  unfold eat
  split
  · exact ⟨hc.tail, fun _ _ h => by cases h⟩
  · exact ⟨hc, fun _ _ h => by cases h⟩

/-- Where a token must come and does not, the line of the token that comes instead is blamed. -/
lemma blames_expect (k : TokenKind) : (expect k).Blames P := by
  refine (blames_eat k).bind fun b => ?_
  cases b
  · exact blames_unexpected _
  · exact blames_pure ()

/-- Where no name comes the line of the token that comes instead is blamed. -/
lemma blames_name : name.Blames P := by
  intro c hc
  unfold name
  split
  · exact ⟨hc.tail, fun _ _ h => by cases h⟩
  · exact blames_unexpected _ c hc

/-- Where no text in quotes comes the line of the token that comes instead is blamed. -/
lemma blames_quoted : quoted.Blames P := by
  intro c hc
  unfold quoted
  split
  · exact ⟨hc.tail, fun _ _ h => by cases h⟩
  · exact blames_unexpected _ c hc

/-- A number blames the line of the token that is no number, or the line of the number that does not
fit, its sign included. -/
lemma blames_integer (fit : Int → Option α) : (integer fit).Blames P := by
  intro c hc
  have hd : (if c.head.kind = .minus then c.tail else c).OnLines P := by
    split
    · exact hc.tail
    · exact hc
  unfold integer
  dsimp only
  split
  · split
    · exact ⟨hd.tail, fun _ _ h => by cases h⟩
    · exact ⟨hd.tail, fun _ _ h => by cases h; exact ⟨_, _, rfl, line_merge hc.head hd.tail.2⟩⟩
  · exact blames_unexpected _ _ hd

/-- What follows where a line should end is blamed, on its own line. -/
lemma blames_lineEnd : lineEnd.Blames P := by
  intro c hc
  unfold lineEnd
  split
  · exact ⟨hc, fun _ _ h => by cases h⟩
  · exact blames_unexpected _ c hc

/-- The numbers of a call blame lines of the cursor, wherever the list of numbers breaks off.
Induction along the list. -/
lemma blames_arguments (read : List Int32) (c : Cursor) (hc : c.OnLines P) :
    (arguments read c).next.OnLines P ∧
      ∀ d e, arguments read c = .fail d e → IsSyntactic P d := by
  fun_induction arguments read c with
  | case1 read c e d hi =>
    have h := blames_integer Word.int32? c hc
    rw [hi] at h
    exact ⟨h.1, fun _ _ heq => by cases heq; exact h.2 _ _ rfl⟩
  | case2 read c n d hi hhead =>
    have h := blames_integer Word.int32? c hc
    rw [hi] at h
    exact ⟨h.1.tail, fun _ _ heq => by cases heq⟩
  | case3 read c n d hi hhead e f hf =>
    have h := blames_integer Word.int32? c hc
    rw [hi] at h
    have h' := blames_expect .comma d h.1
    rw [hf] at h'
    exact ⟨h'.1, fun _ _ heq => by cases heq; exact h'.2 _ _ rfl⟩
  | case4 read c n d hi hhead f hf ih =>
    have h := blames_integer Word.int32? c hc
    rw [hi] at h
    have h' := blames_expect .comma d h.1
    rw [hf] at h'
    exact ih h'.1

/-- A call blames lines of the cursor: its bracket, its numbers or its name may be wrong. -/
lemma blames_call (x : String) : (call x).Blames P := by
  intro c hc
  unfold call
  split
  · exact ⟨hc.tail, fun _ _ h => by cases h⟩
  · have h := blames_arguments [] c hc
    split
    · rename_i heq
      rw [heq] at h
      exact ⟨h.1, fun _ _ heq => by cases heq⟩
    · rename_i heq
      rw [heq] at h
      exact ⟨h.1, fun _ _ heq => by cases heq; exact h.2 _ _ rfl⟩

/-- What is assigned to a variable is a number or the variable with a number added, and each may
blame a line of the cursor. -/
lemma blames_afterEquals (x : String) : (afterEquals x).Blames P := by
  intro c hc
  unfold afterEquals
  split
  · split
    · exact ((blames_expect .plus).bind fun _ => (blames_integer _).bind fun _ => blames_pure _)
        c.tail hc.tail
    · exact ⟨hc.tail, fun _ _ h => by cases h; exact ⟨_, _, rfl, hc.head⟩⟩
  · exact ((blames_integer _).bind fun _ => blames_pure _) c hc

/-- What comes after a name is a call or an assignment, and each may blame a line of the cursor. -/
lemma blames_afterName (x : String) : (afterName x).Blames P := by
  refine (blames_eat .openParen).bind fun b => ?_
  cases b
  · exact (blames_expect .equals).bind fun _ => blames_afterEquals x
  · exact blames_call x

/-- A condition blames lines of the cursor, in each of its two forms. -/
lemma blames_condition : condition.Blames P := by
  refine (blames_eat .not).bind fun b => ?_
  cases b
  · exact blames_name.bind fun _ => (blames_expect .less).bind fun _ =>
      (blames_integer _).bind fun _ => blames_pure _
  · exact blames_name.bind fun _ => (blames_expect .openParen).bind fun _ =>
      (blames_expect .closeParen).bind fun _ => blames_pure _

/-- A line that cannot be read is reported as an error of the parser, on the line of one of its
tokens. -/
lemma blames_line {t : Token} (ht : P t.span.line) : (line t).Blames P := by
  unfold line
  split
  · exact (blames_integer _).bind fun _ => blames_lineEnd.bind fun _ => blames_pure _
  · exact (blames_integer _).bind fun _ => blames_lineEnd.bind fun _ => blames_pure _
  · exact blames_quoted.bind fun _ => blames_lineEnd.bind fun _ => blames_pure _
  · exact blames_condition.bind fun _ => (blames_expect .colon).bind fun _ =>
      (blames_eat .newline).bind fun _ => (blames_expect .openBrace).bind fun _ =>
        blames_lineEnd.bind fun _ => blames_pure _
  · exact blames_lineEnd.bind fun _ => blames_pure _
  · exact (blames_afterName _).bind fun _ => blames_lineEnd.bind fun _ => blames_pure _
  · exact fun _ hc => ⟨hc, fun _ _ h => by cases h; exact ⟨_, _, rfl, ht⟩⟩

end Readers

/-- **The parser** reports nothing but errors of its own, on lines of its tokens. Induction along
its lines: a line that fails blames one of its tokens, and what is skipped then is left out. -/
lemma isSyntactic_parseFrom {P : Nat → Prop} (lines : List (Instruction × Span))
    (errors : List Diagnostic) (ts : List Token) (hts : ∀ t ∈ ts, P t.span.line)
    (h : ∀ d ∈ errors, IsSyntactic P d) :
    ∀ d ∈ (parseFrom lines errors ts).errors, IsSyntactic P d := by
  fun_induction parseFrom lines errors ts with
  | case1 lines errors => exact fun d hd => h d (List.mem_reverse.1 hd)
  | case2 lines errors t ts ht ih => exact ih (List.forall_mem_cons.1 hts).2 h
  | case3 lines errors t ts ht hend => exact fun d hd => h d (List.mem_reverse.1 hd)
  | case4 lines errors t ts ht hend i c hline ih =>
    obtain ⟨ht, hrest⟩ := List.forall_mem_cons.1 hts
    have hstart : (Cursor.mk ts t.span).OnLines P := ⟨hrest, ht⟩
    have hnext := (blames_line ht _ hstart).1
    rw [hline] at hnext
    exact ih hnext.1 h
  | case5 lines errors t ts ht hend d c hline ih =>
    obtain ⟨ht, hrest⟩ := List.forall_mem_cons.1 hts
    have hstart : (Cursor.mk ts t.span).OnLines P := ⟨hrest, ht⟩
    obtain ⟨hnext, hfail⟩ := blames_line ht _ hstart
    rw [hline] at hnext
    exact ih (fun t ht => hnext.1 t ((List.dropWhile_suffix _).subset ht))
      (List.forall_mem_cons.2 ⟨hfail d c hline, h⟩)

/-- The parser never has more errors than a log stores, for it stops as soon as it has so many. -/
lemma length_errors_parseFrom_le (lines : List (Instruction × Span)) (errors : List Diagnostic)
    (ts : List Token) (h : errors.length ≤ DiagnosticLog.capacity) :
    (parseFrom lines errors ts).errors.length ≤ DiagnosticLog.capacity := by
  fun_induction parseFrom lines errors ts with
  | case1 lines errors => simpa using h
  | case2 lines errors t ts ht ih => exact ih h
  | case3 lines errors t ts ht hend => simpa using h
  | case4 lines errors t ts ht hend i c hline ih => exact ih h
  | case5 lines errors t ts ht hend d c hline ih =>
    rw [not_or, Nat.not_le] at hend
    exact ih hend.2

/-- **Syntax errors.** All that the parser finds are errors of its own, on lines of tokens. -/
theorem of_mem_errors_parse {P : Nat → Prop} {ts : List Token} (hts : ∀ t ∈ ts, P t.span.line)
    {d : Diagnostic} (h : d ∈ (parse ts).errors) :
    ∃ (e : ParseError) (span : Span), d = e.diagnose span ∧ P span.line :=
  isSyntactic_parseFrom [] [] ts hts (by simp) d h

/-! ### Both -/

/-- All that the lexer finds are errors, no warnings. -/
lemma severity_of_mem_lex {text : String} {d : Diagnostic} (h : d ∈ (lex text).errors) :
    d.severity = .error := by
  obtain ⟨e, span, rfl⟩ := of_mem_errors_lex h
  rfl

/-- All that the parser finds are errors, no warnings. -/
lemma severity_of_mem_parse {ts : List Token} {d : Diagnostic} (h : d ∈ (parse ts).errors) :
    d.severity = .error := by
  obtain ⟨e, span, rfl, -⟩ := of_mem_errors_parse (P := fun _ => True) (fun _ _ => trivial) h
  cases e <;> rfl

/-- The parser finds no more errors than a log stores. -/
lemma length_errors_parse_le (ts : List Token) :
    (parse ts).errors.length ≤ DiagnosticLog.capacity :=
  length_errors_parseFrom_le [] [] ts (Nat.zero_le _)

/-- All that is wrong with a text, what the lexer finds before what the parser finds. -/
def found (text : String) : List Diagnostic :=
  (lex text).errors ++ (parse (lex text).tokens).errors

/-- **The log of a listing** counts all that is found and stores the first of it. -/
lemma errors_assemble (text : String) : (assemble text).errors =
    { errors := (found text).take DiagnosticLog.capacity, totalErrors := (found text).length } := by
  have hparse := DiagnosticLog.pushAll_of_errors (parse (lex text).tokens).errors .empty
    fun _ => severity_of_mem_parse
  have hall := DiagnosticLog.pushAll_of_errors (found text) .empty fun d hd =>
    (List.mem_append.1 hd).elim severity_of_mem_lex severity_of_mem_parse
  have hstored : (DiagnosticLog.ofList (parse (lex text).tokens).errors).stored =
      (parse (lex text).tokens).errors := by
    rw [DiagnosticLog.ofList, hparse, DiagnosticLog.stored]
    simp [DiagnosticLog.empty, List.take_of_length_le (length_errors_parse_le _)]
  have hlog : (assemble text).errors = DiagnosticLog.empty.pushAll (found text) := by
    rw [assemble, DiagnosticLog.extend, hstored, found, DiagnosticLog.pushAll_append]
    rfl
  rw [hlog, hall]
  simp [DiagnosticLog.empty]

/-- There are errors in the log exactly if the lexer or the parser has found some. -/
lemma hasErrors_assemble_eq_false_iff {text : String} :
    (assemble text).errors.hasErrors = false ↔
      (lex text).errors = [] ∧ (parse (lex text).tokens).errors = [] := by
  rw [errors_assemble]
  simp [DiagnosticLog.hasErrors, found]

/-- **Accepted.** A listing is accepted exactly if neither the lexer nor the parser finds an error,
and its program has the instructions that the parser found. -/
theorem parseProgram_eq_ok_iff {text : String} {p : Program} : parseProgram text = .ok p ↔
    (lex text).errors = [] ∧ (parse (lex text).tokens).errors = [] ∧
      p = .ofInstructions ((parse (lex text).tokens).lines.map Prod.fst) := by
  rw [← and_assoc, ← hasErrors_assemble_eq_false_iff]
  unfold parseProgram
  dsimp only
  split
  · rename_i herrors
    simp [herrors]
  · rename_i herrors
    simp only [Bool.not_eq_true] at herrors
    simp only [herrors, true_and, Except.ok.injEq]
    exact eq_comm

end Listing

end StickerBot
