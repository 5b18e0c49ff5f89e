import StickerBot.Proofs.Listing.Lexing
import StickerBot.Proofs.Listing.Passing
set_option autoImplicit false

/-!
# Lexing and parsing end

The lexer and the parser go on in rounds. A round of the lexer takes at least one character, and a
round of the parser takes at least one token and finds at most one instruction or one error. So
neither goes on for longer than there is something left to take. The lexer ends its tokens with the
only end of the input, also if it stops because there are too many errors, and this is what the
parser needs: as long as the last token is an end of the input, it is never taken, so that the
parser never asks for a token behind it.

## Main definitions

* `EndsIn` — a process that comes to an end within a number of rounds, with one result.
* `Listing.Reading`, `Listing.Reading.Round` — where a lexer stands, and its rounds.
* `Listing.ParserState`, `Listing.ParserState.Round` — where a parser stands, and its rounds.
* `Listing.EndsInput` — no tokens, or the last one is an end of the input.

## Main results

* `EndsIn.of_measure` — what gets smaller with each round comes to an end.
* `Listing.Reading.Round.outcome_eq`, `Listing.ParserState.Round.outcome_eq` — rounds are what the
  lexer and the parser do.
* `Listing.lex_parse_end` — lexing and parsing end.
-/

namespace StickerBot

open Relation

/-! ### Ending in rounds -/

/-- **Coming to an end.** However a process goes on from a state, it does not do so for more than a
number of rounds; it comes to where it cannot go on, and wherever that is, the result is the
same. -/
structure EndsIn {σ ρ : Type} (round : σ → σ → Prop) (result : σ → ρ) (start : σ) (bound : Nat)
    (r : ρ) : Prop where
  bounded : ∀ run : List σ, (start :: run).IsChain round → run.length ≤ bound
  stops : ∃ last, ReflTransGen round start last ∧ ∀ s, ¬ round last s
  result_eq : ∀ last, ReflTransGen round start last → (∀ s, ¬ round last s) → result last = r

namespace EndsIn

variable {σ ρ : Type} {round : σ → σ → Prop} {measure : σ → Nat} {result outcome : σ → ρ}

/-- There are no more rounds than a measure allows that gets smaller with each of them. -/
lemma length_le (hless : ∀ s s', round s s' → measure s' < measure s) (run : List σ) :
    ∀ start, (start :: run).IsChain round → run.length ≤ measure start := by
  induction run with
  | nil => exact fun _ _ => Nat.zero_le _
  | cons s run ih =>
    intro start hrun
    obtain ⟨hround, hrun⟩ := List.isChain_cons_cons.1 hrun
    exact Nat.succ_le_of_lt (Nat.lt_of_le_of_lt (ih s hrun) (hless start s hround))

/-- Where a measure gets smaller there is a last round. -/
lemma exists_last (hless : ∀ s s', round s s' → measure s' < measure s) (start : σ) :
    ∃ last, ReflTransGen round start last ∧ ∀ s, ¬ round last s := by
  induction hn : measure start using Nat.strong_induction_on generalizing start with
  | _ n ih =>
    by_cases hlast : ∀ s, ¬ round start s
    · exact ⟨start, .refl, hlast⟩
    · push Not at hlast
      obtain ⟨s, hs⟩ := hlast
      obtain ⟨last, hreach, hlast⟩ := ih _ (hn ▸ hless start s hs) s rfl
      exact ⟨last, .head hs hreach, hlast⟩

/-- What no round changes is not changed by many. -/
lemma outcome_eq (hkeeps : ∀ s s', round s s' → outcome s = outcome s')
    {start last : σ} (h : ReflTransGen round start last) : outcome start = outcome last := by
  induction h with
  | refl => rfl
  | tail _ hround ih => exact ih.trans (hkeeps _ _ hround)

/-- **What gets smaller** with each round comes to an end, with the result that no round changes. -/
theorem of_measure (hless : ∀ s s', round s s' → measure s' < measure s)
    (hkeeps : ∀ s s', round s s' → outcome s = outcome s')
    (hlast : ∀ s, (∀ s', ¬ round s s') → outcome s = result s) (start : σ) :
    EndsIn round result start (measure start) (outcome start) where
  bounded run := length_le hless run start
  stops := exists_last hless start
  result_eq last hreach hstuck := by rw [outcome_eq hkeeps hreach, hlast last hstuck]

end EndsIn

namespace Listing

/-! ### Rounds of the lexer -/

/-- **Where a lexer stands**: what it has found, and the characters that are left. -/
structure Reading where
  lexer : Lexer
  rest : List Char

/-- How many characters are left. -/
def Reading.left (r : Reading) : Nat := r.rest.length

/-- What a lexer has found if it stops here. -/
def Reading.found (r : Reading) : Lexed := r.lexer.finish

/-- What a lexer finds in the end. -/
def Reading.outcome (r : Reading) : Lexed := lexFrom r.lexer r.rest

/-- **Rounds of the lexer.** As long as there is room for errors, the next lexeme is taken. -/
inductive Reading.Round : Reading → Reading → Prop where
  | blank {l : Lexer} {c : Char} {cs : List Char} (hroom : ¬ l.isFull = true)
    (hc : isBlank c = true) : Round ⟨l, c :: cs⟩ ⟨l.skip [c], cs⟩
  | comment {l : Lexer} {cs : List Char} (hroom : ¬ l.isFull = true)
    (hcs : cs.head? = some '/') :
    Round ⟨l, '/' :: cs⟩ ⟨l.skip ('/' :: cs.takeWhile (· ≠ '\n')), cs.dropWhile (· ≠ '\n')⟩
  | mark {l : Lexer} {c : Char} {cs : List Char} {k : TokenKind} (hroom : ¬ l.isFull = true)
    (hc : mark? c = some k) : Round ⟨l, c :: cs⟩ ⟨l.pushMark k c, cs⟩
  | literal {l : Lexer} {cs : List Char} (hroom : ¬ l.isFull = true) {s : StringScan}
    (hs : s = scanString l.position.column (l.position.advance 1) [] l.errors cs) :
    Round ⟨l, '"' :: cs⟩ ⟨l.pushString s, s.rest⟩
  | number {l : Lexer} {c : Char} {cs : List Char} (hroom : ¬ l.isFull = true)
    (hc : c.isDigit = true) :
    Round ⟨l, c :: cs⟩
      ⟨l.pushNumber (c :: cs.takeWhile Char.isDigit), cs.dropWhile Char.isDigit⟩
  | word {l : Lexer} {c : Char} {cs : List Char} (hroom : ¬ l.isFull = true)
    (hc : startsWord c = true) :
    Round ⟨l, c :: cs⟩
      ⟨l.pushWord (c :: cs.takeWhile continuesWord), cs.dropWhile continuesWord⟩
  /-- A character that begins nothing is reported. -/
  | reject {l : Lexer} {c : Char} {cs : List Char} (hroom : ¬ l.isFull = true)
    (hblank : isBlank c = false) (hcomment : ¬ (c = '/' ∧ cs.head? = some '/'))
    (hmark : mark? c = none) (hquote : c ≠ '"') (hdigit : c.isDigit = false)
    (hword : startsWord c = false) :
    Round ⟨l, c :: cs⟩ ⟨l.reject (String.utf8EncodeChar c), cs⟩

namespace Reading

variable {r r' : Reading}

/-- A round takes a character. -/
lemma Round.left_lt (h : Round r r') : r'.left < r.left := by
  have hdrop : ∀ (p : Char → Bool) (cs : List Char),
      (cs.dropWhile p).length < cs.length + 1 := fun p cs =>
    Nat.lt_succ_of_le (List.dropWhile_suffix p).length_le
  cases h with
  | blank | mark | reject => exact Nat.lt_succ_self _
  | comment | number | word => exact hdrop _ _
  | literal hroom hs => exact hs ▸ Nat.lt_succ_of_le (scanString_rest_le ..)

/-- **A round** is what the lexer does next. One case for each round. That the tests of the lexer
are made in this order is part of each case: the tests before the one that succeeds have failed. -/
theorem Round.outcome_eq (h : Round r r') : r.outcome = r'.outcome := by
  unfold outcome
  cases h with
  | blank hroom hc => rw [lexFrom, if_neg hroom, if_pos hc]
  | comment hroom hcs =>
    rw [lexFrom, if_neg hroom, if_neg (by decide), if_pos ⟨rfl, hcs⟩]
  | mark hroom hc =>
    obtain ⟨hblank, hslash⟩ := of_mark? hc
    rw [lexFrom, if_neg hroom, if_neg (by simp [hblank]), if_neg (by simp [hslash])]
    simp only [hc]
  | literal hroom hs =>
    subst hs
    rw [lexFrom, if_neg hroom, if_neg (by decide), if_neg (by simp)]
    simp only [show mark? '"' = none from rfl]
    rw [if_pos trivial]
  | number hroom hc =>
    obtain ⟨hblank, hslash, hmark, hquote⟩ := of_isDigit hc
    rw [lexFrom, if_neg hroom, if_neg (by simp [hblank]), if_neg (by simp [hslash])]
    simp only [hmark]
    rw [if_neg hquote, if_pos hc]
  | word hroom hc =>
    obtain ⟨hblank, hslash, hmark, hquote, hdigit⟩ := of_startsWord hc
    rw [lexFrom, if_neg hroom, if_neg (by simp [hblank]), if_neg (by simp [hslash])]
    simp only [hmark]
    rw [if_neg hquote, if_neg (by simp [hdigit]), if_pos hc]
  | reject hroom hblank hcomment hmark hquote hdigit hword =>
    rw [lexFrom, if_neg hroom, if_neg (by simp [hblank]), if_neg hcomment]
    simp only [hmark]
    rw [if_neg hquote, if_neg (by simp [hdigit]), if_neg (by simp [hword])]

/-- Where there is room for errors and a character is left, there is a round. The tests are made in
the order of the lexer, and what passes none of them is rejected, which is a round as well. -/
lemma exists_round {l : Lexer} (hroom : ¬ l.isFull = true) (c : Char) (cs : List Char) :
    ∃ r, Round ⟨l, c :: cs⟩ r := by
  by_cases hblank : isBlank c = true
  · exact ⟨_, .blank hroom hblank⟩
  by_cases hcomment : c = '/' ∧ cs.head? = some '/'
  · obtain ⟨rfl, hcs⟩ := hcomment
    exact ⟨_, .comment hroom hcs⟩
  cases hmark : mark? c with
  | some k => exact ⟨_, .mark hroom hmark⟩
  | none =>
    by_cases hquote : c = '"'
    · subst hquote
      exact ⟨_, .literal hroom rfl⟩
    by_cases hdigit : c.isDigit = true
    · exact ⟨_, .number hroom hdigit⟩
    by_cases hword : startsWord c = true
    · exact ⟨_, .word hroom hword⟩
    exact ⟨_, .reject hroom (by simpa using hblank) hcomment hmark hquote (by simpa using hdigit)
      (by simpa using hword)⟩

/-- A lexer that cannot go on has found all that it finds. -/
lemma outcome_of_stuck (h : ∀ r', ¬ Round r r') : r.outcome = r.found := by
  obtain ⟨l, rest⟩ := r
  unfold outcome found
  cases rest with
  | nil => rw [lexFrom]
  | cons c cs =>
    by_cases hroom : l.isFull = true
    · rw [lexFrom, if_pos hroom]
    · obtain ⟨r', hround⟩ := exists_round hroom c cs
      exact absurd hround (h r')

/-- **Lexing ends** within as many rounds as there are characters. -/
theorem endsIn_lex (text : String) :
    EndsIn Round found ⟨.start, text.toList⟩ text.toList.length (lex text) :=
  .of_measure (fun _ _ h => h.left_lt) (fun _ _ h => h.outcome_eq) (fun _ h => outcome_of_stuck h)
    ⟨.start, text.toList⟩

end Reading

/-! ### Rounds of the parser -/

/-- **Where a parser stands**: what it has found, the last first, and the tokens that are left. -/
structure ParserState where
  lines : List (Instruction × Span)
  errors : List Diagnostic
  rest : List Token

/-- How many tokens are left. -/
def ParserState.left (s : ParserState) : Nat := s.rest.length

/-- What a parser has found if it stops here. -/
def ParserState.found (s : ParserState) : Parsed := ⟨s.lines.reverse, s.errors.reverse⟩

/-- What a parser finds in the end. -/
def ParserState.outcome (s : ParserState) : Parsed := parseFrom s.lines s.errors s.rest

/-- **Rounds of the parser.** The end of a line is skipped; and as long as there is room for errors,
the next line is read, and what is left of it is skipped if it fails. -/
inductive ParserState.Round : ParserState → ParserState → Prop where
  | newline {ls : List (Instruction × Span)} {es : List Diagnostic} {t : Token} {ts : List Token}
    (ht : t.kind = .newline) : Round ⟨ls, es, t :: ts⟩ ⟨ls, es, ts⟩
  | read {ls : List (Instruction × Span)} {es : List Diagnostic} {t : Token} {ts : List Token}
    {i : Instruction} {c : Cursor} (ht : t.kind.endsLine = false)
    (hroom : es.length < DiagnosticLog.capacity) (hline : line t ⟨ts, t.span⟩ = .ok i c) :
    Round ⟨ls, es, t :: ts⟩ ⟨(i, t.span.merge c.last) :: ls, es, c.rest⟩
  | fail {ls : List (Instruction × Span)} {es : List Diagnostic} {t : Token} {ts : List Token}
    {d : Diagnostic} {c : Cursor} (ht : t.kind.endsLine = false)
    (hroom : es.length < DiagnosticLog.capacity) (hline : line t ⟨ts, t.span⟩ = .fail d c) :
    Round ⟨ls, es, t :: ts⟩ ⟨ls, d :: es, skipLine c.rest⟩

/-- **Ending.** No tokens, or the last one is an end of the input. -/
def EndsInput (ts : List Token) : Prop := ∀ t ∈ ts.getLast?, t.kind = .endOfInput

/-- Whether tokens end the input can be computed: only the last one is looked at. -/
instance (ts : List Token) : Decidable (EndsInput ts) :=
  inferInstanceAs (Decidable (∀ t ∈ ts.getLast?, t.kind = .endOfInput))

namespace ParserState

variable {s s' : ParserState}

/-- **Taking tokens.** Tokens are taken off those that are left, and none of them is the end of the
input. -/
def Takes (ts rest : List Token) : Prop :=
  ∃ taken, ts = taken ++ rest ∧ ∀ t ∈ taken, t.kind ≠ .endOfInput

/-- Tokens that are taken, and then more tokens, are tokens that are taken. -/
lemma Takes.trans {ts ts' ts'' : List Token} (h : Takes ts ts') (h' : Takes ts' ts'') :
    Takes ts ts'' := by
  obtain ⟨taken, rfl, htaken⟩ := h
  obtain ⟨taken', rfl, htaken'⟩ := h'
  exact ⟨taken ++ taken', (List.append_assoc ..).symm, List.forall_mem_append.2 ⟨htaken, htaken'⟩⟩

/-- The tokens of a line are taken until it is read, or until it fails. -/
lemma takes_line (t : Token) (ts : List Token) : Takes ts (line t ⟨ts, t.span⟩).next.rest := by
  obtain ⟨taken, hrest, htaken, -⟩ := Cursor.exists_taken (passes_line t ⟨ts, t.span⟩)
  exact ⟨taken, hrest, htaken⟩

/-- What is left of a line is skipped. -/
lemma takes_skipLine (ts : List Token) : Takes ts (skipLine ts) := by
  refine ⟨ts.takeWhile fun t => !t.kind.endsLine, List.takeWhile_append_dropWhile.symm, ?_⟩
  intro t ht hkind
  have hline := List.all_eq_true.1 List.all_takeWhile t ht
  simp [hkind, TokenKind.endsLine] at hline

/-- What does not end a line is not the end of the input, and no line break either. -/
lemma of_endsLine {t : Token} (ht : t.kind.endsLine = false) :
    t.kind ≠ .endOfInput ∧ t.kind ≠ .newline := by
  constructor <;> intro heq <;> simp [heq, TokenKind.endsLine] at ht

/-- **A round** takes at least one token, and it finds at most one instruction or, where there is
room, one error. -/
theorem Round.spec (h : Round s s') :
    (∃ t ts, s.rest = t :: ts ∧ t.kind ≠ .endOfInput ∧ Takes ts s'.rest) ∧
      s'.lines.length + s'.errors.length ≤ s.lines.length + s.errors.length + 1 ∧
      (s.errors.length ≤ DiagnosticLog.capacity → s'.errors.length ≤ DiagnosticLog.capacity) := by
  cases h with
  | newline ht => exact ⟨⟨_, _, rfl, by simp [ht], [], rfl, by simp⟩, Nat.le_succ _, id⟩
  | @read ls es t ts i c ht hroom hline =>
    have htakes := takes_line t ts
    rw [hline] at htakes
    refine ⟨⟨t, ts, rfl, (of_endsLine ht).1, htakes⟩, ?_, id⟩
    simp only [List.length_cons]
    omega
  | @fail ls es t ts d c ht hroom hline =>
    have htakes := takes_line t ts
    rw [hline] at htakes
    exact ⟨⟨t, ts, rfl, (of_endsLine ht).1, htakes.trans (takes_skipLine _)⟩, Nat.le_refl _,
      fun _ => hroom⟩

/-- A round leaves fewer tokens. -/
lemma Round.left_lt (h : Round s s') : s'.left < s.left := by
  obtain ⟨t, rest, hrest, -, taken, rfl, -⟩ := h.spec.1
  rw [left, left, hrest, List.length_cons, List.length_append]
  omega

/-- **A round** is what the parser does next. One case for each round: a line break is skipped, a
line is read, or a line fails and the rest of it is skipped. -/
theorem Round.outcome_eq (h : Round s s') : s.outcome = s'.outcome := by
  unfold outcome
  cases h with
  | newline ht => rw [parseFrom, if_pos ht]
  | read ht hroom hline =>
    obtain ⟨hinput, hnewline⟩ := of_endsLine ht
    rw [parseFrom, if_neg hnewline, if_neg (by simp [hinput, hroom])]
    split <;> rename_i heq <;> simp [hline] at heq
    obtain ⟨rfl, rfl⟩ := heq
    rfl
  | fail ht hroom hline =>
    obtain ⟨hinput, hnewline⟩ := of_endsLine ht
    rw [parseFrom, if_neg hnewline, if_neg (by simp [hinput, hroom])]
    split <;> rename_i heq <;> simp [hline] at heq
    obtain ⟨rfl, rfl⟩ := heq
    rfl

/-- A parser that cannot go on has found all that it finds. If there were a line to read, a line
break to skip or a token of another kind, there would be a round; so the input is at its end, or the
log is full. -/
lemma outcome_of_stuck (h : ∀ s', ¬ Round s s') : s.outcome = s.found := by
  obtain ⟨ls, es, rest⟩ := s
  unfold outcome
  cases rest with
  | nil => rw [parseFrom, found]
  | cons t ts =>
    by_cases hnewline : t.kind = .newline
    · exact absurd (.newline hnewline) (h _)
    rw [parseFrom, if_neg hnewline]
    by_cases hend : t.kind = .endOfInput ∨ DiagnosticLog.capacity ≤ es.length
    · rw [if_pos hend, found]
    · push Not at hend
      have ht : t.kind.endsLine = false := by
        cases hk : t.kind <;> simp_all [TokenKind.endsLine]
      cases hline : line t ⟨ts, t.span⟩ with
      | ok i c => exact absurd (.read ht hend.2 hline) (h _)
      | fail d c => exact absurd (.fail ht hend.2 hline) (h _)

/-- **Parsing ends** within as many rounds as there are tokens. -/
theorem endsIn_parse (ts : List Token) : EndsIn Round found ⟨[], [], ts⟩ ts.length (parse ts) :=
  .of_measure (fun _ _ h => h.left_lt) (fun _ _ h => h.outcome_eq) (fun _ h => outcome_of_stuck h)
    ⟨[], [], ts⟩

/-- **Within the input.** All that a parser has found it has found in the tokens that it has taken,
of which none is the end of the input, and there is always room for the errors. -/
structure Within (ts : List Token) (s : ParserState) : Prop where
  takes : Takes ts s.rest
  length_le : s.lines.length + s.errors.length + s.rest.length ≤ ts.length
  errors_le : s.errors.length ≤ DiagnosticLog.capacity

/-- A round stays within the input. -/
theorem Round.within {ts : List Token} (h : Round s s') (hs : Within ts s) : Within ts s' := by
  obtain ⟨⟨t, rest, hrest, ht, htakes⟩, hfound, herrors⟩ := h.spec
  have hfirst : Takes s.rest s'.rest :=
    .trans ⟨[t], hrest, List.forall_mem_singleton.2 ht⟩ htakes
  refine ⟨hs.takes.trans hfirst, ?_, herrors hs.errors_le⟩
  obtain ⟨taken, rfl, -⟩ := htakes
  have hlength := hs.length_le
  rw [hrest, List.length_cons, List.length_append] at hlength
  omega

/-- All rounds stay within the input. -/
theorem within_of_reach {ts : List Token} (h : ReflTransGen Round ⟨[], [], ts⟩ s) :
    Within ts s := by
  induction h with
  | refl => exact ⟨⟨[], rfl, by simp⟩, by simp, Nat.zero_le _⟩
  | tail _ hround ih => exact hround.within ih

/-- **The end of the input** is never taken, if it is the last token. -/
lemma Takes.ne_nil {ts rest : List Token} (h : Takes ts rest) (hts : EndsInput ts)
    (hne : ts ≠ []) : rest ≠ [] := by
  rintro rfl
  obtain ⟨taken, rfl, htaken⟩ := h
  rw [List.append_nil] at hts hne
  exact htaken _ (List.getLast_mem hne) (hts _ (List.getLast?_eq_some_getLast hne))

end ParserState

/-! ### Texts -/

/-- **Lexing and parsing end.** Every text is read within as many rounds as it has characters, and
then its tokens are those of the lexer: the last is an end of the input and no other one is, also
if there were too many errors. And whatever tokens there are, if there are none or the last is an
end of the input, they are parsed within as many rounds as there are tokens; then at most twenty
errors are recorded, and there are no more instructions and errors than tokens. On the way there
is always a token left, and it is one of those that were given.

**Proof sketch.** A round of the parser takes its first token and then passes others one by one,
but never the end of the input. So the last token is not taken. -/
theorem lex_parse_end :
    (∀ text : String,
      EndsIn Reading.Round Reading.found ⟨.start, text.toList⟩ text.toList.length (lex text) ∧
      (∃ (ts : List Token) (last : Token), (lex text).tokens = ts ++ [last] ∧
        last.kind = .endOfInput ∧ ∀ t ∈ ts, t.kind ≠ .endOfInput) ∧
      EndsInput (lex text).tokens) ∧
    ∀ ts : List Token, EndsInput ts →
      EndsIn ParserState.Round ParserState.found ⟨[], [], ts⟩ ts.length (parse ts) ∧
      (parse ts).errors.length ≤ 20 ∧
      (parse ts).lines.length + (parse ts).errors.length ≤ ts.length ∧
      ∀ s, ReflTransGen ParserState.Round ⟨[], [], ts⟩ s →
        s.rest <:+ ts ∧ (ts ≠ [] → s.rest ≠ []) := by
  refine ⟨fun text => ?_, fun ts hts => ?_⟩
  · obtain ⟨ts, last, htokens, hlast, hts⟩ := exists_tokens_lex text
    refine ⟨Reading.endsIn_lex text, ⟨ts, last, htokens, hlast, hts⟩, fun t ht => ?_⟩
    rw [htokens, List.getLast?_concat] at ht
    exact Option.some.inj ht ▸ hlast
  · have hends := ParserState.endsIn_parse ts
    obtain ⟨last, hreach, hlast⟩ := hends.stops
    obtain ⟨-, hlength, herrors⟩ := ParserState.within_of_reach hreach
    have hparse := hends.result_eq last hreach hlast
    rw [← hparse]
    refine ⟨hparse ▸ hends, ?_, ?_, fun s hs => ?_⟩
    · simpa [ParserState.found, DiagnosticLog.capacity] using herrors
    · simp only [ParserState.found, List.length_reverse]
      omega
    · have htakes := (ParserState.within_of_reach hs).takes
      refine ⟨?_, htakes.ne_nil hts⟩
      obtain ⟨taken, htaken, -⟩ := htakes
      exact ⟨taken, htaken.symm⟩

/-- Tokens with an end of the input among them, in the middle of a line that cannot be read. -/
def endedTwice : List Token :=
  [.closeBrace, .newline, .wait, .endOfInput, .closeBrace, .endOfInput].map (⟨·, default⟩)

/-- The tokens are parsed up to their first end of the input. -/
theorem lex_parse_end_endedTwice : EndsInput endedTwice ∧
    EndsIn ParserState.Round ParserState.found ⟨[], [], endedTwice⟩ 6 (parse endedTwice) ∧
    (parse endedTwice).lines.map Prod.fst = [.close] ∧
    (parse endedTwice).errors.length = 1 ∧
    (parse endedTwice).lines.length + (parse endedTwice).errors.length ≤ 6 := by
  have hends : EndsInput endedTwice := by decide
  obtain ⟨hparse, -, hlength, -⟩ := lex_parse_end.2 endedTwice hends
  exact ⟨hends, hparse, by decide +kernel, by decide +kernel, hlength⟩

end Listing

end StickerBot
