import StickerBot.Proofs.Listing.Lexing
import StickerBot.Proofs.Listing.Octets
set_option autoImplicit false

/-!
# Lexemes

The lexer takes a text apart into lexemes: blanks, comments, tokens, and the octets of characters
that begin nothing. What it finds are the tokens among them, each with the span of its extent, and
what is wrong with each, up to the octet where it was noticed. The lexemes follow each other without
a gap, and if they do not reach the end of the text, there are as many errors as a log stores.

A lexeme is described by its characters and those after it: a word or a number goes as far as it
can, a comment up to the end of its line, and a string literal up to a quote, or unterminated up to
the end of a line that no backslash precedes.

## Main definitions

* `Listing.Lexeme` — what the lexer takes off a text at once.
* `Listing.Quoted` — the rest of a string literal.
* `Listing.IsLexeme` — the lexemes that begin with the next character.
* `Listing.Cuts` — a text is cut into lexemes.

## Main results

* `Listing.scanString_spec` — what the lexer reads as the rest of a string literal.
* `Listing.lexFrom_spec` — the lexer finds the tokens and errors of lexemes into which the text is
  cut.
* `Listing.Cuts.of_mem` — a lexeme of a text is one where it stands, or a single octet.
-/

namespace StickerBot.Listing

/-! ### Lexemes -/

/-- **Lexemes.** What the lexer takes off a text at once. -/
structure Lexeme where
  extent : Extent
  /-- The token that it is, if it is one. -/
  kind? : Option TokenKind
  /-- What is wrong with it, each with what had been read of it when that was noticed. -/
  errors : List (LexError × Extent)

namespace Lexeme

/-- The token of a lexeme, if it is one. -/
def token? (x : Lexeme) : Option Token := x.kind?.map fun k => ⟨k, x.extent.span⟩

/-- The diagnostics of a lexeme. -/
def diagnostics (x : Lexeme) : List Diagnostic := x.errors.map fun e => e.1.diagnose e.2.span

/-- An octet that begins nothing. -/
def stray (before : List UInt8) (b : UInt8) : Lexeme :=
  ⟨⟨before, [b]⟩, none, [(.unexpectedCharacter (Char.ofNat b.toNat), ⟨before, [b]⟩)]⟩

/-- Octets that begin nothing. -/
def strays (before : List UInt8) : List UInt8 → List Lexeme
  | [] => []
  | b :: bs => stray before b :: strays (before ++ [b]) bs

/-- Octets that begin no token are lexemes of their own, one for each octet. -/
lemma of_mem_strays {x : Lexeme} {bs : List UInt8} :
    ∀ {before}, x ∈ strays before bs → ∃ before b, x = stray before b := by
  induction bs with
  | nil => simp [strays]
  | cons b bs ih =>
    intro before hx
    rcases List.mem_cons.1 hx with rfl | hx
    · exact ⟨before, b, rfl⟩
    · exact ih hx

/-- No stray octet is a token. -/
lemma filterMap_strays (bs : List UInt8) :
    ∀ before, (strays before bs).filterMap token? = [] := by
  induction bs with
  | nil => exact fun _ => rfl
  | cons b bs ih => exact fun before => ih (before ++ [b])

end Lexeme

/-- **The rest of a string literal**, of which some characters are read already: its characters,
those after it, the text it stands for, and what is wrong with it. -/
inductive Quoted (before : List UInt8) :
    List Char → List Char → List Char → List Char → List (LexError × Extent) → Prop where
  /-- The quote at the end. -/
  | closed (read rest : List Char) : Quoted before read ['"'] rest [] []
  /-- The line ends first. -/
  | unterminated {read rest : List Char} (h : Stops (· ≠ '\n') rest) :
    Quoted before read [] rest [] [(.unterminatedString, ⟨before, octets read⟩)]
  /-- The text ends behind a backslash. -/
  | cut (read : List Char) :
    Quoted before read ['\\'] [] []
      [(.unterminatedString, ⟨before, octets (read ++ ['\\'])⟩)]
  /-- A character that stands for itself. -/
  | plain {c : Char} {read body rest text : List Char} {errors : List (LexError × Extent)}
    (hc : c ≠ '"' ∧ c ≠ '\\' ∧ c ≠ '\n')
    (h : Quoted before (read ++ [c]) body rest text errors) :
    Quoted before read (c :: body) rest (c :: text) errors
  /-- A character that means another behind a backslash. -/
  | escaped {c d : Char} {read body rest text : List Char} {errors : List (LexError × Extent)}
    (hc : unescape? c = some d)
    (h : Quoted before (read ++ ['\\', c]) body rest text errors) :
    Quoted before read ('\\' :: c :: body) rest (d :: text) errors
  /-- A character that means nothing behind a backslash, noticed at its first octet. -/
  | unknown {c : Char} {read body rest text : List Char} {errors : List (LexError × Extent)}
    (hc : unescape? c = none)
    (h : Quoted before (read ++ ['\\', c]) body rest text errors) :
    Quoted before read ('\\' :: c :: body) rest (c :: text)
      ((.unknownEscape (firstOctet c),
        ⟨before, octets (read ++ ['\\']) ++ (String.utf8EncodeChar c).take 1⟩) :: errors)

/-- **The lexemes**: their characters, those after them, the tokens that they are, and what is wrong
with them. -/
inductive IsLexeme (before : List UInt8) :
    List Char → List Char → Option TokenKind → List (LexError × Extent) → Prop where
  | blank {c : Char} {rest : List Char} (h : isBlank c = true) :
    IsLexeme before [c] rest none []
  | comment {body rest : List Char} (hbody : '\n' ∉ body) (hrest : Stops (· ≠ '\n') rest) :
    IsLexeme before ('/' :: '/' :: body) rest none []
  | mark {c : Char} {k : TokenKind} {rest : List Char} (h : mark? c = some k) :
    IsLexeme before [c] rest (some k) []
  | word {c : Char} {cs rest : List Char} (hc : startsWord c = true)
    (hcs : ∀ d ∈ cs, continuesWord d = true) (hrest : Stops continuesWord rest) :
    IsLexeme before (c :: cs) rest (some (.ofWord (String.ofList (c :: cs)))) []
  | number {c : Char} {cs rest : List Char} (hcs : ∀ d ∈ c :: cs, d.isDigit = true)
    (hrest : Stops Char.isDigit rest)
    (hfits : (Nat.ofDigitChars 10 (c :: cs) 0 : Int) ≤ Int64.maxValue.toInt) :
    IsLexeme before (c :: cs) rest (some (.integer (Nat.ofDigitChars 10 (c :: cs) 0))) []
  /-- A number that is too large counts as zero. -/
  | hugeNumber {c : Char} {cs rest : List Char} (hcs : ∀ d ∈ c :: cs, d.isDigit = true)
    (hrest : Stops Char.isDigit rest)
    (hhuge : ¬ (Nat.ofDigitChars 10 (c :: cs) 0 : Int) ≤ Int64.maxValue.toInt) :
    IsLexeme before (c :: cs) rest (some (.integer 0))
      [(.numberTooLarge (String.ofList (c :: cs)), ⟨before, octets (c :: cs)⟩)]
  | literal {body rest text : List Char} {errors : List (LexError × Extent)}
    (h : Quoted before ['"'] body rest text errors) :
    IsLexeme before ('"' :: body) rest (some (.string (String.ofList text))) errors

/-- No lexeme begins with a character, if others follow it. -/
def BeginsNothing (c : Char) (cs : List Char) : Prop :=
  ∀ before word rest k? errors, IsLexeme before word rest k? errors → word ++ rest ≠ c :: cs

/-- **Cutting.** The characters behind some octets are cut into lexemes, up to some octet. A
character that begins no lexeme is cut into its octets. -/
inductive Cuts : List UInt8 → List Char → List Lexeme → List UInt8 → Prop where
  | stop (before : List UInt8) (cs : List Char) : Cuts before cs [] before
  | lexeme {before stop : List UInt8} {word rest : List Char} {k? : Option TokenKind}
    {errors : List (LexError × Extent)} {xs : List Lexeme}
    (h : IsLexeme before word rest k? errors) (hxs : Cuts (before ++ octets word) rest xs stop) :
    Cuts before (word ++ rest) (⟨⟨before, octets word⟩, k?, errors⟩ :: xs) stop
  | stray {before stop : List UInt8} {c : Char} {cs : List Char} {xs : List Lexeme}
    (hc : BeginsNothing c cs)
    (hxs : Cuts (before ++ String.utf8EncodeChar c) cs xs stop) :
    Cuts before (c :: cs) (Lexeme.strays before (String.utf8EncodeChar c) ++ xs) stop
  /-- The lexer may stop within a character. -/
  | strayPart {before : List UInt8} {c : Char} {bs : List UInt8} {cs : List Char}
    (hc : BeginsNothing c cs) (hbs : bs <+: String.utf8EncodeChar c) :
    Cuts before (c :: cs) (Lexeme.strays before bs) (before ++ bs)

/-! ### String literals -/

/-- Going on behind a place. -/
lemma afterAll_behind {before : List UInt8} {p : Position} (hp : p = Position.behind before)
    (w : List Char) : p.afterAll w = Position.behind (before ++ octets w) := by
  rw [Position.behind_octets, hp]

/-- Going on behind characters that are read. -/
lemma behind_read {before : List UInt8} {read : List Char} {p : Position}
    (hp : p = Position.behind (before ++ octets read)) (w : List Char) :
    p.afterAll w = Position.behind (before ++ octets (read ++ w)) := by
  rw [octets_append, ← List.append_assoc, afterAll_behind hp]

/-- What begins with no line break is no line break, and shown from the column where it begins. -/
lemma spanFrom_read {c : Char} (hc : c ≠ '\n') {read : List Char} (h : read.head? = some c)
    (before bs : List UInt8) :
    (Position.behind (before ++ (octets read ++ bs))).spanFrom (Position.behind before).column =
      (Extent.mk before (octets read ++ bs)).span := by
  refine Extent.span_of_ne (s := ⟨before, octets read ++ bs⟩) fun hbreak => ?_
  cases read with
  | nil => simp at h
  | cons d cs =>
    obtain rfl := Option.some.inj h
    have hmem := lineBreak_not_mem hc
    obtain ⟨b, rest, hbs⟩ := List.exists_cons_of_ne_nil (String.utf8EncodeChar_ne_nil (c := d))
    simp only [octets_cons, hbs, List.cons_append, List.cons.injEq] at hbreak
    exact hmem (by rw [hbs, hbreak.1]; exact List.mem_cons_self ..)

/-- So is what is read, up to where the lexer stands. -/
lemma spanFrom_all {c : Char} (hc : c ≠ '\n') {read : List Char} (h : read.head? = some c)
    {before : List UInt8} {p : Position} (hp : p = Position.behind (before ++ octets read)) :
    p.spanFrom (Position.behind before).column = (Extent.mk before (octets read)).span := by
  have hspan := spanFrom_read hc h before []
  rwa [List.append_nil, ← hp] at hspan

/-- A character with a meaning behind a backslash is a single octet on the line. -/
lemma after_of_unescape? {c d : Char} (h : unescape? c = some d) (p : Position) :
    p.after c = p.advance 1 := by
  unfold unescape? at h
  split at h <;> first | rfl | simp at h

/-- Behind the first octet of a character that does not end the line. -/
lemma behind_take_one {c : Char} (h : c ≠ '\n') (bs : List UInt8) :
    Position.behind (bs ++ (String.utf8EncodeChar c).take 1) = (Position.behind bs).advance 1 := by
  have hmem : lineBreak ∉ (String.utf8EncodeChar c).take 1 := fun hmem =>
    lineBreak_not_mem h (List.mem_of_mem_take hmem)
  rw [Position.behind_append_of_not_mem bs hmem, List.length_take, String.length_utf8EncodeChar,
    Nat.min_eq_left c.utf8Size_pos]

/-- An unknown escape is shown up to the first octet behind the backslash. -/
lemma reported_eq {bs bs' : List UInt8} {c : Char} (p : Position)
    (hp : p = Position.behind (bs ++ bs')) (column : Nat) :
    (if c = '\n' then (p.after c).spanFrom column else (p.advance 1).spanFrom column) =
      (Position.behind (bs ++ (bs' ++ (String.utf8EncodeChar c).take 1))).spanFrom column := by
  rw [← List.append_assoc]
  split
  · rename_i h
    rw [hp, h, utf8EncodeChar_newline, ← Position.behind_append_char, utf8EncodeChar_newline]
    rfl
  · rename_i h
    rw [hp, behind_take_one h]

/-- What is found in the rest of a string literal, of which some characters are read already. -/
def Scans (before : List UInt8) (read cs text : List Char) (errors : List Diagnostic)
    (s : StringScan) : Prop :=
  ∃ body new found, cs = body ++ s.rest ∧ Quoted before read body s.rest new found ∧
    s.position = Position.behind (before ++ octets (read ++ body)) ∧
    s.text = new.reverse ++ text ∧
    s.errors = (found.map fun e => e.1.diagnose e.2.span).reverse ++ errors

section Scans

variable {before : List UInt8} {read cs text : List Char} {errors : List Diagnostic}
  {s : StringScan}

/-- One character after the other, with what is wrong with it. -/
lemma Scans.cons (w : List Char) {d : Char} (es : List (LexError × Extent))
    (hquoted : ∀ body rest new found, Quoted before (read ++ w) body rest new found →
      Quoted before read (w ++ body) rest (d :: new) (es ++ found))
    (h : Scans before (read ++ w) cs (d :: text)
      ((es.map fun e => e.1.diagnose e.2.span).reverse ++ errors) s) :
    Scans before read (w ++ cs) text errors s := by
  obtain ⟨body, new, found, hcs, hbody, hposition, htext, herrors⟩ := h
  refine ⟨w ++ body, d :: new, es ++ found, ?_, hquoted _ _ _ _ hbody, ?_, ?_, ?_⟩
  · rw [List.append_assoc, ← hcs]
  · rw [hposition, List.append_assoc]
  · rw [htext, List.reverse_cons, List.append_assoc, List.singleton_append]
  · rw [herrors, List.map_append, List.reverse_append, List.append_assoc]

/-- **String literals.** The lexer reads the rest of a string literal, and comes to its end.

**Proof sketch.** Along the recursion. What grows are the characters that are read. -/
theorem scanString_spec (column : Nat) (p : Position) (hread : read.head? = some '"')
    (hcolumn : column = (Position.behind before).column)
    (hp : p = Position.behind (before ++ octets read)) :
    Scans before read cs text errors (scanString column p text errors cs) := by
  subst hcolumn
  have hgo : ∀ w, (read ++ w).head? = some '"' := fun w => by
    rw [List.head?_append, hread, Option.some_or]
  fun_induction scanString (Position.behind before).column p text errors cs generalizing read with
  | case1 p text errors =>
    exact ⟨[], [], _, rfl, .unterminated (by simp [Stops]), by rw [List.append_nil, hp], rfl,
      by rw [spanFrom_all (by decide) hread hp]; rfl⟩
  | case2 p text errors =>
    have hnext : p.advance 1 = _ := behind_read hp ['\\']
    have hspan := spanFrom_all (by decide) (hgo ['\\']) hnext
    exact ⟨['\\'], [], _, rfl, .cut read, hnext, rfl, by dsimp only; rw [hspan]; rfl⟩
  | case3 p text errors c cs d hd ih =>
    have hnext : p.advance 2 = p.afterAll ['\\', c] :=
      (after_of_unescape? hd (p.advance 1)).symm
    refine Scans.cons ['\\', c] [] (fun _ _ _ _ h => .escaped hd h) ?_
    exact ih (hgo _) (hnext.trans (behind_read hp _)) fun w => by rw [List.append_assoc, hgo]
  | case4 p text errors c cs hd reported =>
    rename_i ih
    have hslash : p.advance 1 = _ := behind_read hp ['\\']
    have hspan : reported = _ :=
      (reported_eq (p.advance 1) hslash _).trans (spanFrom_read (by decide) (hgo ['\\']) before _)
    rw [hspan] at ih ⊢
    refine Scans.cons ['\\', c] [(_, _)] (fun _ _ _ _ h => .unknown hd h) ?_
    exact ih (hgo _) (behind_read hp ['\\', c]) fun w => by rw [List.append_assoc, hgo]
  | case5 p text errors cs hcut hslash =>
    exact ⟨['"'], [], [], rfl, .closed read cs, behind_read hp ['"'], rfl, rfl⟩
  | case6 p text errors cs hcut hslash hquote =>
    exact ⟨[], [], _, rfl, .unterminated (stops_cons (by decide) cs),
      by rw [List.append_nil, hp], rfl, by rw [spanFrom_all (by decide) hread hp]; rfl⟩
  | case7 p text errors c cs hcut hslash hquote hbreak ih =>
    have hplain : c ≠ '\\' := fun hc => by
      cases cs with
      | nil => exact hcut hc rfl
      | cons d cs => exact hslash d cs hc rfl
    refine Scans.cons [c] [] (fun _ _ _ _ h => .plain ⟨hquote, hplain, hbreak⟩ h) ?_
    exact ih (hgo _) (behind_read hp [c]) fun w => by rw [List.append_assoc, hgo]

end Scans

/-! ### Characters on one line -/

/-- What may begin a word may go on with it. -/
lemma continuesWord_of_startsWord {c : Char} {cs : List Char} (hc : startsWord c = true)
    (hcs : ∀ d ∈ cs, continuesWord d = true) : ∀ d ∈ c :: cs, continuesWord d = true :=
  List.forall_mem_cons.2 ⟨continuesWord_iff.2 (.inl (startsWord_iff.1 hc)), hcs⟩

/-- Letters, digits and underscores are single octets. -/
lemma after_of_continuesWord {c : Char} (h : continuesWord c = true) (p : Position) :
    c ≠ '\n' ∧ p.after c = p.advance 1 := by
  have hlow : c.val ≤ 'z'.val := by
    rcases continuesWord_iff.1 h with (⟨-, h⟩ | ⟨-, h⟩ | rfl) | ⟨-, h⟩
    · exact h
    · exact UInt32.le_trans h (by decide)
    · decide
    · exact UInt32.le_trans h (by decide)
  have hbreak : c ≠ '\n' := fun hc => absurd (hc ▸ h) (by decide)
  have hsize : c.utf8Size = 1 := if_pos (UInt32.le_trans hlow (by decide))
  exact ⟨hbreak, by rw [Position.after, if_neg hbreak, hsize]⟩

/-- Marks are single octets. -/
lemma after_of_mark? {c : Char} {k : TokenKind} (h : mark? c = some k) (hc : c ≠ '\n')
    (p : Position) : p.after c = p.advance 1 := by
  unfold mark? at h
  split at h <;> first | rfl | exact absurd rfl hc | simp at h

/-- Behind a word or a number. -/
lemma afterAll_of_continuesWord {cs : List Char} (h : ∀ c ∈ cs, continuesWord c = true) :
    ∀ p : Position, p.afterAll cs = p.advance cs.length := by
  induction cs with
  | nil => intro p; rfl
  | cons c cs ih =>
    intro p
    obtain ⟨hc, hcs⟩ := List.forall_mem_cons.1 h
    show (p.after c).afterAll cs = _
    rw [(after_of_continuesWord hc p).2, ih hcs]
    simp only [Position.advance, List.length_cons, Nat.add_assoc, Nat.add_comm 1]

/-- Characters of a class are taken up to where what is left does not go on with them. -/
lemma taken_while (p : Char → Bool) (c : Char) (cs : List Char) :
    c :: cs = (c :: cs.takeWhile p) ++ cs.dropWhile p ∧ (∀ d ∈ cs.takeWhile p, p d = true) ∧
      Stops p (cs.dropWhile p) := by
  refine ⟨?_, fun d hd => List.mem_takeWhile_imp hd, fun d hd => ?_⟩
  · rw [List.cons_append, List.takeWhile_append_dropWhile]
  · have h := List.head?_dropWhile_not p cs
    rw [hd] at h
    exact h

/-! ### Steps of the lexer -/

/-- What a result of lexing is, if some octets were read before: it ends with the tokens and errors
of the lexemes into which the characters are cut. If these do not reach the end of the text, there
are as many errors as a log stores. -/
def Lexer.Finds (l : Lexer) (before : List UInt8) (cs : List Char) (found : Lexed) : Prop :=
  ∃ xs stop, Cuts before cs xs stop ∧
    found.tokens = l.tokens.reverse ++ xs.filterMap Lexeme.token? ++
      [⟨.endOfInput, (Extent.mk stop []).span⟩] ∧
    found.errors = l.errors.reverse ++ xs.flatMap Lexeme.diagnostics ∧
    (stop = before ++ octets cs ∨ DiagnosticLog.capacity ≤ found.errors.length)

namespace Lexer

variable {l l' : Lexer} {before : List UInt8} {found : Lexed}

/-- Where the lexer stops, the input ends. -/
lemma tokens_finish (hl : l.position = Position.behind before) :
    l.finish.tokens = l.tokens.reverse ++ [⟨.endOfInput, (Extent.mk before []).span⟩] := by
  rw [finish, hl, List.reverse_cons]
  simp [Extent.span, Extent.upTo, Position.spanFrom, Span.point]

/-- A lexer that is full has as many errors as a log stores. -/
lemma capacity_le_of_isFull (h : l.isFull = true) :
    DiagnosticLog.capacity ≤ l.finish.errors.length := by
  simpa [isFull, finish] using h

/-- The lexer stops at the end of the text, or as soon as it is full. -/
lemma finds_finish (hl : l.position = Position.behind before) {cs : List Char}
    (h : cs = [] ∨ l.isFull = true) : l.Finds before cs l.finish := by
  refine ⟨[], before, .stop before cs, ?_, ?_, h.imp (fun h => ?_) capacity_le_of_isFull⟩
  · rw [tokens_finish hl, List.filterMap_nil, List.append_nil]
  · rw [finish, List.flatMap_nil, List.append_nil]
  · rw [h, octets_nil, List.append_nil]

/-- **One lexeme.** Behind it the lexer finds what is left. -/
lemma Finds.cons {word rest : List Char} {k? : Option TokenKind}
    {errors : List (LexError × Extent)} (hx : IsLexeme before word rest k? errors)
    (h : l'.Finds (before ++ octets word) rest found)
    (htokens : l'.tokens =
      (k?.map fun k => ⟨k, (Extent.mk before (octets word)).span⟩).toList ++ l.tokens)
    (herrors : l'.errors = (errors.map fun e => e.1.diagnose e.2.span).reverse ++ l.errors) :
    l.Finds before (word ++ rest) found := by
  obtain ⟨xs, stop, hxs, htokens', herrors', hstop⟩ := h
  refine ⟨_, stop, .lexeme hx hxs, ?_, ?_, ?_⟩
  · rw [htokens', htokens, List.filterMap_cons]
    cases k? <;> simp [Lexeme.token?]
  · rw [herrors', herrors]
    simp [Lexeme.diagnostics]
  · rwa [octets_append, ← List.append_assoc]

/-- A character that begins nothing, of which all octets are reported. -/
lemma Finds.stray {c : Char} {cs : List Char} (hc : BeginsNothing c cs)
    (h : l'.Finds (before ++ String.utf8EncodeChar c) cs found) (htokens : l'.tokens = l.tokens)
    (herrors : l'.errors = ((Lexeme.strays before (String.utf8EncodeChar c)).flatMap
      Lexeme.diagnostics).reverse ++ l.errors) :
    l.Finds before (c :: cs) found := by
  obtain ⟨xs, stop, hxs, htokens', herrors', hstop⟩ := h
  refine ⟨_, stop, .stray hc hxs, ?_, ?_, ?_⟩
  · rw [htokens', htokens, List.filterMap_append, Lexeme.filterMap_strays, List.nil_append]
  · rw [herrors', herrors, List.flatMap_append, List.reverse_append, List.reverse_reverse,
      List.append_assoc]
  · rwa [octets_cons, ← List.append_assoc]

/-- **Strays.** The octets of a character that begins nothing are reported one by one, as long as
there is room. -/
lemma reject_spec (bs : List UInt8) : ∀ (l : Lexer) (before : List UInt8),
    l.position = Position.behind before → lineBreak ∉ bs → ∃ taken, taken <+: bs ∧
      (l.reject bs).position = Position.behind (before ++ taken) ∧
      (l.reject bs).errors =
        ((Lexeme.strays before taken).flatMap Lexeme.diagnostics).reverse ++ l.errors ∧
      (taken = bs ∨ (l.reject bs).isFull = true) := by
  induction bs with
  | nil =>
    intro l before hl _
    exact ⟨[], List.prefix_rfl, by rw [List.append_nil]; exact hl, rfl, .inl rfl⟩
  | cons b bs ih =>
    intro l before hl hbs
    rw [List.mem_cons, not_or] at hbs
    obtain ⟨hb, hbs⟩ := hbs
    rw [reject]
    split
    · rename_i hfull
      exact ⟨[], List.nil_prefix, by rw [List.append_nil]; exact hl, rfl, .inr hfull⟩
    · have hnext : l.position.advance 1 = Position.behind (before ++ [b]) := by
        rw [Position.behind_append_of_not_mem before (by simpa using hb), hl]
        rfl
      have hspan : (l.position.advance 1).spanFrom l.position.column =
          (Extent.mk before [b]).span := by
        rw [hnext, hl]
        exact Extent.span_of_ne (s := ⟨before, [b]⟩) (by simpa using Ne.symm hb)
      obtain ⟨taken, htaken, hposition, herrors, hend⟩ := ih { l with
        position := l.position.advance 1
        errors := (LexError.unexpectedCharacter (Char.ofNat b.toNat)).diagnose
          ((l.position.advance 1).spanFrom l.position.column) :: l.errors } _ hnext hbs
      refine ⟨b :: taken, List.cons_prefix_cons.2 ⟨rfl, htaken⟩, ?_, ?_, ?_⟩
      · rw [hposition, List.append_assoc, List.singleton_append]
      · rw [herrors, hspan]
        simp [Lexeme.strays, Lexeme.stray, Lexeme.diagnostics]
      · exact hend.imp (congrArg (b :: ·)) id

section Kinds

variable {c : Char} {cs rest : List Char}

/-- The span from the beginning of a word to its end. -/
lemma span_word (hc : c ≠ '\n') (hl : l.position = Position.behind before) {p : Position}
    (hp : p = Position.behind (before ++ octets (c :: cs))) :
    p.spanFrom l.position.column = (Extent.mk before (octets (c :: cs))).span := by
  rw [hl]
  exact spanFrom_all hc rfl hp

/-- Blanks and comments. -/
lemma Finds.skip {word : List Char} (hx : IsLexeme before word rest none [])
    (hl : l.position = Position.behind before)
    (h : ∀ bs, (l.skip word).position = Position.behind bs → (l.skip word).Finds bs rest found) :
    l.Finds before (word ++ rest) found :=
  .cons hx (h _ (afterAll_behind hl word)) rfl rfl

/-- Marks. Such a character is found as a lexeme with its token, whose span is one column wide; a
line break too, although the position behind it is at the beginning of a line. -/
lemma Finds.mark {k : TokenKind} (hk : mark? c = some k) (hl : l.position = Position.behind before)
    (h : ∀ bs, (l.pushMark k c).position = Position.behind bs →
      (l.pushMark k c).Finds bs rest found) :
    l.Finds before (c :: rest) found := by
  have hp : (l.pushMark k c).position = _ := afterAll_behind hl [c]
  refine .cons (.mark hk) (h _ hp) ?_ rfl
  have hspan : (Extent.mk before (octets [c])).span =
      ⟨l.position.line, l.position.column, l.position.column + 1⟩ := by
    by_cases hc : c = '\n'
    · rw [hc, hl]
      rfl
    · have hnext : (l.pushMark k c).position = l.position.advance 1 :=
        after_of_mark? hk hc l.position
      rw [← span_word hc hl hp, hnext]
      rfl
  rw [hspan]
  rfl

/-- A token up to the end of its characters. -/
lemma tokens_pushUpTo (k : TokenKind) (hl : l.position = Position.behind before)
    (hword : ∀ d ∈ c :: cs, continuesWord d = true) :
    (l.pushUpTo k (l.position.advance (c :: cs).length)).position =
        Position.behind (before ++ octets (c :: cs)) ∧
      (l.pushUpTo k (l.position.advance (c :: cs).length)).tokens =
        ⟨k, (Extent.mk before (octets (c :: cs))).span⟩ :: l.tokens ∧
      (l.position.advance (c :: cs).length).spanFrom l.position.column =
        (Extent.mk before (octets (c :: cs))).span := by
  have hp := (afterAll_of_continuesWord hword l.position).symm.trans (afterAll_behind hl (c :: cs))
  have hc := (after_of_continuesWord (hword c (List.mem_cons_self ..)) l.position).1
  have hspan := span_word hc hl hp
  exact ⟨hp, by rw [pushUpTo, hspan], hspan⟩

/-- Words. -/
lemma Finds.word (hc : startsWord c = true) (hcs : ∀ d ∈ cs, continuesWord d = true)
    (hrest : Stops continuesWord rest) (hl : l.position = Position.behind before)
    (h : ∀ bs, (l.pushWord (c :: cs)).position = Position.behind bs →
      (l.pushWord (c :: cs)).Finds bs rest found) :
    l.Finds before (c :: cs ++ rest) found := by
  obtain ⟨hp, htokens, -⟩ := tokens_pushUpTo (.ofWord (String.ofList (c :: cs))) hl
    (continuesWord_of_startsWord hc hcs)
  exact .cons (.word hc hcs hrest) (h _ hp) htokens rfl

/-- Numbers, whether they fit or not. A number that is too large is reported, and becomes a token
all the same, with the value zero. -/
lemma Finds.number (hcs : ∀ d ∈ c :: cs, d.isDigit = true) (hrest : Stops Char.isDigit rest)
    (hl : l.position = Position.behind before)
    (h : ∀ bs, (l.pushNumber (c :: cs)).position = Position.behind bs →
      (l.pushNumber (c :: cs)).Finds bs rest found) :
    l.Finds before (c :: cs ++ rest) found := by
  have hword : ∀ d ∈ c :: cs, continuesWord d = true := fun d hd => by
    simp [continuesWord, Char.isAlphanum, hcs d hd]
  by_cases hfits : (Nat.ofDigitChars 10 (c :: cs) 0 : Int) ≤ Int64.maxValue.toInt
  · obtain ⟨hp, htokens, -⟩ := tokens_pushUpTo (.integer (Nat.ofDigitChars 10 (c :: cs) 0)) hl hword
    have hpush : l.pushNumber (c :: cs) = l.pushUpTo _ _ := if_pos hfits
    rw [hpush] at h
    exact .cons (.number hcs hrest hfits) (h _ hp) htokens rfl
  · obtain ⟨hp, htokens, hspan⟩ := tokens_pushUpTo (.integer 0) hl hword
    have hpush : l.pushNumber (c :: cs) = _ := if_neg hfits
    rw [hpush, hspan] at h
    exact .cons (.hugeNumber hcs hrest hfits) (h _ hp) htokens rfl

/-- String literals. -/
lemma Finds.literal {s : StringScan} (hs : Scans before ['"'] cs [] l.errors s)
    (hl : l.position = Position.behind before)
    (h : ∀ bs, (l.pushString s).position = Position.behind bs →
      (l.pushString s).Finds bs s.rest found) :
    l.Finds before ('"' :: cs) found := by
  obtain ⟨body, text, errors, hcs, hbody, hposition, htext, herrors⟩ := hs
  rw [hcs, ← List.cons_append]
  refine .cons (.literal hbody) (h _ hposition) ?_ herrors
  rw [pushString, pushUpTo, htext, List.append_nil, List.reverse_reverse,
    span_word (by decide) hl hposition]
  rfl

/-- Characters that begin nothing. Each octet of the character is reported on its own. If the log
has no room for all of them the lexer stops there, and goes on to nothing else. -/
lemma Finds.reject (hc : BeginsNothing c cs) (hbreak : c ≠ '\n')
    (hl : l.position = Position.behind before)
    (h : ∀ bs, (l.reject (String.utf8EncodeChar c)).position = Position.behind bs →
      (l.reject (String.utf8EncodeChar c)).Finds bs cs
        (lexFrom (l.reject (String.utf8EncodeChar c)) cs)) :
    l.Finds before (c :: cs) (lexFrom (l.reject (String.utf8EncodeChar c)) cs) := by
  obtain ⟨taken, htaken, hposition, herrors, hend⟩ :=
    reject_spec (String.utf8EncodeChar c) l before hl (lineBreak_not_mem hbreak)
  have htokens := tokens_reject (String.utf8EncodeChar c) l
  rcases hend with rfl | hfull
  · exact .stray hc (h _ hposition) htokens herrors
  · -- The lexer stops, perhaps within the character.
    have hfinish : lexFrom (l.reject (String.utf8EncodeChar c)) cs =
        (l.reject (String.utf8EncodeChar c)).finish := by
      cases cs with
      | nil => rw [lexFrom]
      | cons d cs => rw [lexFrom, if_pos hfull]
    rw [hfinish]
    refine ⟨_, _, .strayPart hc htaken, ?_, ?_, .inr (capacity_le_of_isFull hfull)⟩
    · rw [tokens_finish hposition, htokens, Lexeme.filterMap_strays, List.append_nil]
    · rw [finish, herrors, List.reverse_append, List.reverse_reverse]

end Kinds

end Lexer

/-! ### The whole text -/

/-- A character for which the lexer has no use begins nothing. -/
lemma beginsNothing {c : Char} {cs : List Char} (hblank : ¬ isBlank c = true)
    (hcomment : ¬ (c = '/' ∧ cs.head? = some '/')) (hmark : mark? c = none) (hquote : ¬ c = '"')
    (hdigit : ¬ c.isDigit = true) (hstarts : ¬ startsWord c = true) : BeginsNothing c cs := by
  intro before word rest k? errors h heq
  cases h with
  | blank h => exact hblank ((List.cons.inj heq).1 ▸ h)
  | comment => exact hcomment ⟨(List.cons.inj heq).1.symm, by rw [← (List.cons.inj heq).2]; rfl⟩
  | mark h =>
    rw [(List.cons.inj heq).1, hmark] at h
    exact absurd h (by simp)
  | word h => exact hstarts ((List.cons.inj heq).1 ▸ h)
  | number h => exact hdigit ((List.cons.inj heq).1 ▸ h _ (List.mem_cons_self ..))
  | hugeNumber h => exact hdigit ((List.cons.inj heq).1 ▸ h _ (List.mem_cons_self ..))
  | literal => exact hquote (List.cons.inj heq).1.symm

/-- **Lexing.** The lexer finds the tokens and errors of lexemes into which the text is cut.

**Proof sketch.** Along the recursion, one case for each kind of lexeme. -/
theorem lexFrom_spec (l : Lexer) (cs : List Char) (before : List UInt8)
    (hl : l.position = Position.behind before) : l.Finds before cs (lexFrom l cs) := by
  fun_induction lexFrom l cs generalizing before with
  | case1 l => exact Lexer.finds_finish hl (.inl rfl)
  | case2 l c cs hfull => exact Lexer.finds_finish hl (.inr hfull)
  | case3 l c cs hfull hblank ih => exact Lexer.Finds.skip (.blank hblank) hl ih
  | case4 l c cs hfull hblank hcomment ih =>
    obtain ⟨hcs, hbody, hrest⟩ := taken_while (fun c => decide (c ≠ '\n')) c cs
    rw [hcs]
    refine Lexer.Finds.skip ?_ hl ih
    obtain ⟨rfl, hslash⟩ := hcomment
    cases cs with
    | nil => simp at hslash
    | cons d cs =>
      obtain rfl := Option.some.inj hslash
      rw [List.takeWhile_cons_of_pos (by decide)] at hbody ⊢
      refine .comment (fun hmem => ?_) hrest
      simpa using hbody _ (List.mem_cons_of_mem _ hmem)
  | case5 l c cs hfull hblank hcomment k hk ih => exact Lexer.Finds.mark hk hl ih
  | case6 l cs hfull s hblank hcomment hk ih =>
    exact Lexer.Finds.literal (scanString_spec _ _ rfl (by rw [hl])
      ((afterAll_behind hl ['"']))) hl ih
  | case7 l c cs hfull hblank hcomment hk hquote hdigit ih =>
    obtain ⟨hcs, hdigits, hrest⟩ := taken_while Char.isDigit c cs
    rw [hcs]
    exact Lexer.Finds.number (List.forall_mem_cons.2 ⟨hdigit, hdigits⟩) hrest hl ih
  | case8 l c cs hfull hblank hcomment hk hquote hdigit hstarts ih =>
    obtain ⟨hcs, hword, hrest⟩ := taken_while continuesWord c cs
    rw [hcs]
    exact Lexer.Finds.word hstarts hword hrest hl ih
  | case9 l c cs hfull hblank hcomment hk hquote hdigit hstarts ih =>
    have hnothing := beginsNothing hblank hcomment hk hquote hdigit hstarts
    have hbreak : c ≠ '\n' := fun hc => by simp [hc, mark?] at hk
    exact Lexer.Finds.reject hnothing hbreak hl ih

/-! ### Cutting a text -/

/-- Lexemes that follow each other without a gap, from behind some octets up to others. -/
def Chained : List UInt8 → List Lexeme → List UInt8 → Prop
  | before, [], stop => stop = before
  | before, x :: xs, stop => x.extent.before = before ∧ Chained x.extent.upTo xs stop

namespace Chained

/-- Lexemes that lead from a place to another one, and lexemes that lead on from there, lead from
the first place to the last. -/
lemma append {xs : List Lexeme} : ∀ {before : List UInt8} {ys : List Lexeme}
    {mid stop : List UInt8}, Chained before xs mid → Chained mid ys stop →
    Chained before (xs ++ ys) stop := by
  induction xs with
  | nil => intro before ys mid stop h h'; exact h ▸ h'
  | cons x xs ih => exact fun h h' => ⟨h.1, ih h.2 h'⟩

/-- Lexemes lead only forward: what stands before the first of them stands before the place behind
the last. -/
lemma isPrefix {xs : List Lexeme} : ∀ {before stop : List UInt8}, Chained before xs stop →
    before <+: stop := by
  induction xs with
  | nil => intro before stop h; rw [show stop = before from h]
  | cons x xs ih =>
    intro before stop h
    rw [← h.1]
    exact (List.prefix_append ..).trans (ih h.2)

/-- A lexeme stands between the ends. -/
lemma of_mem {xs : List Lexeme} {x : Lexeme} (hx : x ∈ xs) : ∀ {before stop : List UInt8},
    Chained before xs stop → before <+: x.extent.before ∧ x.extent.upTo <+: stop := by
  induction xs with
  | nil => simp at hx
  | cons y xs ih =>
    intro before stop h
    rcases List.mem_cons.1 hx with rfl | hx
    · exact ⟨by rw [h.1], isPrefix h.2⟩
    · obtain ⟨hbefore, hstop⟩ := ih hx h.2
      refine ⟨?_, hstop⟩
      rw [← h.1]
      exact (List.prefix_append ..).trans hbefore

/-- **Order.** Each lexeme ends before the next ones begin. -/
theorem pairwise {xs : List Lexeme} : ∀ {before stop : List UInt8}, Chained before xs stop →
    xs.Pairwise fun x y => x.extent.Precedes y.extent := by
  induction xs with
  | nil => exact fun _ => .nil
  | cons x xs ih =>
    intro before stop h
    exact List.pairwise_cons.2 ⟨fun y hy => (of_mem hy h.2).1, ih h.2⟩

/-- **No gap.** Every octet between the ends belongs to a lexeme.

**Proof sketch.** By induction on the lexemes, which stand one behind the other. The octet is either
before the end of the first one or behind it, and in this case it is in one of the others. -/
theorem exists_of_octet {xs : List Lexeme} {b : UInt8} {post : List UInt8} :
    ∀ {before part : List UInt8}, Chained before xs (before ++ (part ++ b :: post)) →
      ∃ x ∈ xs, ∃ part' more, before ++ part = x.extent.before ++ part' ∧
        x.extent.inside = part' ++ b :: more := by
  induction xs with
  | nil => intro before part h; simp [Chained] at h
  | cons x xs ih =>
    intro before part h
    obtain ⟨rfl, h⟩ := h
    -- What is behind this lexeme is behind it in one of the others.
    have hlater : ∀ part', part = x.extent.inside ++ part' → ∃ y ∈ x :: xs, ∃ part' more,
        x.extent.before ++ part = y.extent.before ++ part' ∧
          y.extent.inside = part' ++ b :: more := by
      rintro part' rfl
      rw [List.append_assoc, ← List.append_assoc] at h
      obtain ⟨y, hy, part'', more, hpart, hinside⟩ := ih h
      exact ⟨y, List.mem_cons_of_mem x hy, part'', more, by rw [← hpart, Extent.upTo,
        List.append_assoc], hinside⟩
    obtain ⟨tail, htail⟩ := h.isPrefix
    rw [Extent.upTo, List.append_assoc, List.append_cancel_left_eq] at htail
    rcases List.append_eq_append_iff.1 htail with ⟨part', hpart, -⟩ | ⟨more, hmore, htail⟩
    · exact hlater part' hpart
    · cases more with
      | nil => exact hlater [] (by simpa using hmore.symm)
      | cons c more =>
        obtain ⟨rfl, -⟩ := List.cons.inj htail
        exact ⟨x, List.mem_cons_self .., part, more, rfl, hmore⟩

end Chained

namespace Cuts

variable {before stop : List UInt8} {cs : List Char} {xs : List Lexeme}

/-- Octets that begin no token lead from the place before them to the place behind them, one by
one. -/
lemma chained_strays (bs : List UInt8) : ∀ before : List UInt8,
    Chained before (Lexeme.strays before bs) (before ++ bs) := by
  induction bs with
  | nil => exact fun before => List.append_nil before
  | cons b bs ih =>
    intro before
    refine ⟨rfl, ?_⟩
    have h := ih (before ++ [b])
    rwa [List.append_assoc, List.singleton_append] at h

/-- **No gaps.** The lexemes of a text follow each other: each begins where the one before it ends.
Induction along the cuts. -/
lemma chained (h : Cuts before cs xs stop) : Chained before xs stop := by
  induction h with
  | stop => rfl
  | lexeme _ _ ih => exact ⟨rfl, ih⟩
  | stray _ _ ih => exact (chained_strays _ _).append ih
  | strayPart => exact chained_strays _ _

/-- The lexemes are of the text. -/
lemma isPrefix (h : Cuts before cs xs stop) : stop <+: before ++ octets cs := by
  induction h with
  | stop => exact List.prefix_append ..
  | lexeme _ _ ih => rwa [octets_append, ← List.append_assoc]
  | stray _ _ ih => rwa [octets_cons, ← List.append_assoc]
  | strayPart _ hbs =>
    rw [octets_cons, List.prefix_append_right_inj]
    exact hbs.trans (List.prefix_append ..)

/-- **What a lexeme is**: a single octet that begins nothing, or a lexeme of the characters where it
stands.

**Proof sketch.** By induction on the cutting. What a lexeme is depends on what stands behind it, so
that the characters before it are named in the result and those behind it go on to the end. -/
theorem of_mem {x : Lexeme} (hx : x ∈ xs) (h : Cuts before cs xs stop) :
    (∃ before b, x = Lexeme.stray before b) ∨ ∃ pre word rest, cs = pre ++ (word ++ rest) ∧
      x.extent = ⟨before ++ octets pre, octets word⟩ ∧
      IsLexeme x.extent.before word rest x.kind? x.errors := by
  induction h with
  | stop => simp at hx
  | @lexeme before _ word rest k? errors xs h _ ih =>
    rcases List.mem_cons.1 hx with rfl | hx
    · exact .inr ⟨[], word, rest, rfl, by rw [octets_nil, List.append_nil], h⟩
    · refine (ih hx).imp id ?_
      rintro ⟨pre, word', rest', rfl, hextent, h'⟩
      refine ⟨word ++ pre, word', rest', by rw [List.append_assoc], ?_, h'⟩
      rw [hextent, octets_append, List.append_assoc]
  | @stray before _ c cs xs _ _ ih =>
    rcases List.mem_append.1 hx with hx | hx
    · exact .inl (Lexeme.of_mem_strays hx)
    · refine (ih hx).imp id ?_
      rintro ⟨pre, word, rest, rfl, hextent, h'⟩
      refine ⟨c :: pre, word, rest, rfl, ?_, h'⟩
      rw [hextent, octets_cons, List.append_assoc]
  | strayPart => exact .inl (Lexeme.of_mem_strays hx)

end Cuts

end StickerBot.Listing
