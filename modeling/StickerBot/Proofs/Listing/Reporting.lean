import StickerBot.Proofs.Listing.Errors
import StickerBot.Proofs.Listing.Positions
set_option autoImplicit false

/-!
# Reports about listings

The report about a text that is not accepted is complete. It counts all that the lexer and the
parser have found, and shows the first of it in the order in which it was found, what the lexer
found before the rest. Each entry is followed by a line of the text: the lexer, the parser and the
index of lines count lines each on their own, and agree.

## Main definitions

* `SourceLines.IsLine` — the line of a text with a number.
* `Listing.IsEntry` — the entry of a report about a diagnostic.

## Main results

* `SourceLines.exists_line?` — which lines of a text can be looked up, and what they are.
* `Listing.line_of_mem_found` — all that is found in a text is on a line of the text.
* `Listing.parseProgram_report` — what is reported about a text that is not accepted.
-/

namespace StickerBot

/-! ### The lines of a text -/

namespace SourceLines

/-- **A line of a text**, without the carriage returns at its end, with what is before it and after
it: line breaks, or the ends of the text. -/
structure IsBetween (before line returns after : List Char) : Prop where
  begins : before = [] ∨ ['\n'] <:+ before
  ends : after = [] ∨ ['\n'] <+: after
  newline_not_mem : '\n' ∉ line
  returns : ∀ c ∈ returns, c = '\r'
  trimmed : ¬ ['\r'] <:+ line

/-- **The line of a text with a number**, which is one more than the line breaks before it. -/
def IsLine (cs : List Char) (n : Nat) (line : List Char) : Prop :=
  ∃ before returns after, cs = before ++ (line ++ (returns ++ after)) ∧
    n = before.count '\n' + 1 ∧ IsBetween before line returns after

/-- There is a piece behind each line break, and one before all of them.

**Proof sketch.** Induction on the text. A line break is put in front of all pieces, any other
character in front of the first one. -/
lemma exists_getElem?_split (cs : List Char) : ∀ n ≤ cs.count '\n', ∃ before inside after,
    cs = before ++ (inside ++ after) ∧ before.count '\n' = n ∧
      (before = [] ∨ ['\n'] <:+ before) ∧ (after = [] ∨ ['\n'] <+: after) ∧ '\n' ∉ inside ∧
      (split cs)[n]? = some inside := by
  induction cs with
  | nil =>
    intro n hn
    obtain rfl : n = 0 := by simpa using hn
    exact ⟨[], [], [], rfl, rfl, .inl rfl, .inl rfl, by simp, rfl⟩
  | cons c cs ih =>
    intro n hn
    by_cases hc : c = '\n'
    · subst hc
      cases n with
      | zero =>
        exact ⟨[], [], '\n' :: cs, rfl, rfl, .inl rfl, .inr ⟨cs, rfl⟩, by simp, rfl⟩
      | succ n =>
        rw [List.count_cons_self] at hn
        obtain ⟨before, inside, after, rfl, hcount, hbegins, hends, hinside, hpiece⟩ :=
          ih n (Nat.le_of_succ_le_succ hn)
        refine ⟨'\n' :: before, inside, after, rfl, by rw [List.count_cons_self, hcount],
          .inr ?_, hends, hinside, hpiece⟩
        rcases hbegins with rfl | hbegins
        · exact List.suffix_rfl
        · exact hbegins.trans (List.suffix_cons ..)
    · rw [List.count_cons_of_ne hc] at hn
      -- The first piece goes on to the left, the others stay.
      obtain ⟨-, first, -, -, -, -, -, -, hfirst⟩ := ih 0 (Nat.zero_le _)
      obtain ⟨others, hsplit⟩ : ∃ others, split cs = first :: others := by
        cases hpieces : split cs with
        | nil => simp [hpieces] at hfirst
        | cons l ls => exact ⟨ls, by simpa [hpieces] using hfirst⟩
      have hcons : split (c :: cs) = (c :: first) :: others := by
        rw [split, List.foldr_cons, ← split, hsplit, prepend, if_neg hc]
      obtain ⟨before, inside, after, rfl, hcount, hbegins, hends, hinside, hpiece⟩ := ih n hn
      rw [hsplit] at hpiece
      rw [hcons]
      cases n with
      | zero =>
        obtain rfl : before = [] := hbegins.resolve_right fun hsuffix =>
          absurd (hsuffix.subset (List.mem_singleton_self _)) (List.count_eq_zero.1 hcount)
        obtain rfl : first = inside := by simpa using hpiece
        exact ⟨[], c :: first, after, rfl, rfl, .inl rfl, hends, by simp [Ne.symm hc, hinside],
          rfl⟩
      | succ n =>
        refine ⟨c :: before, inside, after, rfl, by rw [List.count_cons_of_ne hc, hcount],
          .inr ?_, hends, hinside, hpiece⟩
        rcases hbegins with rfl | hbegins
        · simp at hcount
        · exact hbegins.trans (List.suffix_cons ..)

/-- What is trimmed off a line are carriage returns, and none is left at its end. -/
lemma exists_trimReturns (line : List Char) : ∃ returns, line = trimReturns line ++ returns ∧
    (∀ c ∈ returns, c = '\r') ∧ ¬ ['\r'] <:+ trimReturns line := by
  refine ⟨(line.reverse.takeWhile (· = '\r')).reverse, ?_, fun c hc => ?_, fun hmem => ?_⟩
  · rw [trimReturns, ← List.reverse_append, List.takeWhile_append_dropWhile, List.reverse_reverse]
  · simpa using List.mem_takeWhile_imp (List.mem_reverse.1 hc)
  · obtain ⟨others, hothers⟩ := hmem
    have h := List.head?_dropWhile_not (fun c => decide (c = '\r')) line.reverse
    rw [List.reverse_eq_iff.1 hothers.symm] at h
    simp at h

/-- **Looking up lines.** Every line of a text can be looked up by its number. -/
theorem exists_line? {text : String} {n : Nat} (hone : 1 ≤ n)
    (hn : n ≤ text.toList.count '\n' + 1) :
    ∃ line, (ofText text).line? n = some line ∧ IsLine text.toList n line.toList := by
  obtain ⟨n, rfl⟩ := Nat.exists_eq_add_of_le' hone
  obtain ⟨before, inside, after, htext, hcount, hbegins, hends, hinside, hpiece⟩ :=
    exists_getElem?_split text.toList n (Nat.le_of_succ_le_succ hn)
  obtain ⟨returns, hreturns, hall, htrimmed⟩ := exists_trimReturns inside
  refine ⟨String.ofList (trimReturns inside), ?_, before, returns, after, ?_, ?_, ?_⟩
  · simp [line?, ofText, hpiece]
  · rw [String.toList_ofList, htext, ← List.append_assoc (trimReturns inside), ← hreturns]
  · rw [hcount]
  · rw [String.toList_ofList]
    exact ⟨hbegins, hends, fun h => hinside (hreturns ▸ List.mem_append_left _ h), hall, htrimmed⟩

end SourceLines

namespace Listing

/-! ### The lines of what is found -/

/-- Whether a text has a line with a number. -/
def HasLine (cs : List Char) (n : Nat) : Prop := 1 ≤ n ∧ n ≤ cs.count '\n' + 1

/-- What is behind some octets of a text is on a line of it. -/
lemma hasLine_behind {cs : List Char} {bs : List UInt8} (h : bs <+: octets cs) :
    HasLine cs (Position.behind bs).line := by
  have hle : bs.count lineBreak ≤ (octets cs).count lineBreak := h.sublist.count_le lineBreak
  rw [count_octets] at hle
  exact ⟨Nat.le_add_right .., by rw [Position.behind, Nat.add_comm]; exact Nat.succ_le_succ hle⟩

/-- The span of an extent of a text is on a line of it. -/
lemma Extent.hasLine_span {s : Extent} {cs : List Char} (h : s.IsIn (octets cs)) :
    HasLine cs s.span.line := by
  unfold Extent.span
  split
  · exact hasLine_behind ((List.prefix_append ..).trans h)
  · exact hasLine_behind h

/-- **On a line of the text** is all that is found in it.

**Proof sketch.** An error of the lexer is at octets of the text, and an error of the parser is at a
token, which is at octets of the text as well. The line of an octet is a line of the text. -/
theorem line_of_mem_found {text : String} {d : Diagnostic} (h : d ∈ found text) :
    ∃ span, d.span = some span ∧ HasLine text.toList span.line := by
  obtain ⟨xs, stop, hxs, htokens, herrors, -⟩ := lexFrom_spec .start text.toList []
    Position.behind_nil.symm
  rcases List.mem_append.1 h with h | h
  · rw [lex, herrors] at h
    obtain ⟨s, hs⟩ := hxs.errorAt h
    obtain ⟨e, rfl⟩ := hs.diagnosed
    exact ⟨s.span, rfl, s.hasLine_span hs.isIn⟩
  · -- An error of the parser is on the line of a token.
    have hlines : ∀ t ∈ (lex text).tokens, HasLine text.toList t.span.line := by
      intro t ht
      have hplaced : (lex text).tokens = (placedTokens xs stop).map Prod.fst :=
        htokens.trans map_placedTokens.symm
      rw [hplaced] at ht
      obtain ⟨p, hp, rfl⟩ := List.mem_map.1 ht
      have hstands := hxs.standsAt hp
      rw [hstands.span]
      exact p.2.hasLine_span hstands.isIn
    obtain ⟨e, span, rfl, hspan⟩ := of_mem_errors_parse hlines h
    refine ⟨span, ?_, hspan⟩
    cases e <;> rfl

/-! ### Entries -/

/-- **Entries.** What is reported about a diagnostic: its place and its text, and below them the
line of the text on which the place is. -/
structure IsEntry (text : String) (d : Diagnostic) (span : Span) (line entry : String) :
    Prop where
  span_eq : d.span = some span
  line?_eq : (SourceLines.ofText text).line? span.line = some line
  isLine : SourceLines.IsLine text.toList span.line line.toList
  entry_eq : entry = span.render ++ ": " ++ d.render ++ "\n" ++ "  | " ++ line ++ "\n"

/-- What is found in a text is reported by an entry: its position, its text, and the line of the
source on which it is. This line exists, as the position is that of a token or of an octet. -/
lemma exists_isEntry {text : String} {d : Diagnostic} (h : d ∈ found text) :
    ∃ span line, IsEntry text d span line (reportEntry (.ofText text) d) := by
  obtain ⟨span, hspan, hone, hcount⟩ := line_of_mem_found h
  obtain ⟨line, hline, hisLine⟩ := SourceLines.exists_line? hone hcount
  refine ⟨span, line, hspan, hline, hisLine, ?_⟩
  simp only [reportEntry, hspan, hline, String.append_assoc]

/-- **Complete reports.** The report about a text that is not accepted counts all that the lexer and
the parser have found. It consists of an entry for each of the first of it, in the order in which it
was found, and each of them shows a line of the text. -/
theorem parseProgram_report {text : String} {r : RejectedListing}
    (h : parseProgram text = .error r) :
    r.count = (lex text).errors.length + (parse (lex text).tokens).errors.length ∧
      ∃ entries : List String, r.report = String.join entries ∧
        entries.length = min r.count DiagnosticLog.capacity ∧
        List.Forall₂ (fun d entry => ∃ span line, IsEntry text d span line entry)
          (((lex text).errors ++ (parse (lex text).tokens).errors).take DiagnosticLog.capacity)
          entries := by
  obtain rfl : r = ⟨(found text).length,
      String.join (((found text).take DiagnosticLog.capacity).map
        (reportEntry (.ofText text)))⟩ := by
    unfold parseProgram at h
    dsimp only at h
    rw [errors_assemble] at h
    split at h
    · exact (Except.error.inj h).symm
    · cases h
  refine ⟨List.length_append, _, rfl, ?_, ?_⟩
  · rw [List.length_map, List.length_take, Nat.min_comm]
  · change List.Forall₂ _ ((found text).take _) _
    rw [List.forall₂_map_right_iff, List.forall₂_same]
    exact fun d hd => exists_isEntry (List.mem_of_mem_take hd)

/-- A text with an error of the parser in front of an error of the lexer. -/
def wrongText : String := "wait x\r\n  $\r\r\n"

/-- The report about it. -/
def wrongReport : RejectedListing :=
  ⟨2, "2:3: E303 [syntax] unexpected character '$'\n  |   $\n" ++
    "1:6: E300 [syntax] expected an integer, found identifier 'x'\n  | wait x\n"⟩

/-- Both errors of the text are reported, that of the lexer first. -/
theorem parseProgram_report_wrongText :
    parseProgram wrongText = .error wrongReport ∧ ∃ entries : List String,
      wrongReport.report = String.join entries ∧ entries.length = 2 ∧
        List.Forall₂ (fun d entry => ∃ span line, IsEntry wrongText d span line entry)
          ((found wrongText).take DiagnosticLog.capacity) entries := by
  have h : parseProgram wrongText = .error wrongReport := by decide +kernel
  obtain ⟨-, entries, hreport, hlength, hentries⟩ := parseProgram_report h
  exact ⟨h, entries, hreport, hlength, hentries⟩

end Listing

end StickerBot
