import StickerBot.Proofs.Listing.Acceptance
import StickerBot.Proofs.Listing.Lexing
set_option autoImplicit false

/-!
# Listings are read back

The listing of a program is text for people and for machines. Assembling it gives the program
back, instruction by instruction, exactly if the names in the program may be names; a name that
is none, such as a keyword or a word with a blank in it, is the only thing a listing cannot say.
What was assembled from a text has no such name, so its listing is its canonical form.

## Main results

* `Listing.isLine_tokens` — the tokens of an instruction are a line that means it.
* `Listing.parse_lineTokens` — so all lines are read.
* `Listing.parseProgram_listing_iff` — listings are read back exactly if all names may be names.
* `Listing.canonical_listing` — the listing of what was assembled is read back.
-/

namespace StickerBot.Listing

/-! ### The tokens of instructions are lines -/

/-- A number that fits is written as a number. -/
lemma isNumber_ofInt {α : Type} {fit : Int → Option α} {n : Int} {a : α} (h : fit n = some a) :
    IsNumber fit (TokenKind.ofInt n) a := by
  unfold TokenKind.ofInt
  split
  · exact .negative (by rwa [Int.neg_neg])
  · exact .plain h

/-- The numbers of a call are written as numbers.

**Proof sketch.** Induction on the numbers; there is a comma after each but the last. -/
lemma isNumbers_argumentTokens (n : Int32) (ns : List Int32) :
    IsNumbers (argumentTokens (n :: ns)) (n :: ns) := by
  induction ns generalizing n with
  | nil =>
    have hlast : IsNumbers (TokenKind.ofInt n.toInt) [n] :=
      .last (isNumber_ofInt (Word.int32?_toInt n))
    simpa [argumentTokens] using hlast
  | cons n' ns ih =>
    have hmore := IsNumbers.more (isNumber_ofInt (Word.int32?_toInt n)) (ih n')
    simpa [argumentTokens] using hmore

/-- A condition is written as a condition. -/
lemma isCondition_tokens (c : Condition) : IsCondition c.tokens c := by
  cases c with
  | below x limit => exact .below x (isNumber_ofInt (Word.int32?_toInt limit))
  | sensorNotRaised s => exact .notRaised s

/-- **Lines.** The tokens of an instruction are a line that means it. -/
theorem isLine_tokens (i : Instruction) : IsLine i.tokens i := by
  cases i with
  | call f arguments =>
    cases arguments with
    | nil => exact .call f
    | cons n ns => exact .callWith f (isNumbers_argumentTokens n ns)
  | wait n => exact .wait (.plain (Word.uint32?_toNat n))
  | assign x n => exact .assign x (isNumber_ofInt (Word.int32?_toInt n))
  | increment x n => exact .increment x (isNumber_ofInt (Word.int32?_toInt n))
  | loop c => exact .loopOnTwoLines (isCondition_tokens c)
  | close => exact .close
  | trace n => exact .trace (.plain (Word.uint32?_toNat n))
  | print s => exact .print s

/-- The tokens of lines are derived line by line. -/
lemma derives_lineTokens (is : List Instruction) :
    Derives (lineTokens is) (is.map fun i => (i.tokens, i)) := by
  induction is with
  | nil => exact .done
  | cons i is ih =>
    have hline := Derives.line (isLine_tokens i) (endsLine_cons rfl _) (.newline ih)
    simpa [lineTokens] using hline

/-! ### Listings are read back -/

/-- **All lines** are read as the instructions they were written for, without an error. -/
theorem parse_lineTokens (is : List Instruction) :
    ∀ (lines : List (Instruction × Span)) (ts : List Token),
      ts.map Token.kind = lineTokens is ++ [.endOfInput] →
      (parseFrom lines [] ts).lines.map Prod.fst = lines.reverse.map Prod.fst ++ is ∧
        (parseFrom lines [] ts).errors = [] := by
  intro lines ts hts
  obtain ⟨hlines, herrors⟩ := parseFrom_of_derives (derives_lineTokens is) lines ts hts
  exact ⟨by simpa [Function.comp_def] using hlines, herrors⟩

/-- **Round trip.** The listing of a program is accepted and gives back its instructions exactly if
every name of a call, a variable or a sensor in it is a word that may be a name. -/
theorem parseProgram_listing_iff (p : Program) :
    (parseProgram p.listing).map Program.instructions = .ok p.instructions ↔
      ∀ i ∈ p.instructions, ∀ x ∈ i.names, IsName x := by
  constructor
  · intro h
    unfold parseProgram at h
    dsimp only at h
    split at h
    · simp [Except.map] at h
    · have hsame : (assemble p.listing).instructions = p.instructions := by
        simpa [Except.map, Program.ofInstructions] using h
      rw [← hsame]
      exact named_assemble p.listing
  · intro h
    obtain ⟨htokens, hlex⟩ := lex_listing h
    obtain ⟨hlines, hparse⟩ := parse_lineTokens p.instructions [] _ htokens
    have herrors : (assemble p.listing).errors.hasErrors = false := by
      simp [assemble, hlex, parse, hparse]
      rfl
    have hsame : (assemble p.listing).instructions = p.instructions := by
      simpa [Assembly.instructions, assemble, parse] using hlines
    simp [parseProgram, herrors, Except.map, Program.ofInstructions, hsame]

/-! ### Canonical listings -/

/-- A listing whose names may be names is accepted, and its program has the instructions that were
listed. -/
lemma parseProgram_listing_of_named {p : Program} (h : ∀ i ∈ p.instructions, i.Named) :
    parseProgram p.listing = .ok (.ofInstructions p.instructions) := by
  obtain ⟨htokens, hlex⟩ := lex_listing h
  obtain ⟨hlines, hparse⟩ := parse_lineTokens p.instructions [] _ htokens
  refine parseProgram_eq_ok_iff.2 ⟨hlex, hparse, ?_⟩
  rw [parse, hlines]
  rfl

/-- What was assembled has only names that may be names, and its trace points come from nowhere. -/
lemma of_parseProgram {text : String} {p : Program} (h : parseProgram text = .ok p) :
    p = .ofInstructions p.instructions ∧ ∀ i ∈ p.instructions, i.Named := by
  obtain ⟨-, -, rfl⟩ := parseProgram_eq_ok_iff.1 h
  exact ⟨rfl, named_assemble text⟩

/-- **Canonical form.** The listing of a program that was assembled from a text is accepted and
gives the same program, so that listing it again changes nothing. Two assembled programs have the
same listing exactly if they have the same instructions, and then also the same fingerprint. -/
theorem canonical_listing {text : String} {p : Program} (h : parseProgram text = .ok p) :
    p.traceMap = .empty ∧ parseProgram p.listing = .ok p ∧
      (parseProgram p.listing).map Program.listing = .ok p.listing ∧
      ∀ (text' : String) (q : Program), parseProgram text' = .ok q →
        (q.listing = p.listing ↔ q.instructions = p.instructions) ∧
          (q.instructions = p.instructions → q.fingerprint = p.fingerprint) := by
  obtain ⟨hp, hnamed⟩ := of_parseProgram h
  have hback : parseProgram p.listing = .ok p := by
    rw [parseProgram_listing_of_named hnamed, ← hp]
  refine ⟨by rw [hp]; rfl, hback, by rw [hback]; rfl, fun text' q hq => ⟨⟨?_, ?_⟩, ?_⟩⟩
  · intro hlisting
    have hq' := parseProgram_listing_of_named (of_parseProgram hq).2
    rw [hlisting, hback, Except.ok.injEq] at hq'
    rw [hq']
    rfl
  · intro hsame
    rw [Program.listing, Program.listing, hsame]
  · intro hsame
    rw [Program.fingerprint, Program.fingerprint, Program.listing, Program.listing, hsame]

/-- A text with odd spacing, a comment, a brace on the line of its header, empty lines and a
character in a string that stands there without an escape. -/
def roughText : String :=
  "\n  while x<  -2 :\x7b // a loop\n\tprint \"a\x01\\tb\"\r\n\n wait  007\n \x7d"

/-- The program of the rough text. -/
def roughProgram : Program :=
  .ofInstructions [.loop (.below "x" (-2)), .print "a\x01\tb", .wait 7, .close]

/-- What the rough text means is listed in its canonical form, and read back. -/
theorem canonical_listing_rough : parseProgram roughText = .ok roughProgram ∧
    parseProgram roughProgram.listing = .ok roughProgram := by
  have h : parseProgram roughText = .ok roughProgram := by cbv
  exact ⟨h, (canonical_listing h).2.1⟩

end StickerBot.Listing
