import Mathlib.Data.List.Basic
import StickerBot.Listing.Parser
set_option autoImplicit false

/-!
# The grammar of listings

What may stand in a listing, written down without a parser: which tokens make a number, a line and
a listing, and which instruction a line means. A listing is

    newline* (line (newline+ line)*)? newline*

and every line is one instruction, of which only the header of a loop may stand on two lines.

## Main definitions

* `Listing.IsNumber`, `Listing.IsNumbers`, `Listing.IsCondition` — the parts of lines.
* `Listing.IsLine` — the tokens of a line, and its instruction.
* `Listing.IsListing` — the tokens of a listing, and its lines.
* `Listing.Derives` — the same from left to right, line by line.

## Main results

* `Listing.isListing_iff_derives` — both are the same.
-/

namespace StickerBot.Listing

/-! ### Lines -/

/-- **Numbers.** A whole number, with a minus before it or not. The number that is meant must
fit. -/
inductive IsNumber {α : Type} (fit : Int → Option α) : List TokenKind → α → Prop
  | plain {n : Int} {a : α} (h : fit n = some a) : IsNumber fit [.integer n] a
  | negative {n : Int} {a : α} (h : fit (-n) = some a) : IsNumber fit [.minus, .integer n] a

/-- **Numbers of a call**: one or more, with commas between them. -/
inductive IsNumbers : List TokenKind → List Int32 → Prop
  | last {ks : List TokenKind} {n : Int32} (h : IsNumber Word.int32? ks n) : IsNumbers ks [n]
  | more {ks ks' : List TokenKind} {n : Int32} {ns : List Int32} (h : IsNumber Word.int32? ks n)
    (hs : IsNumbers ks' ns) : IsNumbers (ks ++ .comma :: ks') (n :: ns)

/-- **Conditions** of loops. -/
inductive IsCondition : List TokenKind → Condition → Prop
  | below (x : String) {ks : List TokenKind} {n : Int32} (h : IsNumber Word.int32? ks n) :
    IsCondition (.identifier x :: .less :: ks) (.below x n)
  | notRaised (x : String) :
    IsCondition [.not, .identifier x, .openParen, .closeParen] (.sensorNotRaised x)

/-- **Lines.** The tokens of a line without its end, and the instruction that they mean. The brace
of a loop may stand on the next line. -/
inductive IsLine : List TokenKind → Instruction → Prop
  | wait {ks : List TokenKind} {n : UInt32} (h : IsNumber Word.uint32? ks n) :
    IsLine (.wait :: ks) (.wait n)
  | trace {ks : List TokenKind} {n : UInt32} (h : IsNumber Word.uint32? ks n) :
    IsLine (.trace :: ks) (.trace n)
  | print (text : String) : IsLine [.print, .string text] (.print text)
  | close : IsLine [.closeBrace] .close
  | call (x : String) : IsLine [.identifier x, .openParen, .closeParen] (.call x [])
  | callWith (x : String) {ks : List TokenKind} {ns : List Int32} (h : IsNumbers ks ns) :
    IsLine (.identifier x :: .openParen :: (ks ++ [.closeParen])) (.call x ns)
  | assign (x : String) {ks : List TokenKind} {n : Int32} (h : IsNumber Word.int32? ks n) :
    IsLine (.identifier x :: .equals :: ks) (.assign x n)
  | increment (x : String) {ks : List TokenKind} {n : Int32} (h : IsNumber Word.int32? ks n) :
    IsLine (.identifier x :: .equals :: .identifier x :: .plus :: ks) (.increment x n)
  | loop {ks : List TokenKind} {c : Condition} (h : IsCondition ks c) :
    IsLine (.while :: (ks ++ [.colon, .openBrace])) (.loop c)
  | loopOnTwoLines {ks : List TokenKind} {c : Condition} (h : IsCondition ks c) :
    IsLine (.while :: (ks ++ [.colon, .newline, .openBrace])) (.loop c)

/-- Tokens none of which ends a line. -/
def OnOneLine (ks : List TokenKind) : Prop := ∀ k ∈ ks, k.endsLine = false

/-- No tokens at all are on one line. -/
@[simp] lemma onOneLine_nil : OnOneLine [] := fun _ h => absurd h List.not_mem_nil

/-- Tokens are on one line if the first of them does not end it and the others are on one line. -/
@[simp] lemma onOneLine_cons {k : TokenKind} {ks : List TokenKind} :
    OnOneLine (k :: ks) ↔ k.endsLine = false ∧ OnOneLine ks := List.forall_mem_cons

/-- Tokens after tokens are on one line if both are. -/
@[simp] lemma onOneLine_append {ks ks' : List TokenKind} :
    OnOneLine (ks ++ ks') ↔ OnOneLine ks ∧ OnOneLine ks' := List.forall_mem_append

/-- A number is on one line, with its sign or without one. -/
lemma IsNumber.onOneLine {α : Type} {fit : Int → Option α} {ks : List TokenKind} {a : α}
    (h : IsNumber fit ks a) : OnOneLine ks := by
  cases h <;> simp [TokenKind.endsLine]

/-- The numbers of a call are on one line, with the commas between them. -/
lemma IsNumbers.onOneLine {ks : List TokenKind} {ns : List Int32} (h : IsNumbers ks ns) :
    OnOneLine ks := by
  induction h with
  | last h => exact h.onOneLine
  | more h _ ih => simp [h.onOneLine, ih, TokenKind.endsLine]

/-- A condition is on one line, in each of its two forms. -/
lemma IsCondition.onOneLine {ks : List TokenKind} {c : Condition} (h : IsCondition ks c) :
    OnOneLine ks := by
  cases h with
  | below x h => simp [h.onOneLine, TokenKind.endsLine]
  | notRaised x => simp [TokenKind.endsLine]

/-- **One line or two.** An instruction is on one line, but the brace of a loop may be on the next
one. -/
lemma IsLine.onOneLine_or {ks : List TokenKind} {i : Instruction} (h : IsLine ks i) :
    OnOneLine ks ∨
      ∃ header, OnOneLine header ∧ ks = .while :: (header ++ [.newline, .openBrace]) := by
  cases h with
  | wait h | trace h | assign x h | increment x h =>
    exact .inl (by simp [h.onOneLine, TokenKind.endsLine])
  | callWith x h => exact .inl (by simp [h.onOneLine, TokenKind.endsLine])
  | loop h => exact .inl (by simp [h.onOneLine, TokenKind.endsLine])
  | @loopOnTwoLines ks c h =>
    exact .inr ⟨ks ++ [.colon], by simp [h.onOneLine, TokenKind.endsLine], by simp⟩
  | _ => exact .inl (by simp [TokenKind.endsLine])

/-! ### Listings -/

/-- **A line of a derivation**: its tokens and its instruction. -/
abbrev DerivedLine := List TokenKind × Instruction

/-- So many ends of lines. -/
def newlines (n : Nat) : List TokenKind := List.replicate n .newline

/-- **Lines one after the other**, with at least one end of a line after each but the last. -/
inductive IsLines : List TokenKind → List DerivedLine → Prop
  | last {ks : List TokenKind} {i : Instruction} (h : IsLine ks i) : IsLines ks [(ks, i)]
  | more {ks ks' : List TokenKind} {i : Instruction} {ls : List DerivedLine} (h : IsLine ks i)
    (n : Nat) (hs : IsLines ks' ls) : IsLines (ks ++ newlines (n + 1) ++ ks') ((ks, i) :: ls)

/-- **Listings.** Lines, or none, and any number of ends of lines before and after them. -/
inductive IsListing : List TokenKind → List DerivedLine → Prop
  | empty (before after : Nat) : IsListing (newlines before ++ newlines after) []
  | lines (before after : Nat) {ks : List TokenKind} {ls : List DerivedLine} (h : IsLines ks ls) :
    IsListing (newlines before ++ ks ++ newlines after) ls

/-! ### From left to right -/

/-- Whether a line ends before these tokens: at an end of a line or where there are no more. -/
def EndsLine (ks : List TokenKind) : Prop := ∀ k ∈ ks.head?, k.endsLine = true

/-- Where nothing follows the line is over. -/
lemma endsLine_nil : EndsLine [] := fun _ hk => by simp at hk

/-- A token that ends a line ends the one before it, whatever comes after the token. -/
lemma endsLine_cons {k : TokenKind} (h : k.endsLine = true) (ks : List TokenKind) :
    EndsLine (k :: ks) := by
  rintro k' hk'
  obtain rfl := Option.some.inj hk'
  exact h

/-- A line that ends before tokens ends before the first of them. -/
lemma EndsLine.takeWhile {ks : List TokenKind} (h : EndsLine ks) (p : TokenKind → Bool) :
    EndsLine (ks.takeWhile p) := by
  cases ks with
  | nil => exact h
  | cons k ks =>
    rw [List.takeWhile_cons]
    split
    · exact endsLine_cons (h k rfl) _
    · exact endsLine_nil

/-- **Derivations.** A listing from left to right: an end of a line is passed over, and a line goes
up to where it ends. -/
inductive Derives : List TokenKind → List DerivedLine → Prop
  | done : Derives [] []
  | newline {ks : List TokenKind} {ls : List DerivedLine} (h : Derives ks ls) :
    Derives (.newline :: ks) ls
  | line {ks rest : List TokenKind} {i : Instruction} {ls : List DerivedLine} (h : IsLine ks i)
    (hend : EndsLine rest) (hrest : Derives rest ls) : Derives (ks ++ rest) ((ks, i) :: ls)

/-- A line begins with a token that ends no line. -/
lemma IsLine.exists_cons {ks : List TokenKind} {i : Instruction} (h : IsLine ks i) :
    ∃ k ks', ks = k :: ks' ∧ k.endsLine = false := by
  cases h <;> exact ⟨_, _, rfl, rfl⟩

/-- Ends of lines are passed over. -/
lemma Derives.newlines_append {ks : List TokenKind} {ls : List DerivedLine} (h : Derives ks ls)
    (n : Nat) : Derives (newlines n ++ ks) ls := by
  induction n with
  | zero => exact h
  | succ n ih => exact .newline ih

/-- Lines that are left empty say nothing, however many there are. -/
lemma derives_newlines (n : Nat) : Derives (newlines n) [] := by
  simpa using Derives.done.newlines_append n

/-- A line ends before ends of lines. -/
lemma endsLine_newlines (n : Nat) : EndsLine (newlines n) := by
  cases n with
  | zero => exact endsLine_nil
  | succ n => exact endsLine_cons rfl _

/-- Lines one after the other are derived in front of ends of lines. -/
lemma IsLines.derives {ks : List TokenKind} {ls : List DerivedLine} (h : IsLines ks ls)
    (after : Nat) : Derives (ks ++ newlines after) ls := by
  induction h with
  | last h => exact .line h (endsLine_newlines after) (derives_newlines after)
  | @more ks ks' i ls h n hs ih =>
    rw [List.append_assoc, List.append_assoc]
    exact .line h (endsLine_cons rfl _) (ih.newlines_append (n + 1))

/-- Lines one after the other begin with no end of a line. -/
lemma IsLines.exists_cons {ks : List TokenKind} {ls : List DerivedLine} (h : IsLines ks ls) :
    ∃ k ks', ks = k :: ks' ∧ k.endsLine = false := by
  cases h with
  | last h => exact h.exists_cons
  | more h n hs =>
    obtain ⟨k, ks', rfl, hk⟩ := h.exists_cons
    exact ⟨k, _, rfl, hk⟩

/-- One more end of a line may stand in front. -/
lemma IsListing.newline {ks : List TokenKind} {ls : List DerivedLine} (h : IsListing ks ls) :
    IsListing (.newline :: ks) ls := by
  cases h with
  | empty before after => exact .empty (before + 1) after
  | lines before after h => exact .lines (before + 1) after h

/-- One more line may stand in front of where it ends. -/
lemma IsListing.line {ks rest : List TokenKind} {i : Instruction} {ls : List DerivedLine}
    (h : IsLine ks i) (hend : EndsLine rest) (hrest : IsListing rest ls) :
    IsListing (ks ++ rest) ((ks, i) :: ls) := by
  cases hrest with
  | empty before after =>
    have hlisting := IsListing.lines 0 (before + after) (.last h)
    simpa [newlines, List.replicate_append_replicate] using hlisting
  | @lines before after ks' ls h' =>
    cases before with
    | zero =>
      obtain ⟨k, ks'', rfl, hk⟩ := h'.exists_cons
      exact absurd (hend k rfl) (by simp [hk])
    | succ n =>
      have hlisting := IsListing.lines 0 after (.more h n h')
      simpa [newlines] using hlisting

/-- **Left to right.** A listing is what is derived from left to right. -/
theorem isListing_iff_derives {ks : List TokenKind} {ls : List DerivedLine} :
    IsListing ks ls ↔ Derives ks ls := by
  constructor
  · intro h
    cases h with
    | empty before after => exact (derives_newlines after).newlines_append before
    | lines before after h =>
      rw [List.append_assoc]
      exact (h.derives after).newlines_append before
  · intro h
    induction h with
    | done => exact .empty 0 0
    | newline _ ih => exact ih.newline
    | line h hend _ ih => exact .line h hend ih

end StickerBot.Listing
