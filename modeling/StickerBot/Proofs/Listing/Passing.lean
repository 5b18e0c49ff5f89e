import Mathlib.Logic.Relation
import StickerBot.Listing.Parser
set_option autoImplicit false

/-!
# Readers pass tokens one by one

Whatever a reader finds, it has gone on from token to token, and it has never gone past the end of
the input. So the tokens that it has taken are those between where it began and where it stands, and
the span that it keeps is that of the last token taken.

## Main definitions

* `Listing.Cursor.Passes` — going past one token.
* `Listing.Reader.Passes` — a reader that goes past one token after the other.

## Main results

* `Listing.passes_line` — so does the reader of a line.
* `Listing.Cursor.exists_taken` — the tokens that were passed.
-/

namespace StickerBot.Listing

open Relation

/-- **Passing a token** that is not the end of the input. -/
def Cursor.Passes (c d : Cursor) : Prop := c.head.kind ≠ .endOfInput ∧ d = c.tail

/-- A token of any kind but the end of the input is passed. -/
lemma Cursor.passes_tail {c : Cursor} {k : TokenKind} (h : c.head.kind = k)
    (hk : k ≠ .endOfInput) : ReflTransGen Cursor.Passes c c.tail :=
  .single ⟨h ▸ hk, rfl⟩

/-- **Tokens that were passed** stand between two cursors. None of them is the end of the input,
and the span that is kept is that of the last one. -/
theorem Cursor.exists_taken {c d : Cursor} (h : ReflTransGen Cursor.Passes c d) :
    ∃ taken, c.rest = taken ++ d.rest ∧ (∀ t ∈ taken, t.kind ≠ .endOfInput) ∧
      d.last = (taken.getLast?.map Token.span).getD c.last := by
  induction h with
  | refl => exact ⟨[], rfl, by simp, rfl⟩
  | @tail d _ _ hpass ih =>
    obtain ⟨taken, hrest, htaken, hlast⟩ := ih
    obtain ⟨hkind, rfl⟩ := hpass
    obtain ⟨rest, last⟩ := d
    cases rest with
    | nil => exact absurd rfl hkind
    | cons t rest =>
      refine ⟨taken ++ [t], by rw [hrest, List.append_assoc]; rfl, ?_, by simp [Cursor.tail]⟩
      exact List.forall_mem_append.2 ⟨htaken, List.forall_mem_singleton.2 hkind⟩

/-- **Passing tokens.** A reader goes past one token after the other. -/
def Reader.Passes {α : Type} (p : Reader α) : Prop :=
  ∀ c, ReflTransGen Cursor.Passes c (p c).next

namespace Reader

variable {α β : Type}

/-- A reader that reads nothing stays where it is. -/
lemma passes_pure (a : α) : Passes (pure a : Reader α) := fun _ => .refl

/-- What is passed by one reader and then by the next is passed by both together; after a failure
nothing more is passed. -/
lemma Passes.bind {p : Reader α} {f : α → Reader β} (hp : Passes p) (hf : ∀ a, Passes (f a)) :
    Passes (p >>= f) := by
  intro c
  have h := hp c
  change ReflTransGen Cursor.Passes c (Reader.bind p f c).next
  unfold Reader.bind
  cases hc : p c with
  | ok a d => rw [hc] at h; exact h.trans (hf a d)
  | fail e d => rw [hc] at h; exact h

end Reader

open Cursor

/-- A complaint passes nothing. -/
lemma passes_unexpected {α : Type} (what : String) : (unexpected what : Reader α).Passes :=
  fun _ => .refl

/-- To look for a token is to pass it if it comes next. The end of the input is not to be looked for
in this way, as it is never passed. -/
lemma passes_eat {kind : TokenKind} (hk : kind ≠ .endOfInput) : (eat kind).Passes := by
  intro c
  unfold eat
  split
  · exact passes_tail ‹_› hk
  · exact .refl

/-- To demand a token is to pass it if it comes next. -/
lemma passes_expect {kind : TokenKind} (hk : kind ≠ .endOfInput) : (expect kind).Passes := by
  refine (passes_eat hk).bind fun b => ?_
  cases b
  · exact passes_unexpected _
  · exact Reader.passes_pure ()

/-- A name is passed as it is read. -/
lemma passes_name : name.Passes := by
  intro c
  unfold name
  split
  · exact passes_tail ‹_› (by simp)
  · exact .refl

/-- A text in quotes is passed as it is read. -/
lemma passes_quoted : quoted.Passes := by
  intro c
  unfold quoted
  split
  · exact passes_tail ‹_› (by simp)
  · exact .refl

/-- A number is passed with its sign, also if it does not fit. Where no number follows, the sign is
passed alone. -/
lemma passes_integer {α : Type} (fit : Int → Option α) : (integer fit).Passes := by
  intro c
  have hsign : ReflTransGen Cursor.Passes c (if c.head.kind = .minus then c.tail else c) := by
    split
    · exact passes_tail ‹_› (by simp)
    · exact .refl
  unfold integer
  dsimp only
  generalize (if c.head.kind = .minus then c.tail else c) = d at hsign ⊢
  split
  · rename_i n hn
    have hnumber := hsign.trans (passes_tail hn (by simp))
    split <;> exact hnumber
  · exact hsign

/-- The end of a line is seen and not passed; whoever reads the next line does that. -/
lemma passes_lineEnd : lineEnd.Passes := by
  intro c
  unfold lineEnd
  split <;> exact .refl

/-! ### Lines -/

/-- The numbers of a call are passed, each with what comes after it. The cases are those of the
recursion: a number that fails, the parenthesis that closes the call, a comma that is missing, or a
comma and then the other numbers. -/
lemma passes_arguments (read : List Int32) : Reader.Passes (arguments read) := by
  intro c
  fun_induction arguments read c with
  | case1 read c e d hi =>
    have h := passes_integer Word.int32? c
    rw [hi] at h
    exact h
  | case2 read c n d hi hd =>
    have h := passes_integer Word.int32? c
    rw [hi] at h
    exact h.trans (passes_tail hd (by simp))
  | case3 read c n d hi hd e f hc =>
    have h₁ := passes_integer Word.int32? c
    have h₂ := passes_expect (show TokenKind.comma ≠ .endOfInput by simp) d
    rw [hi] at h₁
    rw [hc] at h₂
    exact h₁.trans h₂
  | case4 read c n d hi hd f hc ih =>
    have h₁ := passes_integer Word.int32? c
    have h₂ := passes_expect (show TokenKind.comma ≠ .endOfInput by simp) d
    rw [hi] at h₁
    rw [hc] at h₂
    exact (h₁.trans h₂).trans ih

/-- A call passes its bracket, its numbers and the other bracket, as far as they are there. -/
lemma passes_call (x : String) : (call x).Passes := by
  intro c
  unfold call
  split
  · exact passes_tail ‹_› (by simp)
  · have h := passes_arguments [] c
    split <;> rename_i heq <;> rw [heq] at h <;> exact h

/-- What a variable grows by is passed, after the name and the sign. -/
lemma passes_growth (x : String) : (growth x).Passes :=
  (passes_expect (by simp)).bind fun _ => (passes_integer _).bind fun _ => Reader.passes_pure _

/-- The number of an assignment is passed. -/
lemma passes_assignment (x : String) : (assignment x).Passes :=
  (passes_integer _).bind fun _ => Reader.passes_pure _

/-- What is assigned is passed, in each of its two forms. -/
lemma passes_afterEquals (x : String) : (afterEquals x).Passes := by
  intro c
  unfold afterEquals
  split
  · rename_i y hy
    have h := passes_tail hy (by simp)
    split
    · exact h.trans (passes_growth x c.tail)
    · exact h
  · exact passes_assignment x c

/-- What comes after a name is passed, be it a call or an assignment. -/
lemma passes_afterName (x : String) : (afterName x).Passes := by
  refine (passes_eat (by simp)).bind fun b => ?_
  cases b
  · exact (passes_expect (by simp)).bind fun _ => passes_afterEquals x
  · exact passes_call x

/-- A condition is passed, in each of its two forms. -/
lemma passes_condition : condition.Passes := by
  refine (passes_eat (by simp)).bind fun b => ?_
  cases b
  · exact passes_name.bind fun _ => (passes_expect (by simp)).bind fun _ =>
      (passes_integer _).bind fun _ => Reader.passes_pure _
  · exact passes_name.bind fun _ => (passes_expect (by simp)).bind fun _ =>
      (passes_expect (by simp)).bind fun _ => Reader.passes_pure _

/-- A loop header is passed up to its brace, with the end of a line before it if there is one. -/
lemma passes_loopHeader : loopHeader.Passes :=
  passes_condition.bind fun _ => (passes_expect (by simp)).bind fun _ =>
    (passes_eat (by simp)).bind fun _ => (passes_expect (by simp)).bind fun _ =>
      passes_lineEnd.bind fun _ => Reader.passes_pure _

/-- **A line** is read token by token, and the end of the input is left where it is. -/
theorem passes_line (t : Token) : (line t).Passes := by
  unfold line
  split
  · exact (passes_integer _).bind fun _ => passes_lineEnd.bind fun _ => Reader.passes_pure _
  · exact (passes_integer _).bind fun _ => passes_lineEnd.bind fun _ => Reader.passes_pure _
  · exact passes_quoted.bind fun _ => passes_lineEnd.bind fun _ => Reader.passes_pure _
  · exact passes_loopHeader
  · exact passes_lineEnd.bind fun _ => Reader.passes_pure _
  · exact (passes_afterName _).bind fun _ => passes_lineEnd.bind fun _ => Reader.passes_pure _
  · exact fun _ => .refl

end StickerBot.Listing
