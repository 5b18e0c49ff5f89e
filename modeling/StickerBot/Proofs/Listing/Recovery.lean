import Mathlib.Data.List.Basic
import StickerBot.Proofs.Listing.Errors
import StickerBot.Proofs.Listing.Grammar
set_option autoImplicit false

/-!
# Recovery from errors

A line that cannot be read is reported once, and the reading goes on with the next line. So what the
parser makes of a line does not depend on the lines around it: every line means what it means on its
own, until as many lines have failed as a log stores errors. Only the header of a loop whose brace
is missing looks past the end of its line.

The reason is that no reader but that of a header looks past the end of a line, whether it finds
something or fails, so that skipping to the end of the line always ends where the line does.

## Main definitions

* `Listing.Within` — what a reader finds within a line, and what it leaves of it.
* `Listing.IsTokenLine`, `Listing.AwaitsBrace`, `Listing.JoinsTo` — lines of tokens, those that go
  on on the next line, and lines put together.
* `Listing.readAlone`, `Listing.failsAlone` — a line on its own.

## Main results

* `Listing.endsWithin_line` — reading a line stays within the line.
* `Listing.parseFrom_line` — a line is read, or reported once and skipped.
* `Listing.parse_lines` — lines put together are read as each of them is on its own.
-/

namespace StickerBot.Listing

/-! ### What tokens are -/

namespace TokenKind

/-- The name that a token is, if it is one. -/
def name? : TokenKind → Option String
  | .identifier x => some x
  | _ => none

/-- The text that a token is a literal of, if it is one. -/
def text? : TokenKind → Option String
  | .string text => some text
  | _ => none

/-- The number that a token is, if it is one. -/
def number? : TokenKind → Option Int
  | .integer n => some n
  | _ => none

end TokenKind

/-! ### Lines of tokens -/

/-- What a reader has found, if it has not failed. -/
def Outcome.found? {α : Type} : Outcome α → Option α
  | .ok a _ => some a
  | .fail _ _ => none

/-- **Lines of tokens.** None of the tokens ends a line. -/
def IsTokenLine (l : List Token) : Prop := ∀ t ∈ l, t.kind.endsLine = false

/-- Whether tokens are a line can be computed: every one of them is looked at. -/
instance (l : List Token) : Decidable (IsTokenLine l) := List.decidableBAll _ l

/-- What is left of a line is a line. -/
lemma IsTokenLine.suffix {l left : List Token} (h : IsTokenLine l) (hleft : left <:+ l) :
    IsTokenLine left := fun t ht => h t (hleft.subset ht)

/-- **Within a line.** What a reader finds in a line, if anything, and what it leaves of the line,
whatever comes after the line. -/
def Within {α : Type} (p : Reader α) (l : List Token) (found : Option α) (left : List Token) :
    Prop :=
  ∀ (c : Cursor) (rest : List Token), c.rest = l ++ rest → EndsLine (rest.map Token.kind) →
    (p c).found? = found ∧ (p c).next.rest = left ++ rest

/-- A reader stays within a line: what it leaves of the line, and whether it fails, does not depend
on what comes after the line. -/
def Reader.StaysWithin {α : Type} (p : Reader α) (l : List Token) : Prop :=
  ∃ found left, left <:+ l ∧ Within p l found left

/-! ### Readers stay within a line -/

section Within

variable {α β : Type} {l left : List Token} {t : Token} {k : TokenKind}

/-- In front of the end of a line stands its next token. -/
lemma head_tail_cons {c : Cursor} {rest : List Token} (h : c.rest = t :: l ++ rest) :
    c.head = t ∧ c.tail.rest = l ++ rest := by
  rw [List.cons_append] at h
  simp [Cursor.head, Cursor.tail, h]

/-- At the end of a line there is none of its tokens. -/
lemma endsLine_head {c : Cursor} {rest : List Token} (h : c.rest = [] ++ rest)
    (hrest : EndsLine (rest.map Token.kind)) : c.head.kind.endsLine = true := by
  unfold Cursor.head
  split
  · rfl
  · rename_i u us heq
    rw [List.nil_append] at h
    rw [h] at heq
    subst heq
    exact hrest u.kind rfl

/-- A reader that reads nothing finds what it is told to find and leaves the line as it is. -/
lemma within_pure (a : α) (l : List Token) : Within (pure a : Reader α) l (some a) l :=
  fun _ _ hc _ => ⟨rfl, hc⟩

/-- A complaint finds nothing and leaves the line as it is. -/
lemma within_unexpected (what : String) (l : List Token) :
    Within (unexpected what : Reader α) l none l := fun _ _ hc _ => ⟨rfl, hc⟩

/-- After what a first reader has found a second one goes on. -/
lemma Within.bind {p : Reader α} {f : α → Reader β} {a : α} {found : Option β}
    {left' : List Token} (hp : Within p l (some a) left) (hf : Within (f a) left found left') :
    Within (p >>= f) l found left' := by
  intro c rest hc hrest
  obtain ⟨hfound, hnext⟩ := hp c rest hc hrest
  show (Reader.bind p f c).found? = found ∧ (Reader.bind p f c).next.rest = left' ++ rest
  unfold Reader.bind
  cases h : p c with
  | ok b d =>
    rw [h] at hfound hnext
    obtain rfl := Option.some.inj hfound
    exact hf d rest hnext hrest
  | fail e d =>
    rw [h] at hfound
    simp [Outcome.found?] at hfound

/-- After a failure nothing goes on. -/
lemma Within.fail {p : Reader α} (f : α → Reader β) (hp : Within p l none left) :
    Within (p >>= f) l none left := by
  intro c rest hc hrest
  obtain ⟨hfound, hnext⟩ := hp c rest hc hrest
  show (Reader.bind p f c).found? = none ∧ (Reader.bind p f c).next.rest = left ++ rest
  unfold Reader.bind
  cases h : p c with
  | ok b d =>
    rw [h] at hfound
    simp [Outcome.found?] at hfound
  | fail e d =>
    rw [h] at hnext
    exact ⟨rfl, hnext⟩

/-- A reader that reads nothing stays within every line. -/
lemma staysWithin_pure (a : α) (l : List Token) : (pure a : Reader α).StaysWithin l :=
  ⟨_, l, List.suffix_rfl, within_pure a l⟩

/-- A complaint stays within every line: that it fails does not depend on what comes after. -/
lemma staysWithin_unexpected (what : String) (l : List Token) :
    (unexpected what : Reader α).StaysWithin l :=
  ⟨none, l, List.suffix_rfl, within_unexpected what l⟩

/-- One reader after the other stays within a line if both do. -/
lemma Reader.StaysWithin.bind {p : Reader α} {f : α → Reader β} (hp : p.StaysWithin l)
    (hf : ∀ a left, left <:+ l → (f a).StaysWithin left) : (p >>= f).StaysWithin l := by
  obtain ⟨found, left, hleft, hread⟩ := hp
  cases found with
  | none => exact ⟨none, left, hleft, hread.fail f⟩
  | some a =>
    obtain ⟨found', left', hleft', hread'⟩ := hf a left hleft
    exact ⟨found', left', hleft'.trans hleft, hread.bind hread'⟩

/-- A token that is looked for and comes next is taken. -/
lemma within_eat (h : t.kind = k) : Within (eat k) (t :: l) (some true) l := by
  intro c rest hc _
  obtain ⟨hhead, htail⟩ := head_tail_cons hc
  rw [eat, if_pos (by rw [hhead, h])]
  exact ⟨rfl, htail⟩

/-- A token that does not come next is not taken. -/
lemma within_eat_other (h : t.kind ≠ k) : Within (eat k) (t :: l) (some false) (t :: l) := by
  intro c rest hc _
  obtain ⟨hhead, -⟩ := head_tail_cons hc
  rw [eat, if_neg (by rw [hhead]; exact h)]
  exact ⟨rfl, hc⟩

/-- No token of a line is taken at its end. -/
lemma within_eat_nil (hk : k.endsLine = false) : Within (eat k) [] (some false) [] := by
  intro c rest hc hrest
  have hhead := endsLine_head hc hrest
  rw [eat, if_neg (fun h => by rw [h, hk] at hhead; exact absurd hhead (by decide))]
  exact ⟨rfl, hc⟩

/-- To look for a token stays within a line if the token does not end lines: at the end of the line
it is not there, whatever comes after. -/
lemma staysWithin_eat (hk : k.endsLine = false) (l : List Token) : (eat k).StaysWithin l := by
  cases l with
  | nil => exact ⟨_, [], List.suffix_rfl, within_eat_nil hk⟩
  | cons t l =>
    by_cases h : t.kind = k
    · exact ⟨_, l, List.suffix_cons t l, within_eat h⟩
    · exact ⟨_, t :: l, List.suffix_rfl, within_eat_other h⟩

/-- A token that must come and does is taken. -/
lemma within_expect (h : t.kind = k) : Within (expect k) (t :: l) (some ()) l :=
  (within_eat h).bind (within_pure () l)

/-- Else there is a failure, and nothing is taken. -/
lemma within_expect_other (h : t.kind ≠ k) : Within (expect k) (t :: l) none (t :: l) :=
  (within_eat_other h).bind (within_unexpected _ _)

/-- At the end of a line a token that must come is missing. -/
lemma within_expect_nil (hk : k.endsLine = false) : Within (expect k) [] none [] :=
  (within_eat_nil hk).bind (within_unexpected _ _)

/-- To demand a token stays within a line if the token does not end lines. -/
lemma staysWithin_expect (hk : k.endsLine = false) (l : List Token) :
    (expect k).StaysWithin l := by
  refine (staysWithin_eat hk l).bind fun b left _ => ?_
  cases b
  · exact staysWithin_unexpected _ left
  · exact staysWithin_pure () left

/-- What is found in the next token alone, of which the end of a line gives nothing. With a token of
its own a line decides by this token. An empty line has only what ends it, and there the reader
fails without taking anything. -/
lemma staysWithin_token {p : Reader α} (f : TokenKind → Option α)
    (hsome : ∀ c a, f c.head.kind = some a → p c = .ok a c.tail)
    (hnone : ∀ c, f c.head.kind = none → ∃ d, p c = .fail d c)
    (hends : ∀ k, k.endsLine = true → f k = none) (l : List Token) : p.StaysWithin l := by
  have hfails : ∀ l, (∀ (c : Cursor) (rest : List Token), c.rest = l ++ rest →
      EndsLine (rest.map Token.kind) → f c.head.kind = none) → p.StaysWithin l := by
    intro l h
    refine ⟨none, l, List.suffix_rfl, fun c rest hc hrest => ?_⟩
    obtain ⟨d, hd⟩ := hnone c (h c rest hc hrest)
    rw [hd]
    exact ⟨rfl, hc⟩
  cases l with
  | nil => exact hfails [] fun c rest hc hrest => hends _ (endsLine_head hc hrest)
  | cons t l =>
    cases ht : f t.kind with
    | none => exact hfails _ fun c rest hc _ => by rw [(head_tail_cons hc).1, ht]
    | some a =>
      refine ⟨some a, l, List.suffix_cons t l, fun c rest hc _ => ?_⟩
      obtain ⟨hhead, htail⟩ := head_tail_cons hc
      rw [hsome c a (by rw [hhead, ht])]
      exact ⟨rfl, htail⟩

/-- A name is read from the next token alone, and the end of a line is none. -/
lemma staysWithin_name (l : List Token) : name.StaysWithin l := by
  refine staysWithin_token TokenKind.name? (fun c x h => ?_) (fun c h => ?_) (fun k hk => ?_) l
  · unfold TokenKind.name? at h
    split at h <;> simp_all [name]
  · unfold TokenKind.name? at h
    split at h <;> simp_all [name, unexpected]
  · cases k <;> simp_all [TokenKind.endsLine, TokenKind.name?]

/-- A text in quotes is read from the next token alone, and the end of a line is none. -/
lemma staysWithin_quoted (l : List Token) : quoted.StaysWithin l := by
  refine staysWithin_token TokenKind.text? (fun c x h => ?_) (fun c h => ?_) (fun k hk => ?_) l
  · unfold TokenKind.text? at h
    split at h <;> simp_all [quoted]
  · unfold TokenKind.text? at h
    split at h <;> simp_all [quoted, unexpected]
  · cases k <;> simp_all [TokenKind.endsLine, TokenKind.text?]

/-- A whole number without a sign. -/
def digits : Reader Int := fun c =>
  match c.head.kind with
  | .integer n => .ok n c.tail
  | _ => unexpected "an integer" c

/-- Nothing is read where a value is to be found that there may be none of. -/
def fitting (value : Option α) : Reader α := fun c =>
  match value with
  | some a => .ok a c
  | none => .fail default c

/-- A number that must fit is read as a sign, a number without one, and nothing more. Only what is
reported if it does not fit is another thing. -/
lemma integer_next (fit : Int → Option α) (c : Cursor) :
    let parts : Reader α := do
      let negative ← eat .minus
      let n ← digits
      fitting (fit (if negative then -n else n))
    (integer fit c).found? = (parts c).found? ∧ (integer fit c).next = (parts c).next := by
  intro parts
  have hparts : parts c = Reader.bind (eat .minus) (fun negative => Reader.bind digits fun n =>
      fitting (fit (if negative then -n else n))) c := rfl
  rw [hparts]
  cases hc : c.head.kind with
  | minus =>
    cases hd : c.tail.head.kind with
    | integer n =>
      simp only [integer, Reader.bind, eat, digits, fitting, hc, hd, if_true]
      cases fit (-n) <;> exact ⟨rfl, rfl⟩
    | _ =>
      simp [integer, Reader.bind, eat, digits, unexpected, hc, hd, Outcome.found?, Outcome.next]
  | integer n =>
    simp only [integer, Reader.bind, eat, digits, fitting, hc, reduceCtorEq, Bool.false_eq_true,
      if_false]
    cases fit n <;> exact ⟨rfl, rfl⟩
  | _ => simp [integer, Reader.bind, eat, digits, unexpected, hc, Outcome.found?, Outcome.next]

/-- A number is read within a line: the sign and the number behind it are tokens of the line, or
there is no number. -/
lemma staysWithin_integer (fit : Int → Option α) (l : List Token) :
    (integer fit).StaysWithin l := by
  have hdigits : ∀ l, digits.StaysWithin l := by
    refine staysWithin_token TokenKind.number? (fun c x h => ?_) (fun c h => ?_) (fun k hk => ?_)
    · unfold TokenKind.number? at h
      split at h <;> simp_all [digits]
    · unfold TokenKind.number? at h
      split at h <;> simp_all [digits, unexpected]
    · cases k <;> simp_all [TokenKind.endsLine, TokenKind.number?]
  have hfitting : ∀ (value : Option α) (l : List Token), (fitting value).StaysWithin l :=
    fun value l => ⟨value, l, List.suffix_rfl, fun c rest hc _ => by
      cases value <;> exact ⟨rfl, hc⟩⟩
  obtain ⟨found, left, hleft, h⟩ := (staysWithin_eat (k := .minus) rfl l).bind
    fun negative left _ => (hdigits left).bind fun n left _ =>
      hfitting (fit (if negative then -n else n)) left
  refine ⟨found, left, hleft, fun c rest hc hrest => ?_⟩
  obtain ⟨hfound, hnext⟩ := integer_next fit c
  rw [hfound, hnext]
  exact h c rest hc hrest

/-- The end of a line is found where the line ends. -/
lemma within_lineEnd_nil : Within lineEnd [] (some ()) [] := by
  intro c rest hc hrest
  rw [lineEnd, if_pos (endsLine_head hc hrest)]
  exact ⟨rfl, hc⟩

/-- Where something follows the line is not over, and the line is left as it is. -/
lemma within_lineEnd_cons (ht : t.kind.endsLine = false) :
    Within lineEnd (t :: l) none (t :: l) := by
  intro c rest hc _
  rw [lineEnd, if_neg (by rw [(head_tail_cons hc).1, ht]; decide)]
  exact ⟨rfl, hc⟩

/-- At the end of a line nothing is left of it. -/
lemma staysWithin_lineEnd (a : α) {l : List Token} (hl : IsTokenLine l) :
    ∃ found left, left <:+ l ∧ Within (do lineEnd; return a) l found left ∧
      (found.isSome → left = []) := by
  cases l with
  | nil =>
    exact ⟨some a, [], List.suffix_rfl, within_lineEnd_nil.bind (within_pure a []), fun _ => rfl⟩
  | cons t l =>
    have ht : t.kind.endsLine = false := hl t (List.mem_cons_self ..)
    exact ⟨none, t :: l, List.suffix_rfl, (within_lineEnd_cons ht).fail _, by simp⟩

/-- The numbers of a call are one after the other. Written as a sequence of readers, the recursion
has the form in which its parts can be treated one by one. -/
lemma arguments_eq (read : List Int32) : arguments read = (do
    let n ← integer Word.int32?
    if ← eat .closeParen then return (n :: read).reverse
    else
      expect .comma
      arguments (n :: read) : Reader (List Int32)) := by
  funext c
  rw [arguments]
  show _ = Reader.bind (integer Word.int32?) _ c
  unfold Reader.bind
  split
  · rename_i e d h
    rw [h]
  · rename_i n d h
    rw [h]
    show _ = Reader.bind (eat .closeParen) _ d
    unfold Reader.bind eat
    split
    · rfl
    · show _ = Reader.bind (expect .comma) _ d
      unfold Reader.bind
      split
      · rename_i h'
        simp [h']
      · rename_i h'
        simp [h']

/-- The numbers of a call end with a parenthesis, or fail where there is none and no comma either.

**Proof sketch.** Induction on the tokens that are left of the line: each comma takes one. -/
lemma staysWithin_arguments (read : List Int32) (l : List Token) :
    Reader.StaysWithin (arguments read) l := by
  rw [arguments_eq]
  refine (staysWithin_integer _ l).bind fun n left hleft => ?_
  refine (staysWithin_eat rfl left).bind fun b left' hleft' => ?_
  cases b with
  | true => exact staysWithin_pure _ left'
  | false =>
    cases left' with
    | nil => exact ⟨none, [], List.suffix_rfl, (within_expect_nil rfl).fail _⟩
    | cons u left' =>
      by_cases hu : u.kind = .comma
      · have hshorter : left'.length < l.length := (hleft'.trans hleft).length_le
        obtain ⟨found, last, hlast, h⟩ := staysWithin_arguments (n :: read) left'
        exact ⟨found, last, hlast.trans (List.suffix_cons u left'), (within_expect hu).bind h⟩
      · exact ⟨none, u :: left', List.suffix_rfl, (within_expect_other hu).fail _⟩
termination_by l.length

/-- What a variable grows by is read within a line. -/
lemma staysWithin_growth (x : String) (l : List Token) : (growth x).StaysWithin l :=
  (staysWithin_expect rfl l).bind fun _ left _ => (staysWithin_integer _ left).bind
    fun _ left _ => staysWithin_pure _ left

/-- The number of an assignment is read within a line. -/
lemma staysWithin_assignment (x : String) (l : List Token) : (assignment x).StaysWithin l :=
  (staysWithin_integer _ l).bind fun _ left _ => staysWithin_pure _ left

/-- What is assigned is read within a line: which of its two forms it has is told by tokens of the
line. -/
lemma staysWithin_afterEquals (x : String) (l : List Token) :
    (afterEquals x).StaysWithin l := by
  -- what is no name is left to the number
  have hvalue : (∀ (c : Cursor) (rest : List Token), c.rest = l ++ rest →
      EndsLine (rest.map Token.kind) → ∀ y, c.head.kind ≠ .identifier y) →
      (afterEquals x).StaysWithin l := by
    intro hother
    obtain ⟨found, left, hleft, h⟩ := staysWithin_assignment x l
    refine ⟨found, left, hleft, fun c rest hc hrest => ?_⟩
    unfold afterEquals
    split
    · rename_i y hy
      exact absurd hy (hother c rest hc hrest y)
    · exact h c rest hc hrest
  cases l with
  | nil =>
    refine hvalue fun c rest hc hrest y hy => ?_
    have hhead := endsLine_head hc hrest
    simp [hy, TokenKind.endsLine] at hhead
  | cons t l =>
    by_cases ht : ∃ y, t.kind = .identifier y
    · obtain ⟨y, hy⟩ := ht
      by_cases hsame : y = x
      · obtain ⟨found, left, hleft, h⟩ := staysWithin_growth x l
        refine ⟨found, left, hleft.trans (List.suffix_cons t l), fun c rest hc hrest => ?_⟩
        obtain ⟨hhead, htail⟩ := head_tail_cons hc
        simp only [afterEquals, hhead, hy, hsame, if_true]
        exact h c.tail rest htail hrest
      · refine ⟨none, l, List.suffix_cons t l, fun c rest hc _ => ?_⟩
        obtain ⟨hhead, htail⟩ := head_tail_cons hc
        simp only [afterEquals, hhead, hy, hsame, if_false]
        exact ⟨rfl, htail⟩
    · exact hvalue fun c rest hc _ y hy => ht ⟨y, by rw [← (head_tail_cons hc).1, hy]⟩

/-- A call is read within a line: its numbers end at a bracket that is on the line, or are wrong on
it. -/
lemma staysWithin_call (x : String) (l : List Token) : (call x).StaysWithin l := by
  have hcall : call x = (do
      if ← eat .closeParen then return .call x []
      else
        let ns ← (arguments [] : Reader (List Int32))
        return .call x ns : Reader Instruction) := by
    funext c
    show _ = Reader.bind (eat .closeParen) _ c
    unfold call Reader.bind eat
    split
    · rfl
    · show _ = Reader.bind (arguments []) _ c
      unfold Reader.bind
      cases arguments [] c <;> rfl
  rw [hcall]
  refine (staysWithin_eat rfl l).bind fun b left _ => ?_
  cases b
  · exact Reader.StaysWithin.bind (staysWithin_arguments [] left) fun _ left _ =>
      staysWithin_pure _ left
  · exact staysWithin_pure _ left

/-- What comes after a name is read within a line, be it a call or an assignment. -/
lemma staysWithin_afterName (x : String) (l : List Token) : (afterName x).StaysWithin l := by
  refine (staysWithin_eat rfl l).bind fun b left _ => ?_
  cases b
  · exact (staysWithin_expect rfl left).bind fun _ left _ => staysWithin_afterEquals x left
  · exact staysWithin_call x left

/-- A condition is read within a line, in each of its two forms. -/
lemma staysWithin_condition (l : List Token) : condition.StaysWithin l := by
  refine (staysWithin_eat rfl l).bind fun b left _ => ?_
  cases b
  · exact (staysWithin_name left).bind fun _ left _ => (staysWithin_expect rfl left).bind
      fun _ left _ => (staysWithin_integer _ left).bind fun _ left _ => staysWithin_pure _ left
  · exact (staysWithin_name left).bind fun _ left _ => (staysWithin_expect rfl left).bind
      fun _ left _ => (staysWithin_expect rfl left).bind fun _ left _ => staysWithin_pure _ left

end Within

/-! ### Lines -/

/-- **Lines that go on.** The header of a loop up to its colon: its brace may stand on the next
line. -/
def AwaitsBrace (l : List Token) : Prop :=
  l.head?.map Token.kind = some .while ∧ l.getLast?.map Token.kind = some .colon

/-- Whether a line awaits a brace can be computed from its first token and its last one. -/
instance (l : List Token) : Decidable (AwaitsBrace l) := inferInstanceAs (Decidable (_ ∧ _))

/-- A reader that ends a line leaves nothing of it if it finds something. -/
def Reader.EndsWithin {α : Type} (p : Reader α) (l : List Token) : Prop :=
  ∃ found left, left <:+ l ∧ Within p l found left ∧ (found.isSome → left = [])

/-- Who ends the line after a reader that stays within it leaves nothing of it, unless one of the
two fails. -/
lemma Reader.StaysWithin.endsWithin {α β : Type} {p : Reader α} {f : α → Reader β}
    {l : List Token} (hp : p.StaysWithin l)
    (hf : ∀ a left, left <:+ l → (f a).EndsWithin left) : (p >>= f).EndsWithin l := by
  obtain ⟨found, left, hleft, h⟩ := hp
  cases found with
  | none => exact ⟨none, left, hleft, h.fail f, by simp⟩
  | some a =>
    obtain ⟨found', left', hleft', h', hend⟩ := hf a left hleft
    exact ⟨found', left', hleft'.trans hleft, h.bind h', hend⟩

/-- The header of a loop stays within its line, if something comes after its colon.

**Proof sketch.** After the colon the next token of the line is no end of a line, so that only the
brace may follow. -/
lemma endsWithin_loopHeader {l : List Token} (hl : IsTokenLine l)
    (hcolon : l.getLast?.map Token.kind ≠ some .colon) : loopHeader.EndsWithin l := by
  refine (staysWithin_condition l).endsWithin fun c left hleft => ?_
  cases left with
  | nil => exact ⟨none, [], List.suffix_rfl, (within_expect_nil rfl).fail _, by simp⟩
  | cons t left =>
    by_cases ht : t.kind = .colon
    · cases left with
      | nil =>
        obtain ⟨before, rfl⟩ := hleft
        exact absurd (by simp [ht]) hcolon
      | cons u left =>
        have hline := hl.suffix hleft
        have hu : u.kind ≠ .newline := fun h => by
          have := hline u (by simp)
          simp [h, TokenKind.endsLine] at this
        have hbrace : (do expect .openBrace; lineEnd; return Instruction.loop c :
            Reader _).EndsWithin (u :: left) :=
          (staysWithin_expect rfl _).endsWithin fun _ left' hleft' =>
            staysWithin_lineEnd _ ((hline.suffix (List.suffix_cons t _)).suffix hleft')
        obtain ⟨found, last, hlast, h, hend⟩ := hbrace
        exact ⟨found, last, hlast.trans (List.suffix_cons t _),
          (within_expect ht).bind ((within_eat_other hu).bind h), hend⟩
    · exact ⟨none, t :: left, List.suffix_rfl, (within_expect_other ht).fail _, by simp⟩

/-- **Lines.** Reading a line stays within the line, and leaves nothing of it unless it fails. -/
theorem endsWithin_line {t : Token} {l : List Token} (hl : IsTokenLine (t :: l))
    (hbrace : ¬ AwaitsBrace (t :: l)) : (line t).EndsWithin l := by
  have hrest : IsTokenLine l := hl.suffix (List.suffix_cons t l)
  have hend : ∀ (i : Instruction) (left : List Token), left <:+ l →
      (do lineEnd; return i : Reader _).EndsWithin left :=
    fun i left hleft => staysWithin_lineEnd i (hrest.suffix hleft)
  unfold line
  split
  · exact (staysWithin_integer _ l).endsWithin fun n left hleft => hend _ left hleft
  · exact (staysWithin_integer _ l).endsWithin fun n left hleft => hend _ left hleft
  · exact (staysWithin_quoted l).endsWithin fun s left hleft => hend _ left hleft
  · rename_i ht
    refine endsWithin_loopHeader hrest fun hcolon => hbrace ⟨by simp [ht], ?_⟩
    cases l with
    | nil => simp at hcolon
    | cons u l => simpa [List.getLast?_cons_cons] using hcolon
  · exact hend _ l List.suffix_rfl
  · exact (staysWithin_afterName _ l).endsWithin fun i left hleft => hend i left hleft
  · exact ⟨none, l, List.suffix_rfl, fun _ _ hc _ => ⟨rfl, hc⟩, by simp⟩

/-! ### One line after the other -/

/-- Skipping to the end of a line goes to what comes after its tokens. -/
lemma skipLine_append {left rest : List Token} (hleft : IsTokenLine left)
    (hrest : EndsLine (rest.map Token.kind)) : skipLine (left ++ rest) = rest := by
  rw [skipLine, List.dropWhile_append_of_pos fun t ht => by simp [hleft t ht]]
  cases rest with
  | nil => rfl
  | cons t rest => simp [hrest t.kind rfl]

/-- Where as many errors were found as a log stores, nothing more is read. -/
lemma parseFrom_full {lines : List (Instruction × Span)} {errors : List Diagnostic}
    (hfull : DiagnosticLog.capacity ≤ errors.length) (ts : List Token) :
    parseFrom lines errors ts = ⟨lines.reverse, errors.reverse⟩ := by
  induction ts with
  | nil => rw [parseFrom]
  | cons t ts ih =>
    rw [parseFrom]
    split
    · exact ih
    · rw [if_pos (.inr hfull)]

/-- The end of the input ends the reading. -/
lemma parseFrom_end {lines : List (Instruction × Span)} {errors : List Diagnostic} {e : Token}
    (he : e.kind = .endOfInput) :
    parseFrom lines errors [e] = ⟨lines.reverse, errors.reverse⟩ := by
  rw [parseFrom, if_neg (by simp [he]), if_pos (.inl he)]

/-- **One line.** In a line, if it is not empty, either an instruction is found, or one error, in
whatever place the line stands. Then the reading goes on after the line. -/
theorem parseFrom_line {t : Token} {l : List Token} (hl : IsTokenLine (t :: l))
    (hbrace : ¬ AwaitsBrace (t :: l)) : ∃ found : Option Instruction,
    ∀ (lines : List (Instruction × Span)) (errors : List Diagnostic) (rest : List Token),
      errors.length < DiagnosticLog.capacity → EndsLine (rest.map Token.kind) →
      (∀ i, found = some i → ∃ span,
        parseFrom lines errors (t :: l ++ rest) = parseFrom ((i, span) :: lines) errors rest) ∧
      (found = none → ∃ d,
        parseFrom lines errors (t :: l ++ rest) = parseFrom lines (d :: errors) rest) := by
  obtain ⟨found, left, hleft, h, hend⟩ := endsWithin_line hl hbrace
  refine ⟨found, fun lines errors rest herrors hrest => ?_⟩
  obtain ⟨hfound, hnext⟩ := h ⟨l ++ rest, t.span⟩ rest rfl hrest
  have ht : t.kind.endsLine = false := hl t (List.mem_cons_self ..)
  have hnewline : t.kind ≠ .newline := fun h => by simp [h, TokenKind.endsLine] at ht
  have hinput : t.kind ≠ .endOfInput := fun h => by simp [h, TokenKind.endsLine] at ht
  rw [List.cons_append, parseFrom, if_neg hnewline, if_neg (by simp [hinput, herrors])]
  split
  · rename_i i c hread
    rw [hread] at hfound hnext
    have hnothing : left = [] := hend (by rw [← hfound]; rfl)
    have hcursor : c.rest = rest := by simpa [Outcome.next, hnothing] using hnext
    rw [hcursor]
    refine ⟨fun j hj => ?_, fun hnone => by simp [← hfound, Outcome.found?] at hnone⟩
    obtain rfl : i = j := by simpa [← hfound, Outcome.found?] using hj
    exact ⟨_, rfl⟩
  · rename_i d c hread
    rw [hread] at hfound hnext
    have hskip : skipLine c.rest = rest := by
      have hcursor : c.rest = left ++ rest := hnext
      rw [hcursor]
      exact skipLine_append ((hl.suffix (List.suffix_cons t l)).suffix hleft) hrest
    rw [hskip]
    exact ⟨fun j hj => by simp [← hfound, Outcome.found?] at hj, fun _ => ⟨d, rfl⟩⟩

/-! ### Lines on their own -/

/-- **A line on its own**: what the parser makes of it if nothing else is there. -/
def readAlone (l : List Token) : Parsed := parse (l ++ [⟨.endOfInput, default⟩])

/-- Whether a line cannot be read on its own. -/
def failsAlone (l : List Token) : Bool := !(readAlone l).errors.isEmpty

/-- The instructions of the lines that can be read on their own, in order. -/
def instructionsOf (ls : List (List Token)) : List Instruction :=
  (ls.filter fun l => !failsAlone l).flatMap fun l => (readAlone l).lines.map Prod.fst

/-- An empty line says nothing. -/
lemma readAlone_nil : readAlone [] = ⟨[], []⟩ := by
  rw [readAlone, parse, List.nil_append, parseFrom_end rfl]
  rfl

/-- An empty line does not fail: it says nothing, and nothing is wrong with it. -/
lemma failsAlone_nil : failsAlone [] = false := by
  rw [failsAlone, readAlone_nil]
  rfl

/-- **Reading on.** What the parser makes of lines, after instructions and errors that it has found
before: the instructions of those that can be read on their own, and one error for each of the
others, up to the one with which as many errors are found as a log stores. -/
def Recovers (ls : List (List Token)) (lines : List (Instruction × Span))
    (errors : List Diagnostic) (p : Parsed) : Prop :=
  (errors.length + ls.countP failsAlone < DiagnosticLog.capacity →
    p.lines.map Prod.fst = lines.reverse.map Prod.fst ++ instructionsOf ls ∧
      p.errors.length = errors.length + ls.countP failsAlone) ∧
  (DiagnosticLog.capacity ≤ errors.length + ls.countP failsAlone →
    ∃ before l after, ls = before ++ l :: after ∧ failsAlone l = true ∧
      errors.length + before.countP failsAlone + 1 = DiagnosticLog.capacity ∧
      p.lines.map Prod.fst = lines.reverse.map Prod.fst ++ instructionsOf before ∧
      p.errors.length = DiagnosticLog.capacity)

/-- What a line that is not empty comes to on its own, and in front of other lines.

**Proof sketch.** What is read in a line does not depend on what comes behind the end of it, so it
is found by reading the line in front of the end of the input. It is either one instruction or one
error, and the parser goes on behind the line. -/
lemma readAlone_cons {t : Token} {l : List Token} (hl : IsTokenLine (t :: l))
    (hbrace : ¬ AwaitsBrace (t :: l)) :
    (failsAlone (t :: l) = false ∧ ∃ i, (readAlone (t :: l)).lines.map Prod.fst = [i] ∧
      ∀ lines errors rest, errors.length < DiagnosticLog.capacity →
        EndsLine (rest.map Token.kind) → ∃ span,
        parseFrom lines errors (t :: l ++ rest) = parseFrom ((i, span) :: lines) errors rest) ∨
    (failsAlone (t :: l) = true ∧ (readAlone (t :: l)).lines = [] ∧
      (readAlone (t :: l)).errors.length = 1 ∧
      ∀ lines errors rest, errors.length < DiagnosticLog.capacity →
        EndsLine (rest.map Token.kind) → ∃ d,
        parseFrom lines errors (t :: l ++ rest) = parseFrom lines (d :: errors) rest) := by
  obtain ⟨found, h⟩ := parseFrom_line hl hbrace
  obtain ⟨hsome, hnone⟩ := h [] [] [⟨.endOfInput, default⟩] (by decide) (endsLine_cons rfl _)
  cases found with
  | some i =>
    obtain ⟨span, halone⟩ := hsome i rfl
    have hread : readAlone (t :: l) = ⟨[(i, span)], []⟩ := by
      rw [readAlone, parse, halone, parseFrom_end rfl]
      rfl
    refine .inl ⟨by rw [failsAlone, hread]; rfl, i, by rw [hread]; rfl, ?_⟩
    exact fun lines errors rest herrors hrest => (h lines errors rest herrors hrest).1 i rfl
  | none =>
    obtain ⟨d, halone⟩ := hnone rfl
    have hread : readAlone (t :: l) = ⟨[], [d]⟩ := by
      rw [readAlone, parse, halone, parseFrom_end rfl]
      rfl
    refine .inr ⟨by rw [failsAlone, hread]; rfl, by rw [hread], by rw [hread]; rfl, ?_⟩
    exact fun lines errors rest herrors hrest => (h lines errors rest herrors hrest).2 rfl

/-- A line that can be read, in front of others, adds its instruction. It does not fail, so that the
lines which fail are the same with it and without it, and its instruction comes before theirs. -/
lemma Recovers.cons_read {l : List Token} {ls : List (List Token)}
    {lines lines' : List (Instruction × Span)} {errors : List Diagnostic} {p : Parsed}
    (hl : failsAlone l = false) (hlines : lines'.reverse.map Prod.fst =
      lines.reverse.map Prod.fst ++ (readAlone l).lines.map Prod.fst)
    (h : Recovers ls lines' errors p) : Recovers (l :: ls) lines errors p := by
  have hcount : ∀ ls, (l :: ls).countP failsAlone = ls.countP failsAlone :=
    fun ls => List.countP_cons_of_neg (by simp [hl])
  have hcons : ∀ ls, instructionsOf (l :: ls) =
      (readAlone l).lines.map Prod.fst ++ instructionsOf ls :=
    fun ls => by simp [instructionsOf, hl]
  refine ⟨fun hroom => ?_, fun hfull => ?_⟩
  · rw [hcount] at hroom
    obtain ⟨hfound, hcounted⟩ := h.1 hroom
    rw [hcount, hcons, ← List.append_assoc, ← hlines]
    exact ⟨hfound, hcounted⟩
  · rw [hcount] at hfull
    obtain ⟨before, l', after, rfl, hl', hbefore, hfound, herrors⟩ := h.2 hfull
    refine ⟨l :: before, l', after, rfl, hl', by rw [hcount]; exact hbefore, ?_, herrors⟩
    rw [hcons, ← List.append_assoc, ← hlines]
    exact hfound

/-- A line that cannot be read, in front of others, adds its error. It fails, so that there is one
more of the lines which fail and room for one error less, and it has no instruction. -/
lemma Recovers.cons_failed {l : List Token} {ls : List (List Token)}
    {lines : List (Instruction × Span)} {errors : List Diagnostic} {d : Diagnostic} {p : Parsed}
    (hl : failsAlone l = true) (h : Recovers ls lines (d :: errors) p) :
    Recovers (l :: ls) lines errors p := by
  have hcount : ∀ ls, (l :: ls).countP failsAlone = ls.countP failsAlone + 1 :=
    fun ls => List.countP_cons_of_pos hl
  have hcons : ∀ ls, instructionsOf (l :: ls) = instructionsOf ls :=
    fun ls => by simp [instructionsOf, hl]
  have hlength : (d :: errors).length = errors.length + 1 := rfl
  refine ⟨fun hroom => ?_, fun hfull => ?_⟩
  · rw [hcount] at hroom
    obtain ⟨hfound, hcounted⟩ := h.1 (by omega)
    rw [hcount, hcons]
    exact ⟨hfound, by omega⟩
  · rw [hcount] at hfull
    obtain ⟨before, l', after, rfl, hl', hbefore, hfound, herrors⟩ := h.2 (by omega)
    refine ⟨l :: before, l', after, rfl, hl', by rw [hcount]; omega, ?_, herrors⟩
    rw [hcons]
    exact hfound

/-- A line in front of others: if they are read on after it, so it is with the line.

**Proof sketch.** A line that can be read adds its instruction, and one that fails adds its error.
If there was room for one more error only, a line that fails is the last that is looked at. -/
lemma recovers_cons {l : List Token} (hl : IsTokenLine l) (hbrace : ¬ AwaitsBrace l)
    {ls : List (List Token)} {rest : List Token} (hrest : EndsLine (rest.map Token.kind))
    (h : ∀ lines errors, errors.length < DiagnosticLog.capacity →
      Recovers ls lines errors (parseFrom lines errors rest))
    (lines : List (Instruction × Span)) (errors : List Diagnostic)
    (herrors : errors.length < DiagnosticLog.capacity) :
    Recovers (l :: ls) lines errors (parseFrom lines errors (l ++ rest)) := by
  cases l with
  | nil => exact (h lines errors herrors).cons_read failsAlone_nil (by simp [readAlone_nil])
  | cons t l =>
    obtain ⟨hread, i, hi, hgo⟩ | ⟨hfails, -, -, hgo⟩ := readAlone_cons hl hbrace
    · obtain ⟨span, hparse⟩ := hgo lines errors rest herrors hrest
      rw [hparse]
      exact (h _ errors herrors).cons_read hread (by simp [hi])
    · obtain ⟨d, hparse⟩ := hgo lines errors rest herrors hrest
      rw [hparse]
      by_cases hroom : errors.length + 1 < DiagnosticLog.capacity
      · exact (h lines (d :: errors) hroom).cons_failed hfails
      · have hlast : errors.length + 1 = DiagnosticLog.capacity := by omega
        rw [parseFrom_full (by simp [hlast])]
        refine ⟨fun hless => ?_, fun _ => ⟨[], t :: l, ls, rfl, hfails, hlast, ?_, ?_⟩⟩
        · rw [List.countP_cons_of_pos hfails] at hless
          omega
        · simp [instructionsOf]
        · simp [hlast]

/-! ### Lines put together -/

/-- **Lines put together**, with the end of a line between them and the end of the input after
them. -/
inductive JoinsTo : List (List Token) → List Token → Prop
  | none {e : Token} (he : e.kind = .endOfInput) : JoinsTo [] [e]
  | last {l : List Token} {e : Token} (he : e.kind = .endOfInput) : JoinsTo [l] (l ++ [e])
  | more {l l' : List Token} {n : Token} {ls : List (List Token)} {ts : List Token}
    (hn : n.kind = .newline) (h : JoinsTo (l' :: ls) ts) : JoinsTo (l :: l' :: ls) (l ++ n :: ts)

/-- Lines put together are read one after the other.

**Proof sketch.** Induction on the lines. The last line is followed by the end of the input and the
others by a line break, both of which end a line. -/
lemma recovers_of_joinsTo {ls : List (List Token)} {ts : List Token} (hjoin : JoinsTo ls ts)
    (hls : ∀ l ∈ ls, IsTokenLine l ∧ ¬ AwaitsBrace l) :
    ∀ (lines : List (Instruction × Span)) (errors : List Diagnostic),
      errors.length < DiagnosticLog.capacity →
      Recovers ls lines errors (parseFrom lines errors ts) := by
  have hempty : ∀ {e : Token}, e.kind = .endOfInput → ∀ lines errors,
      errors.length < DiagnosticLog.capacity →
        Recovers [] lines errors (parseFrom lines errors [e]) := by
    intro e he lines errors herrors
    rw [parseFrom_end he]
    exact ⟨fun _ => by simp [instructionsOf], fun hfull => by simp at hfull; omega⟩
  induction hjoin with
  | none he => exact hempty he
  | @last l e he =>
    obtain ⟨hl, hbrace⟩ := hls l (List.mem_singleton_self l)
    exact recovers_cons hl hbrace (endsLine_cons (by rw [he]; rfl) _) (hempty he)
  | @more l l' n ls ts hn _ ih =>
    obtain ⟨⟨hl, hbrace⟩, hrest⟩ := List.forall_mem_cons.1 hls
    refine recovers_cons hl hbrace (endsLine_cons (by rw [hn]; rfl) _)
      fun lines errors herrors => ?_
    rw [parseFrom, if_pos hn]
    exact ih hrest lines errors herrors

/-- All that the parser finds wrong is counted. -/
lemma totalErrors_parse (ts : List Token) :
    (DiagnosticLog.ofList (parse ts).errors).totalErrors = (parse ts).errors.length := by
  have hall := DiagnosticLog.pushAll_of_errors (parse ts).errors .empty
    fun _ => severity_of_mem_parse
  rw [DiagnosticLog.ofList, hall]
  exact Nat.zero_add _

/-- **Recovery is line by line.** In lines put together, of which none goes on on the next one, each
line that is not empty gives on its own either one instruction and no error, or one error and no
instruction. If fewer of them fail than a log stores errors, the parser finds the instructions of
all others, in order, and counts one error for each that fails. If as many fail or more, it finds
the instructions of those before the one with which the log is full, and counts as many errors as
the log stores. -/
theorem parse_lines {ls : List (List Token)} {ts : List Token} (hjoin : JoinsTo ls ts)
    (hls : ∀ l ∈ ls, IsTokenLine l ∧ ¬ AwaitsBrace l) :
    (∀ l ∈ ls, l ≠ [] →
      if failsAlone l then (readAlone l).lines = [] ∧ (readAlone l).errors.length = 1
      else (readAlone l).lines.length = 1 ∧ (readAlone l).errors = []) ∧
    (ls.countP failsAlone < DiagnosticLog.capacity →
      (parse ts).lines.map Prod.fst = instructionsOf ls ∧
        (DiagnosticLog.ofList (parse ts).errors).totalErrors = ls.countP failsAlone) ∧
    (DiagnosticLog.capacity ≤ ls.countP failsAlone →
      ∃ before l after, ls = before ++ l :: after ∧ failsAlone l = true ∧
        before.countP failsAlone + 1 = DiagnosticLog.capacity ∧
        (parse ts).lines.map Prod.fst = instructionsOf before ∧
        (DiagnosticLog.ofList (parse ts).errors).totalErrors = DiagnosticLog.capacity) := by
  obtain ⟨hroom, hfull⟩ := recovers_of_joinsTo hjoin hls [] [] (by decide)
  rw [totalErrors_parse]
  refine ⟨fun l hmem hne => ?_, fun hless => ?_, fun hmore => ?_⟩
  · obtain ⟨hl, hbrace⟩ := hls l hmem
    obtain ⟨t, l, rfl⟩ := List.exists_cons_of_ne_nil hne
    obtain ⟨hread, i, hi, -⟩ | ⟨hfails, hlines, herrors, -⟩ := readAlone_cons hl hbrace
    · rw [if_neg (by simp [hread])]
      refine ⟨by simpa using congrArg List.length hi, ?_⟩
      simpa [failsAlone] using hread
    · rw [if_pos hfails]
      exact ⟨hlines, herrors⟩
  · simpa [parse] using hroom (by simpa using hless)
  · simpa [parse] using hfull (by simpa using hmore)

/-- Four lines and an empty one. The first lets a variable grow from another one, and the wait has
no number. -/
def brokenLines : List (List Token) :=
  [[.identifier "x", .equals, .identifier "y", .plus, .integer 1],
    [.identifier "jump", .openParen, .closeParen], [], [.wait],
    [.identifier "spin", .openParen, .closeParen]].map (·.map (⟨·, default⟩))

/-- The broken lines put together. -/
def brokenTokens : List Token :=
  [.identifier "x", .equals, .identifier "y", .plus, .integer 1, .newline,
    .identifier "jump", .openParen, .closeParen, .newline, .newline, .wait, .newline,
    .identifier "spin", .openParen, .closeParen, .endOfInput].map (⟨·, default⟩)

/-- The broken lines are joined by ends of lines, and the end of the input comes behind the last of
them. -/
lemma joinsTo_broken : JoinsTo brokenLines brokenTokens :=
  .more rfl (.more rfl (.more rfl (.more rfl (.last rfl))))

/-- Two of the broken lines fail, and the others are read. -/
theorem parse_lines_broken : JoinsTo brokenLines brokenTokens ∧
    (∀ l ∈ brokenLines, IsTokenLine l ∧ ¬ AwaitsBrace l) ∧
      (parse brokenTokens).lines.map Prod.fst = [.call "jump" [], .call "spin" []] ∧
      (DiagnosticLog.ofList (parse brokenTokens).errors).totalErrors = 2 := by
  have hlines : ∀ l ∈ brokenLines, IsTokenLine l ∧ ¬ AwaitsBrace l := by decide
  have hcount : brokenLines.countP failsAlone = 2 := by cbv
  have hinstructions : instructionsOf brokenLines = [.call "jump" [], .call "spin" []] := by cbv
  obtain ⟨-, hfound, -⟩ := parse_lines joinsTo_broken hlines
  rw [hcount, hinstructions] at hfound
  exact ⟨joinsTo_broken, hlines, hfound (by decide)⟩

end StickerBot.Listing
