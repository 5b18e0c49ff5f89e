import Mathlib
import StickerBot.Listing.Assembly
set_option autoImplicit false

/-!
# Names in listings

A listing names calls, variables and sensors. Whatever text is assembled, with errors or without,
the names in its instructions are words of letters, digits and underscores that do not begin
with a digit and are no keywords: the lexer makes no other words into names, and the parser takes
every name from such a word.

## Main definitions

* `IsName` — the words that may be names.
* `Instruction.names` — the names in an instruction.
* `Listing.Reader.Yields` — what a reader finds among tokens whose names may be names.

## Main results

* `Listing.lexFrom_tokens` — what holds of all tokens of a text.
* `Listing.named_lex` — the names among the tokens of a text may be names.
* `Listing.named_assemble` — so may the names in the instructions of a text.
-/

namespace StickerBot

/-- What a name may begin with: a letter or an underscore. -/
def NameStart (c : Char) : Prop := ('a' ≤ c ∧ c ≤ 'z') ∨ ('A' ≤ c ∧ c ≤ 'Z') ∨ c = '_'

/-- What a name may go on with: also a digit. -/
def NamePart (c : Char) : Prop := NameStart c ∨ ('0' ≤ c ∧ c ≤ '9')

/-- The words of the language that are no names. -/
def keywords : List String := ["wait", "while", "not", "trace", "print"]

/-- **Names.** A letter or an underscore, then letters, digits and underscores; and no keyword. -/
def IsName (x : String) : Prop :=
  (∃ c cs, x.toList = c :: cs ∧ NameStart c ∧ ∀ d ∈ cs, NamePart d) ∧ x ∉ keywords

namespace Instruction

/-- The names in an instruction: of a call, a variable or a sensor. -/
def names : Instruction → List String
  | .call f _ => [f]
  | .assign x _ | .increment x _ | .loop (.below x _) | .loop (.sensorNotRaised x) => [x]
  | .wait _ | .close | .trace _ | .print _ => []

/-- Every name in an instruction may be a name. -/
def Named (i : Instruction) : Prop := ∀ x ∈ i.names, IsName x

end Instruction

namespace Listing

/-! ### Words that may be names -/

/-- A word begins as a name does. -/
lemma startsWord_iff {c : Char} : startsWord c = true ↔ NameStart c := by
  simp only [startsWord, Char.isAlpha, Char.isUpper, Char.isLower, NameStart, Char.le_def,
    Bool.or_eq_true, Bool.and_eq_true, decide_eq_true_eq, ge_iff_le]
  tauto

/-- A word goes on as a name does. -/
lemma continuesWord_iff {c : Char} : continuesWord c = true ↔ NamePart c := by
  have hstart := startsWord_iff (c := c)
  simp only [startsWord, Bool.or_eq_true, decide_eq_true_eq] at hstart
  simp only [continuesWord, Char.isAlphanum, Char.isDigit, NamePart, ← hstart, Char.le_def,
    Bool.or_eq_true, Bool.and_eq_true, decide_eq_true_eq, ge_iff_le]
  tauto

/-- The keywords are the words that are tokens of their own. -/
lemma keyword?_eq_none_iff {word : String} : TokenKind.keyword? word = none ↔ word ∉ keywords := by
  simp only [TokenKind.keyword?, keywords, List.mem_cons, List.not_mem_nil, or_false, not_or]
  split_ifs <;> simp_all

/-! ### The lexer -/

/-- If the token is a name, it may be one. -/
def TokenKind.Named (k : TokenKind) : Prop := ∀ x, k = .identifier x → IsName x

/-- The names among tokens may be names. -/
def Named (ts : List Token) : Prop := ∀ t ∈ ts, t.kind.Named

/-- A word that begins and goes on as words do is a keyword or may be a name. -/
lemma named_ofWord {c : Char} {cs : List Char} (hc : startsWord c = true)
    (hcs : ∀ d ∈ cs, continuesWord d = true) :
    (TokenKind.ofWord (String.ofList (c :: cs))).Named := by
  intro x hx
  unfold TokenKind.ofWord at hx
  cases hk : TokenKind.keyword? (String.ofList (c :: cs)) with
  | none =>
    rw [hk, Option.getD_none] at hx
    obtain rfl := TokenKind.identifier.inj hx
    refine ⟨⟨c, cs, String.toList_ofList, startsWord_iff.1 hc, fun d hd => ?_⟩,
      keyword?_eq_none_iff.1 hk⟩
    exact continuesWord_iff.1 (hcs d hd)
  | some k =>
    rw [hk, Option.getD_some] at hx
    subst hx
    unfold TokenKind.keyword? at hk
    split_ifs at hk <;> simp at hk

/-- Reporting characters that begin no token adds no token. -/
lemma tokens_reject (bs : List UInt8) : ∀ l : Lexer, (l.reject bs).tokens = l.tokens := by
  induction bs with
  | nil => intro l; rfl
  | cons b bs ih =>
    intro l
    rw [Lexer.reject]
    split
    · rfl
    · exact ih _

/-- A character that is a token is no name. -/
lemma named_mark {c : Char} {k : TokenKind} (h : mark? c = some k) : k.Named := by
  intro x hx
  subst hx
  unfold mark? at h
  split at h <;> simp at h

/-- **Tokens of a text.** What holds of every mark, string literal, number and word, and of the
tokens found before, holds of all tokens but the last, which is the end of the input. -/
theorem lexFrom_tokens {P : TokenKind → Prop} (hmark : ∀ c k, mark? c = some k → P k)
    (hstring : ∀ text, P (.string text)) (hnumber : ∀ n : Nat, P (.integer n))
    (hword : ∀ c cs, startsWord c = true → (∀ d ∈ cs, continuesWord d = true) →
      P (.ofWord (String.ofList (c :: cs))))
    (l : Lexer) (cs : List Char) (h : ∀ t ∈ l.tokens, P t.kind) :
    ∃ (ts : List Token) (last : Token), (lexFrom l cs).tokens = ts ++ [last] ∧
      last.kind = .endOfInput ∧ ∀ t ∈ ts, P t.kind := by
  have hfinish : ∀ l : Lexer, (∀ t ∈ l.tokens, P t.kind) →
      ∃ (ts : List Token) (last : Token), l.finish.tokens = ts ++ [last] ∧
        last.kind = .endOfInput ∧ ∀ t ∈ ts, P t.kind :=
    fun l h => ⟨l.tokens.reverse, _, List.reverse_cons, rfl,
      fun t ht => h t (List.mem_reverse.1 ht)⟩
  fun_induction lexFrom l cs with
  | case1 l => exact hfinish l h
  | case2 l c cs hfull => exact hfinish l h
  | case3 l c cs hfull hblank ih => exact ih h
  | case4 l c cs hfull hblank hcomment ih => exact ih h
  | case5 l c cs hfull hblank hcomment k hk ih =>
    exact ih (List.forall_mem_cons.2 ⟨hmark c k hk, h⟩)
  | case6 l cs hfull s hblank hcomment hk ih =>
    exact ih (List.forall_mem_cons.2 ⟨hstring _, h⟩)
  | case7 l c cs hfull hblank hcomment hk hquote hdigit ih =>
    refine ih ?_
    unfold Lexer.pushNumber
    dsimp only
    split
    · exact List.forall_mem_cons.2 ⟨hnumber _, h⟩
    · exact List.forall_mem_cons.2 ⟨hnumber 0, h⟩
  | case8 l c cs hfull hblank hcomment hk hquote hdigit hstarts ih =>
    refine ih (List.forall_mem_cons.2 ⟨hword c _ hstarts fun d hd => ?_, h⟩)
    exact List.all_eq_true.1 List.all_takeWhile d hd
  | case9 l c cs hfull hblank hcomment hk hquote hdigit hstarts ih =>
    refine ih ?_
    rw [tokens_reject]
    exact h

/-- The tokens of a text end with the only end of the input. -/
lemma exists_tokens_lex (text : String) :
    ∃ (ts : List Token) (last : Token), (lex text).tokens = ts ++ [last] ∧
      last.kind = .endOfInput ∧ ∀ t ∈ ts, t.kind ≠ .endOfInput := by
  have hmark : ∀ c k, mark? c = some k → k ≠ .endOfInput := by
    intro c k h
    unfold mark? at h
    split at h <;> simp at h <;> simp [← h]
  have hword : ∀ word, TokenKind.ofWord word ≠ .endOfInput := by
    intro word
    unfold TokenKind.ofWord TokenKind.keyword?
    repeat' split
    all_goals simp
  exact lexFrom_tokens hmark (by simp) (by simp) (fun _ _ _ _ => hword _) .start text.toList
    (by simp [Lexer.start])

/-- **Names of tokens.** The names among the tokens of a text may be names. -/
theorem named_lex (text : String) : Named (lex text).tokens := by
  obtain ⟨ts, last, htokens, hlast, hts⟩ := lexFrom_tokens (P := TokenKind.Named)
    (fun _ _ h => named_mark h) (fun _ => by simp [TokenKind.Named])
    (fun _ => by simp [TokenKind.Named]) (fun _ _ => named_ofWord) .start text.toList
    (by simp [Lexer.start])
  rw [lex, htokens]
  refine List.forall_mem_append.2 ⟨hts, List.forall_mem_singleton.2 ?_⟩
  simp [TokenKind.Named, hlast]

/-! ### The parser -/

/-- **Yielding.** From tokens whose names may be names a reader takes some and, unless it fails,
finds something of some kind. -/
def Reader.Yields {α : Type} (p : Reader α) (Q : α → Prop) : Prop :=
  ∀ c : Cursor, Named c.rest → Named (p c).next.rest ∧ ∀ a d, p c = .ok a d → Q a

/-- What is found where nothing is to be checked. -/
def anything {α : Type} (_ : α) : Prop := True

namespace Reader.Yields

variable {α β : Type} {p : Reader α} {Q : α → Prop} {R : β → Prop}

/-- A reader that reads nothing finds something good if this is what it is told to find. -/
lemma pure {a : α} (h : Q a) : Yields (Pure.pure a : Reader α) Q :=
  fun _ hc => ⟨hc, fun _ _ h' => by cases h'; exact h⟩

/-- One reader after the other finds what the second finds after what the first finds. -/
lemma bind {f : α → Reader β} (hp : Yields p Q) (hf : ∀ a, Q a → Yields (f a) R) :
    Yields (p >>= f) R := by
  intro c hc
  obtain ⟨hrest, hfound⟩ := hp c hc
  show Named (Reader.bind p f c).next.rest ∧ ∀ b d, Reader.bind p f c = .ok b d → R b
  unfold Reader.bind
  cases h : p c with
  | ok a d =>
    rw [h] at hrest
    exact hf a (hfound a d h) d hrest
  | fail e d =>
    rw [h] at hrest
    exact ⟨hrest, by simp⟩

end Reader.Yields

/-- Going on leaves no other names. -/
lemma Named.tail {c : Cursor} (h : Named c.rest) : Named c.tail.rest := by
  unfold Cursor.tail
  split
  · exact h
  · rename_i t ts heq
    rw [heq] at h
    exact (List.forall_mem_cons.1 h).2

/-- If the next token is a name, it may be one. -/
lemma Named.head {c : Cursor} (h : Named c.rest) : c.head.kind.Named := by
  unfold Cursor.head
  split
  · simp [TokenKind.Named]
  · rename_i t ts heq
    rw [heq] at h
    exact (List.forall_mem_cons.1 h).1

section Readers

/-- A complaint finds nothing. -/
lemma yields_unexpected {α : Type} {Q : α → Prop} (what : String) :
    (unexpected what : Reader α).Yields Q :=
  fun _ hc => ⟨hc, fun _ _ h => by simp [unexpected] at h⟩

/-- Whether a token was taken does not matter for names; what is left has names that may be
names. -/
lemma yields_eat (k : TokenKind) : (eat k).Yields anything := by
  intro c hc
  unfold eat
  split
  · exact ⟨hc.tail, fun _ _ _ => trivial⟩
  · exact ⟨hc, fun _ _ _ => trivial⟩

/-- A token that must come has no name to be checked. -/
lemma yields_expect (k : TokenKind) : (expect k).Yields anything := by
  refine (yields_eat k).bind fun b _ => ?_
  cases b
  · exact yields_unexpected _
  · exact .pure trivial

/-- A name is read from a token of which it is known that it may be a name. -/
lemma yields_name : name.Yields IsName := by
  intro c hc
  unfold name
  split
  · rename_i x hx
    exact ⟨hc.tail, fun y d h => by cases h; exact hc.head x hx⟩
  · exact yields_unexpected _ c hc

/-- Of a text in quotes nothing is asked: it may hold all characters. -/
lemma yields_quoted : quoted.Yields anything := by
  intro c hc
  unfold quoted
  split
  · exact ⟨hc.tail, fun _ _ _ => trivial⟩
  · exact yields_unexpected _ c hc

/-- Of a number nothing is asked, nor of whether it fits. -/
lemma yields_integer {α : Type} (fit : Int → Option α) : (integer fit).Yields anything := by
  intro c hc
  have hd : Named (if c.head.kind = .minus then c.tail else c).rest := by
    split
    · exact hc.tail
    · exact hc
  unfold integer
  dsimp only
  split
  · split
    · exact ⟨hd.tail, fun _ _ _ => trivial⟩
    · exact ⟨hd.tail, fun _ _ h => by simp at h⟩
  · exact yields_unexpected _ _ hd

/-- At the end of a line nothing is found. -/
lemma yields_lineEnd : lineEnd.Yields anything := by
  intro c hc
  unfold lineEnd
  split
  · exact ⟨hc, fun _ _ _ => trivial⟩
  · exact yields_unexpected _ c hc

/-- The numbers of a call take tokens, and what is left has names that may be names. Induction along
the list. -/
lemma yields_arguments (read : List Int32) (c : Cursor) (hc : Named c.rest) :
    Named (arguments read c).next.rest := by
  fun_induction arguments read c with
  | case1 read c e d hi =>
    have h := (yields_integer Word.int32? c hc).1
    rwa [hi] at h
  | case2 read c n d hi hd =>
    have h := (yields_integer Word.int32? c hc).1
    rw [hi] at h
    exact Named.tail h
  | case3 read c n d hi hd e f hf =>
    have h := (yields_integer Word.int32? c hc).1
    rw [hi] at h
    have h' := (yields_expect .comma d h).1
    rwa [hf] at h'
  | case4 read c n d hi hd f hf ih =>
    have h := (yields_integer Word.int32? c hc).1
    rw [hi] at h
    have h' := (yields_expect .comma d h).1
    rw [hf] at h'
    exact ih h'

variable {x : String}

/-- A call of a good name is an instruction with good names; its numbers have none. -/
lemma yields_call (hx : IsName x) : (call x).Yields Instruction.Named := by
  have hnamed : ∀ ns, (Instruction.call x ns).Named := fun ns y hy => by
    obtain rfl := List.mem_singleton.1 hy
    exact hx
  intro c hc
  unfold call
  split
  · exact ⟨hc.tail, fun i d h => by cases h; exact hnamed []⟩
  · have h := yields_arguments [] c hc
    split <;> rename_i heq <;> rw [heq] at h
    · exact ⟨h, fun i d h' => by cases h'; exact hnamed _⟩
    · exact ⟨h, fun i d h' => by simp at h'⟩

/-- An assignment to a variable with a good name has good names: there is no name in it but that of
the variable. -/
lemma yields_afterEquals (hx : IsName x) : (afterEquals x).Yields Instruction.Named := by
  have hnamed : ∀ y ∈ [x], IsName y := fun y hy => List.mem_singleton.1 hy ▸ hx
  intro c hc
  unfold afterEquals
  split
  · split
    · refine ((yields_expect .plus).bind fun _ _ => ?_) c.tail hc.tail
      exact (yields_integer Word.int32?).bind fun _ _ => .pure hnamed
    · exact ⟨hc.tail, fun i d h => by simp at h⟩
  · exact ((yields_integer Word.int32?).bind fun _ _ => .pure hnamed) c hc

/-- What comes after a good name makes an instruction with good names, be it a call or an
assignment. -/
lemma yields_afterName (hx : IsName x) : (afterName x).Yields Instruction.Named := by
  refine (yields_eat .openParen).bind fun b _ => ?_
  cases b
  · exact (yields_expect .equals).bind fun _ _ => yields_afterEquals hx
  · exact yields_call hx

/-- A condition has good names, that of its variable or that of its sensor. -/
lemma yields_condition : condition.Yields fun c => (Instruction.loop c).Named := by
  refine (yields_eat .not).bind fun b _ => ?_
  cases b
  · refine yields_name.bind fun x hx => (yields_expect .less).bind fun _ _ =>
      (yields_integer Word.int32?).bind fun _ _ => .pure fun y hy => ?_
    exact List.mem_singleton.1 hy ▸ hx
  · refine yields_name.bind fun x hx => (yields_expect .openParen).bind fun _ _ =>
      (yields_expect .closeParen).bind fun _ _ => .pure fun y hy => ?_
    exact List.mem_singleton.1 hy ▸ hx

/-- The instruction of a line has only names that may be names. -/
theorem yields_line {t : Token} (ht : t.kind.Named) : (line t).Yields Instruction.Named := by
  have hnone : ∀ i : Instruction, i.names = [] → i.Named := fun i hi y hy => by simp [hi] at hy
  unfold line
  split
  · exact (yields_integer _).bind fun _ _ => yields_lineEnd.bind fun _ _ => .pure (hnone _ rfl)
  · exact (yields_integer _).bind fun _ _ => yields_lineEnd.bind fun _ _ => .pure (hnone _ rfl)
  · exact yields_quoted.bind fun _ _ => yields_lineEnd.bind fun _ _ => .pure (hnone _ rfl)
  · exact yields_condition.bind fun _ h => (yields_expect .colon).bind fun _ _ =>
      (yields_eat .newline).bind fun _ _ => (yields_expect .openBrace).bind fun _ _ =>
        yields_lineEnd.bind fun _ _ => .pure h
  · exact yields_lineEnd.bind fun _ _ => .pure (hnone _ rfl)
  · rename_i x hx
    exact (yields_afterName (ht x hx)).bind fun i hi => yields_lineEnd.bind fun _ _ => .pure hi
  · exact fun c hc => ⟨hc, fun i d h => by simp [noInstruction] at h⟩

end Readers

/-- Reading the remaining lines finds only names that may be names, if there were no others
before. -/
lemma named_parseFrom (lines : List (Instruction × Span)) (errors : List Diagnostic)
    (ts : List Token) (hts : Named ts) (h : ∀ i ∈ lines, i.1.Named) :
    ∀ i ∈ (parseFrom lines errors ts).lines, i.1.Named := by
  fun_induction parseFrom lines errors ts with
  | case1 lines errors => exact fun i hi => h i (List.mem_reverse.1 hi)
  | case2 lines errors t ts ht ih => exact ih (List.forall_mem_cons.1 hts).2 h
  | case3 lines errors t ts ht hend => exact fun i hi => h i (List.mem_reverse.1 hi)
  | case4 lines errors t ts ht hend i c hline ih =>
    obtain ⟨hhead, htail⟩ := List.forall_mem_cons.1 hts
    obtain ⟨hrest, hfound⟩ := yields_line hhead ⟨ts, t.span⟩ htail
    rw [hline] at hrest
    exact ih hrest (List.forall_mem_cons.2 ⟨hfound i c hline, h⟩)
  | case5 lines errors t ts ht hend d c hline ih =>
    obtain ⟨hhead, htail⟩ := List.forall_mem_cons.1 hts
    have hrest := (yields_line hhead ⟨ts, t.span⟩ htail).1
    rw [hline] at hrest
    exact ih (fun u hu => hrest u ((List.dropWhile_suffix _).subset hu)) h

/-- **Names of instructions.** The names in the instructions read from a text, with errors or
without, may be names. -/
theorem named_assemble (text : String) : ∀ i ∈ (assemble text).instructions, i.Named := by
  intro i hi
  obtain ⟨⟨j, span⟩, hj, rfl⟩ := List.mem_map.1 hi
  exact named_parseFrom [] [] _ (named_lex text) (by simp) (j, span) hj

end Listing

end StickerBot
