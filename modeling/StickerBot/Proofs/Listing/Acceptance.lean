import Mathlib.Data.List.Basic
import StickerBot.Proofs.Listing.Errors
import StickerBot.Proofs.Listing.Grammar
set_option autoImplicit false

/-!
# The parser accepts the grammar

The parser finds no error in the tokens of a listing exactly if the grammar allows them, and what
it finds are the instructions of the lines. So nothing that is cut short or skipped passes for a
program, and no listing is read in two ways.

## Main definitions

* `Listing.Reads` — a reader finds something in tokens of some kinds.
* `Listing.kinds`, `Listing.WellEnded` — the tokens before the end of the input, and tokens that
  have their end where it belongs.

## Main results

* `Listing.reads_line` — a line is read as its instruction.
* `Listing.of_line` — what is read is a line.
* `Listing.Derives.unique` — there is only one way to derive a listing.
* `Listing.parse_grammar` — the parser accepts the grammar.
-/

namespace StickerBot.Listing

/-- **Reading.** From tokens of some kinds, wherever they stand in a text, a reader finds something
and leaves tokens of some kinds. -/
def Reads {α : Type} (p : Reader α) (a : α) (ks rest : List TokenKind) : Prop :=
  ∀ c : Cursor, c.rest.map Token.kind = ks →
    ∃ d : Cursor, p c = .ok a d ∧ d.rest.map Token.kind = rest

/-! ### What the grammar allows is read -/

section Reads

variable {α β : Type} {k : TokenKind} {ks rest : List TokenKind}

/-- A reader that reads nothing finds what it is told to find, and leaves all tokens. -/
lemma reads_pure (a : α) : Reads (pure a : Reader α) a ks ks := fun c hc => ⟨c, rfl, hc⟩

/-- One reader after the other reads one piece after the other. -/
lemma Reads.bind {p : Reader α} {f : α → Reader β} {a : α} {b : β} {last : List TokenKind}
    (hp : Reads p a ks rest) (hf : Reads (f a) b rest last) : Reads (p >>= f) b ks last := by
  intro c hc
  obtain ⟨d, hd, hrest⟩ := hp c hc
  obtain ⟨e, he, hlast⟩ := hf d hrest
  refine ⟨e, ?_, hlast⟩
  show Reader.bind p f c = .ok b e
  rw [Reader.bind, hd]
  exact he

/-- A token at the head of those that are left is the next one, and the others are left after
it. -/
lemma head_tail_of_cons {c : Cursor} (hc : c.rest.map Token.kind = k :: ks) :
    c.head.kind = k ∧ c.tail.rest.map Token.kind = ks := by
  obtain ⟨t, ts, hrest, rfl, rfl⟩ := List.map_eq_cons_iff.1 hc
  simp [Cursor.head, Cursor.tail, hrest]

/-- A token that is looked for is taken if it comes first, and the others are left. -/
lemma reads_eat : Reads (eat k) true (k :: ks) ks := by
  intro c hc
  obtain ⟨hhead, htail⟩ := head_tail_of_cons hc
  exact ⟨c.tail, by simp [eat, hhead], htail⟩

/-- A token that is looked for is not taken if another one comes first, and then all are left. -/
lemma reads_eat_other {other : TokenKind} (h : k ≠ other) :
    Reads (eat other) false (k :: ks) (k :: ks) := by
  intro c hc
  obtain ⟨hhead, -⟩ := head_tail_of_cons hc
  exact ⟨c, by simp [eat, hhead, h], hc⟩

/-- A token that must come is taken if it comes first. -/
lemma reads_expect : Reads (expect k) () (k :: ks) ks := reads_eat.bind (reads_pure ())

/-- A name is read from a token that is a name. -/
lemma reads_name {x : String} : Reads name x (.identifier x :: ks) ks := by
  intro c hc
  obtain ⟨hhead, htail⟩ := head_tail_of_cons hc
  exact ⟨c.tail, by simp [name, hhead], htail⟩

/-- A text in quotes is read from a token that is one. -/
lemma reads_quoted {s : String} : Reads quoted s (.string s :: ks) ks := by
  intro c hc
  obtain ⟨hhead, htail⟩ := head_tail_of_cons hc
  exact ⟨c.tail, by simp [quoted, hhead], htail⟩

/-- Where a line ends, it is left so. -/
lemma reads_lineEnd (h : EndsLine ks) : Reads lineEnd () ks ks := by
  intro c hc
  refine ⟨c, ?_, hc⟩
  have hhead : c.head.kind.endsLine = true := by
    unfold Cursor.head
    split
    · rfl
    · rename_i t ts hrest
      rw [hrest] at hc
      exact h t.kind (by rw [← hc]; rfl)
  simp [lineEnd, hhead]

/-- A number is read. -/
lemma reads_number {fit : Int → Option α} {a : α} (h : IsNumber fit ks a) :
    Reads (integer fit) a (ks ++ rest) rest := by
  intro c hc
  cases h with
  | plain h =>
    obtain ⟨hhead, htail⟩ := head_tail_of_cons hc
    exact ⟨c.tail, by simp [integer, hhead, h], htail⟩
  | negative h =>
    obtain ⟨hminus, hc⟩ := head_tail_of_cons hc
    obtain ⟨hhead, htail⟩ := head_tail_of_cons hc
    exact ⟨c.tail.tail, by simp [integer, hminus, hhead, h], htail⟩

/-- A number begins with a minus or with digits. -/
lemma IsNumber.exists_cons {fit : Int → Option α} {a : α} (h : IsNumber fit ks a) :
    ∃ k ks', ks = k :: ks' ∧ k ≠ .closeParen ∧ ∀ x, k ≠ .identifier x := by
  cases h <;> exact ⟨_, _, rfl, by simp, by simp⟩

/-- The numbers of a call are read up to the closing parenthesis.

**Proof sketch.** Induction on the numbers; after each there is the parenthesis or a comma. -/
lemma reads_arguments {ns : List Int32} (h : IsNumbers ks ns) : ∀ read : List Int32,
    Reads (arguments read) (read.reverse ++ ns) (ks ++ .closeParen :: rest) rest := by
  induction h with
  | @last ks n h =>
    intro read c hc
    obtain ⟨d, hd, hrest⟩ := reads_number h c hc
    obtain ⟨hhead, htail⟩ := head_tail_of_cons hrest
    refine ⟨d.tail, ?_, htail⟩
    rw [arguments]
    split
    · rename_i heq
      simp [hd] at heq
    · rename_i heq
      obtain ⟨rfl, rfl⟩ := by simpa [hd] using heq
      simp [hhead]
  | @more ks ks' n ns h hs ih =>
    intro read c hc
    rw [List.append_assoc, List.cons_append] at hc
    obtain ⟨d, hd, hrest⟩ := reads_number h c hc
    obtain ⟨hhead, -⟩ := head_tail_of_cons hrest
    obtain ⟨e, he, hrest'⟩ := reads_expect d hrest
    obtain ⟨f, hf, hlast⟩ := ih (n :: read) e hrest'
    refine ⟨f, ?_, hlast⟩
    rw [arguments]
    split
    · rename_i heq
      simp [hd] at heq
    · rename_i heq
      obtain ⟨rfl, rfl⟩ := by simpa [hd] using heq
      rw [if_neg (by simp [hhead])]
      split
      · rename_i heq'
        simp [he] at heq'
      · rename_i heq'
        obtain rfl := by simpa [he] using heq'
        simpa using hf

/-- The numbers of a call begin with the first. -/
lemma IsNumbers.exists_cons {ns : List Int32} (h : IsNumbers ks ns) :
    ∃ k ks', ks = k :: ks' ∧ k ≠ .closeParen := by
  cases h with
  | last h =>
    obtain ⟨k, ks', rfl, hk, -⟩ := h.exists_cons
    exact ⟨k, ks', rfl, hk⟩
  | more h hs =>
    obtain ⟨k, ks', rfl, hk, -⟩ := h.exists_cons
    exact ⟨k, _, rfl, hk⟩

/-- The rest of a call without numbers is read. -/
lemma reads_call (x : String) : Reads (call x) (.call x []) (.closeParen :: ks) ks := by
  intro c hc
  obtain ⟨hhead, htail⟩ := head_tail_of_cons hc
  exact ⟨c.tail, by simp [call, hhead], htail⟩

/-- The rest of a call with numbers is read. -/
lemma reads_callWith (x : String) {ns : List Int32} (h : IsNumbers ks ns) :
    Reads (call x) (.call x ns) (ks ++ .closeParen :: rest) rest := by
  intro c hc
  obtain ⟨d, hd, hrest⟩ := reads_arguments h [] c hc
  obtain ⟨k, ks', rfl, hk⟩ := h.exists_cons
  obtain ⟨hhead, -⟩ := head_tail_of_cons hc
  exact ⟨d, by simp [call, hhead, hk, hd], hrest⟩

/-- A number after an equals sign is read. -/
lemma reads_assignment (x : String) {n : Int32} (h : IsNumber Word.int32? ks n) :
    Reads (afterEquals x) (.assign x n) (ks ++ rest) rest := by
  intro c hc
  have hvalue : Reads (assignment x) (.assign x n) (ks ++ rest) rest :=
    (reads_number h).bind (reads_pure _)
  obtain ⟨d, hd, hrest⟩ := hvalue c hc
  obtain ⟨k, ks', rfl, -, hk⟩ := h.exists_cons
  obtain ⟨hhead, -⟩ := head_tail_of_cons hc
  refine ⟨d, ?_, hrest⟩
  unfold afterEquals
  split
  · rename_i y hy
    exact absurd (hhead.symm.trans hy) (hk y)
  · exact hd

/-- An increment after an equals sign is read. -/
lemma reads_growth (x : String) {n : Int32} (h : IsNumber Word.int32? ks n) :
    Reads (afterEquals x) (.increment x n) (.identifier x :: .plus :: (ks ++ rest)) rest := by
  intro c hc
  obtain ⟨hhead, htail⟩ := head_tail_of_cons hc
  have hgrowth : Reads (growth x) (.increment x n) (.plus :: (ks ++ rest)) rest :=
    reads_expect.bind ((reads_number h).bind (reads_pure _))
  obtain ⟨d, hd, hrest⟩ := hgrowth c.tail htail
  exact ⟨d, by simp [afterEquals, hhead, hd], hrest⟩

/-- A condition is read. -/
lemma reads_condition {c : Condition} (h : IsCondition ks c) :
    Reads condition c (ks ++ rest) rest := by
  cases h with
  | below x h =>
    exact (reads_eat_other (by simp)).bind (reads_name.bind (reads_expect.bind
      ((reads_number h).bind (reads_pure _))))
  | notRaised x =>
    exact reads_eat.bind (reads_name.bind (reads_expect.bind (reads_expect.bind (reads_pure _))))

/-- **Lines.** A line is read as its instruction, up to where it ends.

**Proof sketch.** One case for each kind of line. The parser chooses by the first token, or for a
name by the one behind it, and then each of the tokens is what it expects. -/
theorem reads_line {i : Instruction} {t : Token} (h : IsLine (t.kind :: ks) i)
    (hrest : EndsLine rest) : Reads (line t) i (ks ++ rest) rest := by
  have hend : Reads (do lineEnd; return i) i rest rest :=
    (reads_lineEnd hrest).bind (reads_pure i)
  generalize hline : t.kind :: ks = whole at h
  unfold line
  cases h <;> obtain ⟨hkind, rfl⟩ := List.cons.inj hline <;> rw [hkind]
  case wait h => exact (reads_number h).bind hend
  case trace h => exact (reads_number h).bind hend
  case print text => exact reads_quoted.bind hend
  case close => exact hend
  case call x =>
    have hcall : Reads (afterName x) (.call x []) (.openParen :: .closeParen :: rest) rest :=
      reads_eat.bind (reads_call x)
    exact hcall.bind hend
  case callWith x ks ns h =>
    have hcall : Reads (afterName x) (.call x ns) (.openParen :: (ks ++ .closeParen :: rest))
        rest := reads_eat.bind (reads_callWith x h)
    simpa using hcall.bind hend
  case assign x ks n h =>
    have hassign : Reads (afterName x) (.assign x n) (.equals :: (ks ++ rest)) rest :=
      (reads_eat_other (by simp)).bind (reads_expect.bind (reads_assignment x h))
    exact hassign.bind hend
  case increment x ks n h =>
    have hgrowth : Reads (afterName x) (.increment x n)
        (.equals :: .identifier x :: .plus :: (ks ++ rest)) rest :=
      (reads_eat_other (by simp)).bind (reads_expect.bind (reads_growth x h))
    exact hgrowth.bind hend
  case loop ks c h =>
    have hheader : Reads loopHeader (.loop c) (ks ++ .colon :: .openBrace :: rest) rest :=
      (reads_condition h).bind (reads_expect.bind ((reads_eat_other (by simp)).bind
        (reads_expect.bind hend)))
    simpa using hheader
  case loopOnTwoLines ks c h =>
    have hheader : Reads loopHeader (.loop c)
        (ks ++ .colon :: .newline :: .openBrace :: rest) rest :=
      (reads_condition h).bind (reads_expect.bind (reads_eat.bind (reads_expect.bind hend)))
    simpa using hheader

end Reads

/-! ### What is read the grammar allows -/

section Found

variable {α β : Type} {k : TokenKind}

/-- What two readers find, one after the other. -/
lemma ok_of_bind {p : Reader α} {f : α → Reader β} {c e : Cursor} {b : β}
    (h : (p >>= f) c = .ok b e) : ∃ a d, p c = .ok a d ∧ f a d = .ok b e := by
  change Reader.bind p f c = .ok b e at h
  unfold Reader.bind at h
  split at h
  · exact ⟨_, _, by assumption, h⟩
  · simp at h

/-- What is found without reading. -/
lemma ok_of_pure {a b : α} {c d : Cursor} (h : (pure a : Reader α) c = .ok b d) :
    a = b ∧ c = d := by
  cases h
  exact ⟨rfl, rfl⟩

/-- The next token, if the input has not ended, is the first of those that are left. -/
lemma map_kind_of_head {c : Cursor} (h : c.head.kind = k) (hk : k ≠ .endOfInput) :
    c.rest.map Token.kind = k :: c.tail.rest.map Token.kind := by
  unfold Cursor.head at h
  unfold Cursor.tail
  split at h
  · exact absurd h.symm hk
  · rename_i t ts hrest
    simp [hrest, h]

/-- A token that was taken was the first of those left, and one that was not was not. -/
lemma of_eat {c d : Cursor} {b : Bool} (h : eat k c = .ok b d) (hk : k ≠ .endOfInput) :
    (b = true ∧ c.rest.map Token.kind = k :: d.rest.map Token.kind) ∨ (b = false ∧ d = c) := by
  unfold eat at h
  split at h
  · rename_i hhead
    cases h
    exact .inl ⟨rfl, map_kind_of_head hhead hk⟩
  · cases h
    exact .inr ⟨rfl, rfl⟩

/-- Where a token had to come and nothing failed it came first, and it is gone. -/
lemma of_expect {c d : Cursor} (hread : expect k c = .ok () d) (hk : k ≠ .endOfInput) :
    c.rest.map Token.kind = k :: d.rest.map Token.kind := by
  obtain ⟨b, e, heat, h⟩ := ok_of_bind hread
  obtain ⟨rfl, hrest⟩ | ⟨rfl, rfl⟩ := of_eat heat hk
  · obtain ⟨-, rfl⟩ := ok_of_pure h
    exact hrest
  · simp [unexpected] at h

/-- Where a name was read a token with this name came first, and it is gone. -/
lemma of_name {c d : Cursor} {x : String} (h : name c = .ok x d) :
    c.rest.map Token.kind = .identifier x :: d.rest.map Token.kind := by
  unfold name at h
  split at h
  · rename_i hhead
    cases h
    exact map_kind_of_head hhead (by simp)
  · simp [unexpected] at h

/-- Where a text in quotes was read a token with this text came first, and it is gone. -/
lemma of_quoted {c d : Cursor} {text : String} (h : quoted c = .ok text d) :
    c.rest.map Token.kind = .string text :: d.rest.map Token.kind := by
  unfold quoted at h
  split at h
  · rename_i hhead
    cases h
    exact map_kind_of_head hhead (by simp)
  · simp [unexpected] at h

/-- Where the end of a line was found, the line ends. -/
lemma of_lineEnd {c d : Cursor} (h : lineEnd c = .ok () d) :
    d = c ∧ EndsLine (c.rest.map Token.kind) := by
  unfold lineEnd at h
  split at h
  · rename_i hhead
    cases h
    refine ⟨rfl, fun k hk => ?_⟩
    unfold Cursor.head at hhead
    split at hhead
    · rename_i hrest
      simp [hrest] at hk
    · rename_i t ts hrest
      obtain rfl : t.kind = k := by simpa [hrest] using hk
      exact hhead
  · simp [unexpected] at h

/-- What was read as a number is one. It is either a literal or a minus and a literal, and what it
comes to fits the range that the caller has asked for. -/
lemma of_integer {fit : Int → Option α} {c d : Cursor} {a : α} (h : integer fit c = .ok a d) :
    ∃ ks, IsNumber fit ks a ∧ c.rest.map Token.kind = ks ++ d.rest.map Token.kind := by
  unfold integer at h
  dsimp only at h
  by_cases hminus : c.head.kind = .minus
  · simp only [hminus, if_true] at h
    split at h
    · rename_i n hhead
      split at h
      · rename_i hfit
        cases h
        refine ⟨_, .negative hfit, ?_⟩
        rw [map_kind_of_head hminus (by simp), map_kind_of_head hhead (by simp)]
        rfl
      · simp at h
    · simp [unexpected] at h
  · simp only [hminus, if_false] at h
    split at h
    · rename_i n hhead
      split at h
      · rename_i hfit
        cases h
        exact ⟨_, .plain hfit, map_kind_of_head hhead (by simp)⟩
      · simp at h
    · simp [unexpected] at h

/-- What was read as the numbers of a call are numbers, and then the closing parenthesis. -/
lemma of_arguments (read : List Int32) (c : Cursor) : ∀ {ns : List Int32} {d : Cursor},
    arguments read c = .ok ns d → ∃ ks new, IsNumbers ks new ∧ ns = read.reverse ++ new ∧
      c.rest.map Token.kind = ks ++ .closeParen :: d.rest.map Token.kind := by
  fun_induction arguments read c with
  | case1 read c e d hi => simp
  | case2 read c n d hi hhead =>
    intro ns d' h
    cases h
    obtain ⟨ks, hn, hks⟩ := of_integer hi
    refine ⟨ks, [n], .last hn, by simp, ?_⟩
    rw [hks, map_kind_of_head hhead (by simp)]
  | case3 read c n d hi hhead e f hf => simp
  | case4 read c n d hi hhead f hf ih =>
    intro ns d' h
    obtain ⟨ks, hn, hks⟩ := of_integer hi
    obtain ⟨ks', new, hnew, rfl, hks'⟩ := ih h
    refine ⟨ks ++ .comma :: ks', n :: new, .more hn hnew, by simp, ?_⟩
    rw [hks, of_expect hf (by simp), hks']
    simp

/-- What was read after a name makes a line with it. Behind an open parenthesis this is a call, with
numbers or without. Behind an equals sign it is an increment if the same name stands there again,
and an assignment otherwise. -/
lemma of_afterName {x : String} {c d : Cursor} {i : Instruction} (hread : afterName x c = .ok i d) :
    ∃ ks, IsLine (.identifier x :: ks) i ∧
      c.rest.map Token.kind = ks ++ d.rest.map Token.kind := by
  obtain ⟨b, e, heat, h⟩ := ok_of_bind hread
  obtain ⟨rfl, hopen⟩ | ⟨rfl, rfl⟩ := of_eat heat (by simp)
  · rw [if_pos rfl] at h
    unfold call at h
    split at h
    · rename_i hhead
      cases h
      refine ⟨_, .call x, ?_⟩
      rw [hopen, map_kind_of_head hhead (by simp)]
      rfl
    · split at h
      · rename_i hargs
        cases h
        obtain ⟨ks, new, hnew, rfl, hks⟩ := of_arguments [] e hargs
        refine ⟨_, .callWith x hnew, ?_⟩
        rw [hopen, hks]
        simp
      · simp at h
  · rw [if_neg (by simp)] at h
    obtain ⟨_, f, hequals, h⟩ := ok_of_bind h
    rw [of_expect hequals (by simp)]
    unfold afterEquals at h
    split at h
    · rename_i y hy
      split at h
      · rename_i heq
        subst heq
        obtain ⟨_, g, hplus, h⟩ := ok_of_bind h
        obtain ⟨n, g', hn, h⟩ := ok_of_bind h
        obtain ⟨rfl, rfl⟩ := ok_of_pure h
        obtain ⟨ks, hn, hks⟩ := of_integer hn
        refine ⟨_, .increment y hn, ?_⟩
        rw [map_kind_of_head hy (by simp), of_expect hplus (by simp), hks]
        rfl
      · simp at h
    · obtain ⟨n, g, hn, h⟩ := ok_of_bind h
      obtain ⟨rfl, rfl⟩ := ok_of_pure h
      obtain ⟨ks, hn, hks⟩ := of_integer hn
      exact ⟨_, .assign x hn, by rw [hks]; rfl⟩

/-- What was read as a condition is one. Its first token tells which of the two conditions it is: a
negation that the sensor was raised, or a comparison of a counter with a limit. -/
lemma of_condition {c d : Cursor} {cond : Condition} (hread : condition c = .ok cond d) :
    ∃ ks, IsCondition ks cond ∧ c.rest.map Token.kind = ks ++ d.rest.map Token.kind := by
  obtain ⟨b, e, heat, h⟩ := ok_of_bind hread
  obtain ⟨rfl, hnot⟩ | ⟨rfl, rfl⟩ := of_eat heat (by simp)
  · rw [if_pos rfl] at h
    obtain ⟨x, f, hx, h⟩ := ok_of_bind h
    obtain ⟨_, g, hopen, h⟩ := ok_of_bind h
    obtain ⟨_, g', hclose, h⟩ := ok_of_bind h
    obtain ⟨rfl, rfl⟩ := ok_of_pure h
    refine ⟨_, .notRaised x, ?_⟩
    rw [hnot, of_name hx, of_expect hopen (by simp), of_expect hclose (by simp)]
    rfl
  · rw [if_neg (by simp)] at h
    obtain ⟨x, f, hx, h⟩ := ok_of_bind h
    obtain ⟨_, g, hless, h⟩ := ok_of_bind h
    obtain ⟨n, g', hn, h⟩ := ok_of_bind h
    obtain ⟨rfl, rfl⟩ := ok_of_pure h
    obtain ⟨ks, hn, hks⟩ := of_integer hn
    refine ⟨_, .below x hn, ?_⟩
    rw [of_name hx, of_expect hless (by simp), hks]
    rfl

/-- What was read as the header of a loop makes a line with its first word. -/
lemma of_loopHeader {c d : Cursor} {i : Instruction} (h : loopHeader c = .ok i d) :
    ∃ ks, IsLine (.while :: ks) i ∧ c.rest.map Token.kind = ks ++ d.rest.map Token.kind ∧
      EndsLine (d.rest.map Token.kind) := by
  obtain ⟨cond, e, hcond, h⟩ := ok_of_bind h
  obtain ⟨_, f, hcolon, h⟩ := ok_of_bind h
  obtain ⟨b, g, hbreak, h⟩ := ok_of_bind h
  obtain ⟨_, g', hbrace, h⟩ := ok_of_bind h
  obtain ⟨_, g'', hend, h⟩ := ok_of_bind h
  obtain ⟨rfl, rfl⟩ := ok_of_pure h
  obtain ⟨rfl, hends⟩ := of_lineEnd hend
  obtain ⟨ks, hc, hks⟩ := of_condition hcond
  rw [hks, of_expect hcolon (by simp)]
  have hopen := of_expect hbrace (by simp)
  obtain ⟨-, hnewline⟩ | ⟨-, rfl⟩ := of_eat hbreak (by simp)
  · exact ⟨_, .loopOnTwoLines hc, by rw [hnewline, hopen]; simp, hends⟩
  · exact ⟨_, .loop hc, by rw [hopen]; simp, hends⟩

/-- What was read before the end of a line. -/
lemma ok_of_lineEnd {p : Reader α} {f : α → β} {c d : Cursor} {b : β}
    (h : (do let a ← p; lineEnd; return f a) c = .ok b d) :
    ∃ a, p c = .ok a d ∧ f a = b ∧ EndsLine (d.rest.map Token.kind) := by
  obtain ⟨a, e, ha, h⟩ := ok_of_bind h
  obtain ⟨_, f', hend, h⟩ := ok_of_bind h
  obtain ⟨hb, rfl⟩ := ok_of_pure h
  obtain ⟨rfl, hends⟩ := of_lineEnd hend
  exact ⟨a, ha, hb, hends⟩

/-- **Lines.** What was read as a line is one, and ends where the reading stopped.

**Proof sketch.** One case for each first token that may begin a line. Reading a line ends with the
check that a line break or the end of the input follows, and this is where the line ends. -/
theorem of_line {t : Token} {c d : Cursor} {i : Instruction} (h : line t c = .ok i d) :
    ∃ ks, IsLine (t.kind :: ks) i ∧ c.rest.map Token.kind = ks ++ d.rest.map Token.kind ∧
      EndsLine (d.rest.map Token.kind) := by
  unfold line at h
  generalize t.kind = k at h ⊢
  cases k with
  | wait =>
    obtain ⟨n, hn, rfl, hends⟩ := ok_of_lineEnd h
    obtain ⟨ks, hn, hks⟩ := of_integer hn
    exact ⟨ks, .wait hn, hks, hends⟩
  | trace =>
    obtain ⟨n, hn, rfl, hends⟩ := ok_of_lineEnd h
    obtain ⟨ks, hn, hks⟩ := of_integer hn
    exact ⟨ks, .trace hn, hks, hends⟩
  | print =>
    obtain ⟨text, htext, rfl, hends⟩ := ok_of_lineEnd h
    exact ⟨_, .print text, of_quoted htext, hends⟩
  | «while» => exact of_loopHeader h
  | closeBrace =>
    obtain ⟨_, e, hend, h⟩ := ok_of_bind h
    obtain ⟨rfl, rfl⟩ := ok_of_pure h
    obtain ⟨rfl, hends⟩ := of_lineEnd hend
    exact ⟨[], .close, rfl, hends⟩
  | identifier x =>
    obtain ⟨i', hi, rfl, hends⟩ := ok_of_lineEnd h
    obtain ⟨ks, hline, hks⟩ := of_afterName hi
    exact ⟨ks, hline, hks, hends⟩
  | _ => simp [noInstruction] at h

end Found

/-! ### Derivations -/

/-- **One line.** Two lines that begin in one place, and end there, are the same. The parser reads
either of them from the tokens, and what it reads is determined by these; so it is not needed to
compare the forms of lines with one another. -/
lemma IsLine.unique {ks ks' rest rest' : List TokenKind} {i i' : Instruction} (h : IsLine ks i)
    (hend : EndsLine rest) (h' : IsLine ks' i') (hend' : EndsLine rest')
    (heq : ks ++ rest = ks' ++ rest') : ks = ks' ∧ i = i' ∧ rest = rest' := by
  obtain ⟨k, ks, rfl, -⟩ := h.exists_cons
  obtain ⟨k', ks', rfl, -⟩ := h'.exists_cons
  obtain ⟨rfl, htail⟩ := List.cons.inj heq
  -- the parser reads the one line, and reads the other from the same tokens
  let t : Token := ⟨k, default⟩
  let c : Cursor := ⟨(ks ++ rest).map fun k => ⟨k, default⟩, default⟩
  have hc : c.rest.map Token.kind = ks ++ rest := by
    simp only [c, List.map_map]
    exact List.map_id _
  obtain ⟨d, hd, hrest⟩ := reads_line (t := t) h hend c hc
  obtain ⟨d', hd', hrest'⟩ := reads_line (t := t) h' hend' c (hc.trans htail)
  obtain ⟨rfl, rfl⟩ := Outcome.ok.inj (hd.symm.trans hd')
  have hsame : rest = rest' := hrest.symm.trans hrest'
  subst hsame
  exact ⟨by rw [List.append_cancel_right htail], rfl, rfl⟩

/-- **Derivations are unique.** There is only one way to cut a listing into lines, and to read them.

**Proof sketch.** By induction on one of the derivations. No line begins with a token that ends
lines, so that both derivations take the same rule, and where lines begin alike only one instruction
can be read. -/
theorem Derives.unique {ks : List TokenKind} {ls : List DerivedLine} (h : Derives ks ls) :
    ∀ {ls' : List DerivedLine}, Derives ks ls' → ls = ls' := by
  induction h with
  | done =>
    intro ls' h'
    generalize hks : [] = ks at h'
    cases h' with
    | done => rfl
    | newline h' => simp at hks
    | line h' =>
      obtain ⟨k, ks', rfl, -⟩ := h'.exists_cons
      simp at hks
  | @newline ks ls h ih =>
    intro ls' h'
    generalize hks : .newline :: ks = whole at h'
    cases h' with
    | done => simp at hks
    | newline h' =>
      obtain ⟨-, rfl⟩ := List.cons.inj hks
      exact ih h'
    | line h' =>
      obtain ⟨k, ks', rfl, hk⟩ := h'.exists_cons
      obtain ⟨rfl, -⟩ := List.cons.inj hks
      simp [TokenKind.endsLine] at hk
  | @line ks rest i ls h hend hrest ih =>
    intro ls' h'
    generalize hks : ks ++ rest = whole at h'
    cases h' with
    | done =>
      obtain ⟨k, ks', rfl, -⟩ := h.exists_cons
      simp at hks
    | newline h' =>
      obtain ⟨k, ks', rfl, hk⟩ := h.exists_cons
      obtain ⟨rfl, -⟩ := List.cons.inj hks
      simp [TokenKind.endsLine] at hk
    | line h' hend' hrest' =>
      obtain ⟨rfl, rfl, rfl⟩ := h.unique hend h' hend' hks
      rw [ih hrest']

/-! ### All lines -/

/-- The tokens before the end of the input. -/
def kinds (ts : List Token) : List TokenKind :=
  (ts.map Token.kind).takeWhile fun k => k ≠ .endOfInput

/-- **Well ended.** No tokens at all, or the only end of the input comes last. -/
def WellEnded (ts : List Token) : Prop :=
  ts = [] ∨ ts.map Token.kind = kinds ts ++ [.endOfInput]

/-- Whether tokens are well ended can be computed: there are finitely many of them to look at. -/
instance (ts : List Token) : Decidable (WellEnded ts) := inferInstanceAs (Decidable (_ ∨ _))

/-- **All lines** of a listing are read as their instructions, without an error.

**Proof sketch.** Induction on the derivation. A line reads up to its end, whatever comes behind it,
and its first token is neither a line break nor the end of the input; so the parser takes the line
and goes on with the rest. -/
theorem parseFrom_of_derives {ks : List TokenKind} {ls : List DerivedLine} (h : Derives ks ls) :
    ∀ (lines : List (Instruction × Span)) (ts : List Token),
      ts.map Token.kind = ks ++ [.endOfInput] →
      (parseFrom lines [] ts).lines.map Prod.fst = lines.reverse.map Prod.fst ++ ls.map Prod.snd ∧
        (parseFrom lines [] ts).errors = [] := by
  induction h with
  | done =>
    intro lines ts hts
    obtain ⟨t, ts, rfl, hkind, -⟩ := List.map_eq_cons_iff.1 hts
    rw [parseFrom, if_neg (by simp [hkind]), if_pos (by simp [hkind])]
    simp
  | newline h ih =>
    intro lines ts hts
    obtain ⟨t, ts, rfl, hkind, hrest⟩ := List.map_eq_cons_iff.1 hts
    rw [parseFrom, if_pos hkind]
    exact ih lines ts hrest
  | @line ks rest i ls h hend hrest ih =>
    intro lines ts hts
    obtain ⟨k, ks, rfl, hk⟩ := h.exists_cons
    rw [List.append_assoc] at hts
    obtain ⟨t, ts, rfl, rfl, htokens⟩ := List.map_eq_cons_iff.1 hts
    have hends : EndsLine (rest ++ [.endOfInput]) := by
      cases rest with
      | nil => exact endsLine_cons rfl _
      | cons k rest => exact endsLine_cons (hend k rfl) _
    obtain ⟨c, hline, hnext⟩ := reads_line h hends ⟨ts, t.span⟩ htokens
    have hnewline : t.kind ≠ .newline := fun h => by simp [h, TokenKind.endsLine] at hk
    have hinput : t.kind ≠ .endOfInput := fun h => by simp [h, TokenKind.endsLine] at hk
    rw [parseFrom, if_neg hnewline, if_neg (by simp [hinput, DiagnosticLog.capacity])]
    split
    · rename_i i' c' heq
      obtain ⟨rfl, rfl⟩ := by simpa [hline] using heq
      obtain ⟨hlines, herrors⟩ := ih ((i, t.span.merge c.last) :: lines) c.rest hnext
      exact ⟨by rw [hlines]; simp, herrors⟩
    · rename_i heq
      simp [hline] at heq

/-- The input does not end inside a line. -/
lemma IsLine.endOfInput_not_mem {ks : List TokenKind} {i : Instruction} (h : IsLine ks i) :
    .endOfInput ∉ ks := by
  have hnone : ∀ {ks : List TokenKind}, OnOneLine ks → .endOfInput ∉ ks := fun h hmem =>
    absurd (h _ hmem) (by simp [TokenKind.endsLine])
  rcases h.onOneLine_or with hline | ⟨header, hheader, rfl⟩
  · exact hnone hline
  · simp [hnone hheader]

/-- **What is read without an error** is derived.

**Proof sketch.** By induction on the reading. Each line that was read has a derivation of its own,
whose tokens do not contain the end of the input; and an error would still be there at the end. -/
theorem derives_of_parseFrom (lines : List (Instruction × Span)) (errors : List Diagnostic)
    (ts : List Token) (h : (parseFrom lines errors ts).errors = []) :
    errors = [] ∧ ∃ ls, Derives (kinds ts) ls := by
  fun_induction parseFrom lines errors ts with
  | case1 lines errors => exact ⟨List.reverse_eq_nil_iff.1 h, [], .done⟩
  | case2 lines errors t ts ht ih =>
    obtain ⟨herrors, ls, hls⟩ := ih h
    refine ⟨herrors, ls, ?_⟩
    simpa [kinds, ht] using hls.newline
  | case3 lines errors t ts ht hend =>
    have herrors : errors = [] := List.reverse_eq_nil_iff.1 h
    obtain hinput : t.kind = .endOfInput := by
      simpa [herrors, DiagnosticLog.capacity] using hend
    exact ⟨herrors, [], by simpa [kinds, hinput] using Derives.done⟩
  | case4 lines errors t ts ht hend i c hline ih =>
    obtain ⟨herrors, ls, hls⟩ := ih h
    obtain ⟨ks, hks, hrest, hends⟩ := of_line hline
    refine ⟨herrors, (t.kind :: ks, i) :: ls, ?_⟩
    -- the tokens of the line stand before the end of the input, so nothing of them is cut off
    have hall : ∀ k ∈ t.kind :: ks, decide (k ≠ .endOfInput) = true := fun k hk =>
      decide_eq_true fun h => hks.endOfInput_not_mem (h ▸ hk)
    have hkinds : kinds (t :: ts) = t.kind :: ks ++ kinds c.rest := by
      rw [kinds, List.map_cons, hrest, ← List.cons_append, List.takeWhile_append_of_pos hall]
      rfl
    rw [hkinds]
    exact .line hks (hends.takeWhile _) hls
  | case5 lines errors t ts ht hend d c hline ih => exact absurd (ih h).1 (by simp)

/-! ### Texts -/

/-- The tokens of a text are well ended. -/
lemma wellEnded_lex (text : String) : WellEnded (lex text).tokens := by
  obtain ⟨ts, last, htokens, hlast, hts⟩ := exists_tokens_lex text
  have hall : ∀ k ∈ ts.map Token.kind, decide (k ≠ .endOfInput) = true := fun k hk => by
    obtain ⟨t, ht, rfl⟩ := List.mem_map.1 hk
    exact decide_eq_true (hts t ht)
  refine .inr ?_
  rw [htokens, kinds, List.map_append, List.takeWhile_append_of_pos hall]
  simp [hlast]

/-- **Accepted tokens** are those of a listing, and the instructions are those of its lines. -/
lemma parse_of_wellEnded {ts : List Token} (hts : WellEnded ts) {ls : List DerivedLine}
    (h : IsListing (kinds ts) ls) :
    (parse ts).errors = [] ∧ (parse ts).lines.map Prod.fst = ls.map Prod.snd := by
  have hderives := isListing_iff_derives.1 h
  obtain rfl | hts := hts
  · obtain rfl : [] = ls := Derives.unique .done hderives
    simp [parse, parseFrom]
  · obtain ⟨hlines, herrors⟩ := parseFrom_of_derives hderives [] ts hts
    exact ⟨herrors, by simpa [parse] using hlines⟩

/-- The parser finds no error in well ended tokens exactly if the grammar derives lines from them.
One direction reads what was derived, the other derives what was read. -/
lemma errors_parse_eq_nil_iff {ts : List Token} (hts : WellEnded ts) :
    (parse ts).errors = [] ↔ ∃ ls, IsListing (kinds ts) ls := by
  constructor
  · intro h
    obtain ⟨-, ls, hls⟩ := derives_of_parseFrom [] [] ts h
    exact ⟨ls, isListing_iff_derives.2 hls⟩
  · rintro ⟨ls, hls⟩
    exact (parse_of_wellEnded hts hls).1

/-- **The parser accepts the grammar.** In well ended tokens the parser finds no error exactly if
they are a listing, and then it finds the instructions of its lines, of which there is only one
derivation. So a text is accepted as a program exactly if the lexer finds no error in it and its
tokens are a listing, and its program has the instructions of the lines. -/
theorem parse_grammar :
    (∀ ts : List Token, WellEnded ts →
      ((parse ts).errors = [] ↔ ∃ ls, IsListing (kinds ts) ls) ∧
      ∀ ls, IsListing (kinds ts) ls →
        (parse ts).lines.map Prod.fst = ls.map Prod.snd ∧
          ∀ ls', IsListing (kinds ts) ls' → ls' = ls) ∧
    ∀ text : String,
      ((∃ p, parseProgram text = .ok p) ↔
        (lex text).errors = [] ∧ ∃ ls, IsListing (kinds (lex text).tokens) ls) ∧
      ∀ p ls, parseProgram text = .ok p → IsListing (kinds (lex text).tokens) ls →
        p = .ofInstructions (ls.map Prod.snd) := by
  refine ⟨fun ts hts => ⟨errors_parse_eq_nil_iff hts, fun ls h => ?_⟩, fun text => ⟨?_, ?_⟩⟩
  · refine ⟨(parse_of_wellEnded hts h).2, fun ls' h' => ?_⟩
    exact Derives.unique (isListing_iff_derives.1 h') (isListing_iff_derives.1 h)
  · simp only [parseProgram_eq_ok_iff, errors_parse_eq_nil_iff (wellEnded_lex text)]
    simp
  · intro p ls hp h
    obtain ⟨-, -, rfl⟩ := parseProgram_eq_ok_iff.1 hp
    rw [(parse_of_wellEnded (wellEnded_lex text) h).2]

/-- The tokens of a loop that counts down, with its brace on the next line, lines left empty, and
no end of the last line. -/
def countdown : List Token :=
  [.newline, .while, .not, .identifier "tap", .openParen, .closeParen, .colon, .newline,
    .openBrace, .newline, .newline, .identifier "x", .equals, .identifier "x", .plus, .minus,
    .integer 3, .newline, .closeBrace, .endOfInput].map (⟨·, default⟩)

/-- The lines of the countdown. -/
def countdownLines : List DerivedLine :=
  [([.while, .not, .identifier "tap", .openParen, .closeParen, .colon, .newline, .openBrace],
      .loop (.sensorNotRaised "tap")),
    ([.identifier "x", .equals, .identifier "x", .plus, .minus, .integer 3], .increment "x" (-3)),
    ([.closeBrace], .close)]

/-- The tokens of the countdown are a listing: an empty line is left out, the header takes two
lines, and the last line has no end. -/
lemma isListing_countdown : IsListing (kinds countdown) countdownLines :=
  .lines 1 0 (.more (.loopOnTwoLines (.notRaised "tap")) 1
    (.more (.increment "x" (.negative rfl)) 0 (.last .close)))

/-- The countdown is accepted. -/
theorem parse_grammar_countdown : WellEnded countdown ∧ (parse countdown).errors = [] ∧
    (parse countdown).lines.map Prod.fst = countdownLines.map Prod.snd := by
  have hended : WellEnded countdown := by decide
  obtain ⟨haccepted, hlines⟩ := parse_grammar.1 countdown hended
  exact ⟨hended, haccepted.2 ⟨_, isListing_countdown⟩, (hlines _ isListing_countdown).1⟩

end StickerBot.Listing
