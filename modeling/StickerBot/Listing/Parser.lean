import StickerBot.Diagnostic
import StickerBot.Instruction
import StickerBot.Word
import StickerBot.Listing.Token
set_option autoImplicit false

/-!
# Parsing: from tokens to instructions

Every line of a listing is one instruction, but the brace that opens a loop may stand on the
line after its header. A line that cannot be read is reported once and skipped to its end, and
the reading goes on with the next line, until as many errors are found as a log stores.

## Main definitions

* `Listing.Cursor`, `Listing.Reader` — what is left of the tokens, and readers that take from
  it.
* `Listing.ParseError` — what can be wrong with the tokens of a line.
* `Listing.line` — one instruction.
* `Listing.parse` — the instructions of a list of tokens.

## Main results

* `Listing.line_shrinks` — reading a line never gives tokens back, so parsing ends.
-/

namespace StickerBot.Listing

/-- **Cursor.** The tokens that are left, and the span of the last one taken. -/
structure Cursor where
  rest : List Token
  last : Span
deriving DecidableEq, Repr

namespace Cursor

/-- The next token. After the last one the input has ended. -/
def head (c : Cursor) : Token :=
  match c.rest with
  | [] => ⟨.endOfInput, c.last⟩
  | t :: _ => t

/-- After the next token. -/
def tail (c : Cursor) : Cursor :=
  match c.rest with
  | [] => c
  | t :: ts => ⟨ts, t.span⟩

end Cursor

/-- **Parse errors.** -/
inductive ParseError where
  /-- Something else was expected. -/
  | expected (what : String) (found : TokenKind)
  /-- A number that the instruction cannot hold. -/
  | outOfRange (value : Int)
  /-- A variable that is to grow from another one. -/
  | growsFromOther (name source : String)
deriving DecidableEq, Repr

namespace ParseError

/-- The code of a parse error. -/
def code : ParseError → Code
  | .expected _ _ | .growsFromOther _ _ => .unexpectedToken
  | .outOfRange _ => .invalidNumber

/-- The wording of a parse error. -/
def message : ParseError → String
  | .expected what found => "expected " ++ what ++ ", found " ++ found.render
  | .outOfRange n => toString n ++ " is out of range here"
  | .growsFromOther name source =>
    "'" ++ name ++ "' can only be incremented from itself, found '" ++ source ++ "'"

/-- The diagnostic of a parse error at a place. -/
def diagnose (e : ParseError) (span : Span) : Diagnostic :=
  let d := (Diagnostic.error e.code e.message).atSpan span
  match e with
  | .growsFromOther name _ =>
    d.withSuggestion ("write '" ++ name ++ " = " ++ name ++ " + 1'")
  | _ => d

end ParseError

/-- **Outcome of a reader.** Either way, what is left of the tokens. -/
inductive Outcome (α : Type) where
  | ok (value : α) (next : Cursor)
  | fail (error : Diagnostic) (next : Cursor)

namespace Outcome

/-- What is left of the tokens. -/
def next {α : Type} : Outcome α → Cursor
  | .ok _ c | .fail _ c => c

end Outcome

/-- **Readers.** They take tokens off a cursor. -/
def Reader (α : Type) : Type := Cursor → Outcome α

namespace Reader

variable {α β : Type}

/-- One reader after the other. -/
def bind (p : Reader α) (f : α → Reader β) : Reader β := fun c =>
  match p c with
  | .ok a d => f a d
  | .fail e d => .fail e d

/-- Readers are put one after the other: the second goes on where the first has stopped, and after a
failure nothing is read any more. -/
instance : Monad Reader where
  pure a := fun c => .ok a c
  bind := Reader.bind

/-- A reader that takes tokens and never gives any back. -/
def Shrinks (p : Reader α) : Prop := ∀ c, (p c).next.rest.length ≤ c.rest.length

/-- Reading nothing gives no token back. -/
theorem shrinks_pure (a : α) : Shrinks (pure a : Reader α) := fun _ => Nat.le_refl _

/-- If neither of two readers gives tokens back, one after the other does not. -/
theorem Shrinks.bind {p : Reader α} {f : α → Reader β} (hp : Shrinks p)
    (hf : ∀ a, Shrinks (f a)) : Shrinks (p >>= f) := by
  intro c
  have h := hp c
  show (Reader.bind p f c).next.rest.length ≤ _
  unfold Reader.bind
  cases hc : p c with
  | ok a d => rw [hc] at h; exact Nat.le_trans (hf a d) h
  | fail e d => rw [hc] at h; exact h

end Reader

/-- Takes the next token if it is of a kind. -/
def eat (kind : TokenKind) : Reader Bool := fun c =>
  if c.head.kind = kind then .ok true c.tail else .ok false c

/-- Fails at the next token. -/
def unexpected {α : Type} (what : String) : Reader α := fun c =>
  .fail ((ParseError.expected what c.head.kind).diagnose c.head.span) c

/-- Takes the next token, which must be of a kind. -/
def expect (kind : TokenKind) : Reader Unit := do
  if ← eat kind then pure () else unexpected kind.render

/-- Takes a name. -/
def name : Reader String := fun c =>
  match c.head.kind with
  | .identifier s => .ok s c.tail
  | _ => unexpected "a name" c

/-- Takes a string. -/
def quoted : Reader String := fun c =>
  match c.head.kind with
  | .string s => .ok s c.tail
  | _ => unexpected "a string" c

/-- Takes a number, with a minus before it or not, that must fit. -/
def integer {α : Type} (fit : Int → Option α) : Reader α := fun c =>
  let negative := c.head.kind = .minus
  let d := if negative then c.tail else c
  match d.head.kind with
  | .integer n =>
    let value := if negative then -n else n
    match fit value with
    | some a => .ok a d.tail
    | none =>
      .fail ((ParseError.outOfRange value).diagnose (c.head.span.merge d.tail.last)) d.tail
  | _ => unexpected "an integer" d

/-- Checks that the line ends here, and leaves its end. -/
def lineEnd : Reader Unit := fun c =>
  if c.head.kind.endsLine then .ok () c else unexpected "end of line" c

/-! ### Readers take tokens and never give any back -/

/-- Going on leaves no more tokens. -/
theorem length_tail_le (c : Cursor) : c.tail.rest.length ≤ c.rest.length := by
  unfold Cursor.tail
  split <;> simp_all

/-- Going on from a token leaves fewer tokens. -/
theorem length_tail_lt {c : Cursor} (h : c.head.kind ≠ .endOfInput) :
    c.tail.rest.length < c.rest.length := by
  unfold Cursor.head at h
  unfold Cursor.tail
  split at h <;> simp_all

/-- Failing gives no token back. -/
theorem unexpected_shrinks {α : Type} (what : String) :
    (unexpected what : Reader α).Shrinks := fun _ => Nat.le_refl _

/-- Taking a token of a kind gives none back. -/
theorem eat_shrinks (kind : TokenKind) : (eat kind).Shrinks := by
  intro c
  unfold eat
  split
  · exact length_tail_le c
  · exact Nat.le_refl _

/-- Requiring a token of a kind gives none back. -/
theorem expect_shrinks (kind : TokenKind) : (expect kind).Shrinks := by
  refine (eat_shrinks kind).bind fun b => ?_
  cases b
  · exact unexpected_shrinks _
  · exact Reader.shrinks_pure ()

/-- A required token is taken. -/
theorem expect_ok_lt {kind : TokenKind} {c d : Cursor} (hk : kind ≠ .endOfInput)
    (h : expect kind c = .ok () d) : d.rest.length < c.rest.length := by
  unfold expect at h
  by_cases hc : c.head.kind = kind
  · have : expect kind c = .ok () c.tail := by
      simp [expect, bind, Reader.bind, eat, hc, pure]
    rw [show d = c.tail by simp_all [expect, bind, Reader.bind, eat, pure]]
    exact length_tail_lt (by simp [hc, hk])
  · simp [bind, Reader.bind, eat, hc, unexpected] at h

/-- Taking a name gives no token back. -/
theorem name_shrinks : name.Shrinks := by
  intro c
  unfold name
  split
  · exact length_tail_le c
  · exact Nat.le_refl _

/-- Taking a string gives no token back. -/
theorem quoted_shrinks : quoted.Shrinks := by
  intro c
  unfold quoted
  split
  · exact length_tail_le c
  · exact Nat.le_refl _

/-- Taking a number gives no token back. -/
theorem integer_shrinks {α : Type} (fit : Int → Option α) : (integer fit).Shrinks := by
  intro c
  have h₁ := length_tail_le c
  have h₂ := length_tail_le c.tail
  simp only [integer]
  split <;> split <;> try split
  all_goals simp_all [Outcome.next, unexpected]
  all_goals omega

/-- Checking for the end of a line gives no token back. -/
theorem lineEnd_shrinks : lineEnd.Shrinks := by
  intro c
  unfold lineEnd
  split <;> exact Nat.le_refl _

/-! ### Lines -/

/-- The numbers of a call after its opening parenthesis, up to the closing one; `read` holds
those already found, the last one first. -/
def arguments (read : List Int32) (c : Cursor) : Outcome (List Int32) :=
  match _hi : integer Word.int32? c with
  | .fail e d => .fail e d
  | .ok n d =>
    if d.head.kind = .closeParen then .ok (n :: read).reverse d.tail
    else
      match _hc : expect .comma d with
      | .fail e f => .fail e f
      | .ok () f => arguments (n :: read) f
termination_by c.rest.length
decreasing_by
  have h₁ := integer_shrinks Word.int32? c
  rw [_hi] at h₁
  exact Nat.lt_of_lt_of_le (expect_ok_lt (by decide) _hc) h₁

/-- The rest of an increment after the repeated name. -/
def growth (x : String) : Reader Instruction := do
  expect .plus
  return Instruction.increment x (← integer Word.int32?)

/-- The rest of an assignment after the equals sign. -/
def assignment (x : String) : Reader Instruction := do
  return Instruction.assign x (← integer Word.int32?)

/-- The rest of a line that gives a variable a value: a number, or the variable itself and a
number more. -/
def afterEquals (x : String) : Reader Instruction := fun c =>
  match c.head.kind with
  | .identifier y =>
    if y = x then growth x c.tail
    else .fail ((ParseError.growsFromOther x y).diagnose c.head.span) c.tail
  | _ => assignment x c

/-- The rest of a call after its opening parenthesis. -/
def call (x : String) : Reader Instruction := fun c =>
  if c.head.kind = .closeParen then .ok (.call x []) c.tail
  else
    match arguments [] c with
    | .ok ns d => .ok (.call x ns) d
    | .fail e d => .fail e d

/-- The rest of a line that begins with a name: a call, an assignment or an increment. -/
def afterName (x : String) : Reader Instruction := do
  if ← eat .openParen then call x
  else
    expect .equals
    afterEquals x

/-- The condition of a loop header. -/
def condition : Reader Condition := do
  if ← eat .not then
    let sensor ← name
    expect .openParen
    expect .closeParen
    return .sensorNotRaised sensor
  else
    let x ← name
    expect .less
    return .below x (← integer Word.int32?)

/-- The rest of a loop header after its first word. The brace may stand on the next line. -/
def loopHeader : Reader Instruction := do
  let c ← condition
  expect .colon
  let _ ← eat .newline
  expect .openBrace
  lineEnd
  return .loop c

/-- Fails at a token that no instruction begins with. -/
def noInstruction (t : Token) : Reader Instruction := fun c =>
  .fail ((ParseError.expected "an instruction" t.kind).diagnose t.span) c

/-- **One line.** The instruction of a line, given its first token; the cursor stands after
that token. -/
def line (t : Token) : Reader Instruction :=
  match t.kind with
  | .wait => do
    let n ← integer Word.uint32?
    lineEnd
    return .wait n
  | .trace => do
    let n ← integer Word.uint32?
    lineEnd
    return .trace n
  | .print => do
    let s ← quoted
    lineEnd
    return .print s
  | .while => loopHeader
  | .closeBrace => do
    lineEnd
    return .close
  | .identifier x => do
    let i ← afterName x
    lineEnd
    return i
  | _ => noInstruction t

/-- Taking the numbers of a call gives no token back. The cases are those of the recursion: a number
and a comma are taken, neither of which gives a token back, and then the other numbers. -/
theorem arguments_shrinks (read : List Int32) (c : Cursor) :
    (arguments read c).next.rest.length ≤ c.rest.length := by
  fun_induction arguments read c with
  | case1 read c e d hi =>
    have h := integer_shrinks Word.int32? c
    rwa [hi] at h
  | case2 read c n d hi hd =>
    have h := integer_shrinks Word.int32? c
    rw [hi] at h
    exact Nat.le_trans (length_tail_le d) h
  | case3 read c n d hi hd e f hc =>
    have h₁ := integer_shrinks Word.int32? c
    have h₂ := expect_shrinks .comma d
    rw [hi] at h₁
    rw [hc] at h₂
    exact Nat.le_trans h₂ h₁
  | case4 read c n d hi hd f hc ih =>
    have h₁ := integer_shrinks Word.int32? c
    have h₂ := expect_shrinks .comma d
    rw [hi] at h₁
    rw [hc] at h₂
    exact Nat.le_trans ih (Nat.le_trans h₂ h₁)

/-- Taking a call gives no token back. -/
theorem call_shrinks (x : String) : (call x).Shrinks := by
  intro c
  unfold call
  split
  · exact length_tail_le c
  · have h := arguments_shrinks [] c
    split <;> rename_i heq <;> rw [heq] at h <;> exact h

/-- Taking an increment gives no token back. -/
theorem growth_shrinks (x : String) : (growth x).Shrinks :=
  (expect_shrinks _).bind fun _ => (integer_shrinks _).bind fun _ => Reader.shrinks_pure _

/-- Taking an assignment gives no token back. -/
theorem assignment_shrinks (x : String) : (assignment x).Shrinks :=
  (integer_shrinks _).bind fun _ => Reader.shrinks_pure _

/-- Taking what follows an equals sign gives no token back. -/
theorem afterEquals_shrinks (x : String) : (afterEquals x).Shrinks := by
  intro c
  unfold afterEquals
  split
  · split
    · exact Nat.le_trans (growth_shrinks x c.tail) (length_tail_le c)
    · exact length_tail_le c
  · exact assignment_shrinks x c

/-- Taking the rest of a line after a name gives no token back. -/
theorem afterName_shrinks (x : String) : (afterName x).Shrinks := by
  refine (eat_shrinks .openParen).bind fun b => ?_
  cases b
  · exact (expect_shrinks _).bind fun _ => afterEquals_shrinks x
  · exact call_shrinks x

/-- Taking a condition gives no token back. -/
theorem condition_shrinks : condition.Shrinks := by
  refine (eat_shrinks .not).bind fun b => ?_
  cases b
  · exact name_shrinks.bind fun _ => (expect_shrinks _).bind fun _ =>
      (integer_shrinks _).bind fun _ => Reader.shrinks_pure _
  · exact name_shrinks.bind fun _ => (expect_shrinks _).bind fun _ =>
      (expect_shrinks _).bind fun _ => Reader.shrinks_pure _

/-- Taking a loop header gives no token back. -/
theorem loopHeader_shrinks : loopHeader.Shrinks :=
  condition_shrinks.bind fun _ => (expect_shrinks _).bind fun _ => (eat_shrinks _).bind fun _ =>
    (expect_shrinks _).bind fun _ => lineEnd_shrinks.bind fun _ => Reader.shrinks_pure _

/-- Failing at the first token gives no token back. -/
theorem noInstruction_shrinks (t : Token) : (noInstruction t).Shrinks := fun _ => Nat.le_refl _

/-- Reading a line never gives tokens back. -/
theorem line_shrinks (t : Token) : (line t).Shrinks := by
  unfold line
  split
  · exact (integer_shrinks _).bind fun _ => lineEnd_shrinks.bind fun _ => Reader.shrinks_pure _
  · exact (integer_shrinks _).bind fun _ => lineEnd_shrinks.bind fun _ => Reader.shrinks_pure _
  · exact quoted_shrinks.bind fun _ => lineEnd_shrinks.bind fun _ => Reader.shrinks_pure _
  · exact loopHeader_shrinks
  · exact lineEnd_shrinks.bind fun _ => Reader.shrinks_pure _
  · exact (afterName_shrinks _).bind fun _ => lineEnd_shrinks.bind fun _ =>
      Reader.shrinks_pure _
  · exact noInstruction_shrinks t

/-! ### All lines -/

/-- **Result of parsing.** The instructions with their spans, and every error. -/
structure Parsed where
  lines : List (Instruction × Span)
  errors : List Diagnostic
deriving Repr

/-- Goes to the end of the line. -/
def skipLine (ts : List Token) : List Token := ts.dropWhile fun t => !t.kind.endsLine

/-- Reads the remaining lines; what was found before stands with the last one first. -/
def parseFrom (lines : List (Instruction × Span)) (errors : List Diagnostic) :
    List Token → Parsed
  | [] => ⟨lines.reverse, errors.reverse⟩
  | t :: ts =>
    if t.kind = .newline then parseFrom lines errors ts
    else if t.kind = .endOfInput ∨ DiagnosticLog.capacity ≤ errors.length then
      ⟨lines.reverse, errors.reverse⟩
    else
      match _h : line t ⟨ts, t.span⟩ with
      | .ok i c => parseFrom ((i, t.span.merge c.last) :: lines) errors c.rest
      | .fail d c => parseFrom lines (d :: errors) (skipLine c.rest)
termination_by ts => ts.length
decreasing_by
  · simp
  · have hs := line_shrinks t ⟨ts, t.span⟩
    rw [_h] at hs
    exact Nat.lt_succ_of_le hs
  · have hs := line_shrinks t ⟨ts, t.span⟩
    rw [_h] at hs
    exact Nat.lt_succ_of_le (Nat.le_trans (List.dropWhile_suffix _).length_le hs)

/-- **Parsing.** The instructions and errors of a list of tokens. -/
def parse (tokens : List Token) : Parsed := parseFrom [] [] tokens

end StickerBot.Listing
