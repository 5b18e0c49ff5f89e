import StickerBot.Proofs.Beginning
import StickerBot.Proofs.Walking
set_option autoImplicit false

/-!
# The pieces of a program

A program is made of pieces, one for each statement of the chain and in the order of the chain.
What a statement writes depends on the statement, on the repeats that are open before it, and, if
there are remarks, on the trace points given so far.

## Main definitions

* `Piece`, `Pen` — what one statement has written, and where the writing stands.
* `Layout.code`, `Layout.penAfter` — what a statement writes, and where the writing stands then.
* `Layout.pieces`, `Layout.written` — the pieces of statements in a row, and those of a page.

## Main results

* `emitStatement_code` — a statement writes its code.
* `walkKeeps_written` — all along a walk the pieces of what was visited are written.
* `WalkKeeps.generate` — what a walk keeps holds of a program and its page.
* `exists_walked` — a program is made of the pieces of its page.
-/

namespace StickerBot

/-- **Pieces.** What one statement has written. -/
structure Piece where
  statement : Nat
  code : List Instruction
deriving DecidableEq, Repr

/-- **Pens.** Where the writing of a program stands: the statements whose repeats are open, the
innermost first, and the next trace point. -/
structure Pen where
  opened : List Nat
  point : UInt32
deriving DecidableEq, Repr

/-- Nothing is written yet. -/
def Pen.start : Pen := ⟨[], 0⟩

/-- A context has come to where a pen stands. -/
structure Pen.Holds (pen : Pen) (c : Context) : Prop where
  opened : c.openBlocks.map OpenBlock.statement = pen.opened
  point : c.nextTrace = pen.point

namespace Brace

/-- Whether remarks, if they are wanted, go before a letter. -/
def isRemarked : Brace Sticker ParameterValue → Bool
  | .plain _ | .opening _ => true
  | .closing => false

/-- The statements whose repeats are open after the letter of a statement. -/
def openedAfter (opened : List Nat) (id : Nat) : Brace Sticker ParameterValue → List Nat
  | .plain _ => opened
  | .opening _ => id :: opened
  | .closing => opened.tail

end Brace

namespace Layout

/-- **The code of a statement**: remarks, if they are wanted, and the code of its letter. -/
def code (l : Layout) (debug : Bool) (pen : Pen) (id : Nat) : List Instruction :=
  match l.get? id, l.step? id with
  | some s, some x =>
    (if debug && x.isRemarked then [.trace pen.point, .print s.name] else []) ++
      x.code pen.opened.length
  | _, _ => []

/-- Where the writing stands after a statement. -/
def penAfter (l : Layout) (debug : Bool) (pen : Pen) (id : Nat) : Pen :=
  match l.step? id with
  | some x =>
    ⟨x.openedAfter pen.opened id, if debug && x.isRemarked then pen.point + 1 else pen.point⟩
  | none => pen

/-- **The pieces** of statements in a row. -/
def pieces (l : Layout) (debug : Bool) : Pen → List Nat → List Piece
  | _, [] => []
  | pen, id :: ids => ⟨id, l.code debug pen id⟩ :: l.pieces debug (l.penAfter debug pen id) ids

/-- **The pieces of a page**: those of its chain from the start. -/
def written (l : Layout) (debug : Bool) : List Piece :=
  l.pieces debug .start (l.chain [] l.start?.toList)

/-- Where the writing stands after all statements of a page. -/
def lastPen (l : Layout) (debug : Bool) : Pen :=
  (l.chain [] l.start?.toList).foldl (l.penAfter debug) .start

/-- Each statement has its piece. -/
@[simp] lemma map_statement_pieces (l : Layout) (debug : Bool) (ids : List Nat) :
    ∀ pen, (l.pieces debug pen ids).map Piece.statement = ids := by
  induction ids with
  | nil => exact fun _ => rfl
  | cons id ids ih => intro pen; simp [pieces, ih]

/-- The pieces of more statements come after those of fewer. -/
lemma pieces_append (l : Layout) (debug : Bool) (ids ids' : List Nat) :
    ∀ pen, l.pieces debug pen (ids ++ ids') =
      l.pieces debug pen ids ++ l.pieces debug (ids.foldl (l.penAfter debug) pen) ids' := by
  induction ids with
  | nil => exact fun _ => rfl
  | cons id ids ih => intro pen; simp [pieces, ih]

/-- What comes before a piece, and where the writing stands at its beginning. By induction on the
statements: those that are written before the piece take the pen from the beginning to where the
piece is written. -/
lemma of_pieces_eq_append (l : Layout) (debug : Bool) (ids : List Nat) :
    ∀ {pen : Pen} {before after : List Piece} {p : Piece},
      l.pieces debug pen ids = before ++ p :: after →
        ∃ front, before = l.pieces debug pen front ∧
          p.code = l.code debug (front.foldl (l.penAfter debug) pen) p.statement := by
  induction ids with
  | nil => intro pen before after p h; exact absurd h (by simp [pieces])
  | cons id ids ih =>
    intro pen before after p h
    cases before with
    | nil =>
      obtain ⟨rfl, -⟩ := List.cons.inj h
      exact ⟨[], rfl, rfl⟩
    | cons q before =>
      obtain ⟨rfl, hrest⟩ := List.cons.inj h
      obtain ⟨front, rfl, hcode⟩ := ih hrest
      exact ⟨id :: front, rfl, hcode⟩

/-- The statements of the pieces of a page are those of its chain. -/
lemma map_statement_written (l : Layout) (debug : Bool) :
    (l.written debug).map Piece.statement = l.chain [] l.start?.toList :=
  l.map_statement_pieces debug _ .start

/-- A page writes each statement once. -/
lemma nodup_written (l : Layout) (debug : Bool) :
    ((l.written debug).map Piece.statement).Nodup := by
  rw [map_statement_written]
  exact nodup_chain l [] _

/-- Each statement of the chain has written a piece of the page. -/
lemma exists_mem_written {l : Layout} {id : Nat} (h : id ∈ l.chain [] l.start?.toList)
    (debug : Bool) : ∃ p ∈ l.written debug, p.statement = id := by
  rwa [← List.mem_map, map_statement_written]

/-- The pieces of a page are the code of its chain. -/
lemma mem_written {l : Layout} {debug : Bool} {p : Piece} (hp : p ∈ l.written debug) :
    p.statement ∈ l.chain [] l.start?.toList ∧ ∃ pen, p.code = l.code debug pen p.statement := by
  refine ⟨?_, ?_⟩
  · rw [← l.map_statement_written debug]
    exact List.mem_map_of_mem hp
  · obtain ⟨before, after, hsplit⟩ := List.append_of_mem hp
    obtain ⟨front, -, hcode⟩ := l.of_pieces_eq_append debug _ hsplit
    exact ⟨_, hcode⟩

end Layout

/-! ### A statement writes its code -/

/-- What remarks change of a context. -/
lemma emitRemarks_spec (id : Nat) (name : String) (c : Context) :
    (emitRemarks id name c).openBlocks = c.openBlocks ∧
      (emitRemarks id name c).nextTrace =
        (if c.options.debug then c.nextTrace + 1 else c.nextTrace) ∧
      (emitRemarks id name c).instructions =
        c.instructions ++ if c.options.debug then [.trace c.nextTrace, .print name] else [] := by
  unfold emitRemarks
  split <;> simp [Context.tracePoint, Context.emitAll]

/-- What the end of a repeat changes of a context. -/
lemma emitLoopEnd_spec (id : Nat) (name : String) (c : Context) :
    (emitLoopEnd id name c).openBlocks = c.openBlocks.tail ∧
      (emitLoopEnd id name c).nextTrace = c.nextTrace ∧
      (emitLoopEnd id name c).instructions =
        c.instructions ++ if c.openBlocks.length = 0 then [] else [.close] := by
  unfold emitLoopEnd Context.closeBlock
  cases hopen : c.openBlocks with
  | nil => simp [Context.report, hopen]
  | cons b bs => simp [Context.emit]

/-- **Writing.** A statement writes its code, and the writing stands where it should.

**Proof sketch.** One case for each kind of statement. The remarks come first, if they are wanted,
and then the code of the letter; the pen stands at the next trace point, in the block that was
opened or around the one that was closed. -/
theorem emitStatement_code {l₀ l : Layout} {seen : List Nat} (hm : l₀.Marks l seen) (id : Nat)
    {c : Context} {pen : Pen} (hpen : pen.Holds c) :
    (emitStatement id l c).2.instructions = c.instructions ++ l₀.code c.options.debug pen id ∧
      (l₀.penAfter c.options.debug pen id).Holds (emitStatement id l c).2 := by
  have hkind := hm.map_get? Statement.kind (fun _ => rfl) id
  have hname := hm.map_get? Statement.name (fun _ => rfl) id
  have hvalue := (hm.readParameter id).1
  obtain ⟨hopened, hpoint⟩ := hpen
  have hdepth : c.openBlocks.length = pen.opened.length := by rw [← hopened, List.length_map]
  unfold emitStatement Layout.code Layout.penAfter Layout.step?
  rcases hl : l.get? id with _ | s <;> rw [hl] at hkind hname
  · obtain hl₀ : l₀.get? id = none := by simpa using hkind.symm
    rw [hl₀]
    exact ⟨(List.append_nil _).symm, hopened, hpoint⟩
  · obtain ⟨s₀, hl₀, hs₀⟩ := Option.map_eq_some_iff.1 hkind.symm
    rw [hl₀, Option.map_some, Option.map_some, Option.some.injEq] at hname
    obtain ⟨hblocks, htrace, hinstructions⟩ := emitRemarks_spec id s₀.name c
    have hcounter : (emitRemarks id s₀.name c).counterName =
        Context.counterAt pen.opened.length := by
      rw [Context.counterName, Context.depth, hblocks, hdepth]
    rw [hl₀, Option.bind_some, hs₀]
    dsimp only
    rw [hname]
    cases s.kind with
    | start => exact ⟨(List.append_nil _).symm, hopened, hpoint⟩
    | parameter v => exact ⟨(List.append_nil _).symm, hopened, hpoint⟩
    | action a =>
      refine ⟨?_, ?_, ?_⟩
      · simp [Context.emit, hinstructions, Brace.isRemarked, Brace.code, hpoint]
      · rw [← hopened, ← hblocks]
        rfl
      · simp [Context.emit, htrace, Brace.isRemarked, hpoint]
    | wait =>
      refine ⟨?_, ?_, ?_⟩
      · simp [Context.emitAll, hinstructions, Brace.isRemarked, Brace.code, hpoint, hvalue,
          hcounter]
      · rw [← hopened, ← hblocks]
        rfl
      · simp [Context.emitAll, htrace, Brace.isRemarked, hpoint]
    | loopBegin =>
      refine ⟨?_, ?_, ?_⟩
      · simp [Context.openBlock, Context.emitAll, hinstructions, Brace.isRemarked, Brace.code,
          hpoint, hvalue, hcounter]
      · simp [Context.openBlock, Context.emitAll, hblocks, Brace.openedAfter, hopened]
      · simp [Context.openBlock, Context.emitAll, htrace, Brace.isRemarked, hpoint]
    | loopEnd =>
      obtain ⟨hblocks, htrace, hinstructions⟩ := emitLoopEnd_spec id s₀.name c
      refine ⟨?_, ?_, ?_⟩
      · simp [hinstructions, Brace.isRemarked, Brace.code, hdepth]
      · rw [hblocks, List.map_tail, hopened]
        rfl
      · simp [htrace, Brace.isRemarked, hpoint]

/-! ### A walk writes pieces -/

/-- **Written.** A context holds the pieces of what was visited. -/
structure Layout.Written (l : Layout) (options : GenerateOptions) (seen : List Nat) (c : Context) :
    Prop where
  settings : c.options = options
  code : c.instructions = (l.pieces options.debug .start seen.reverse).flatMap Piece.code
  pen : (seen.reverse.foldl (l.penAfter options.debug) .start).Holds c

/-- **A walk writes pieces.** -/
theorem walkKeeps_written (l₀ : Layout) (options : GenerateOptions) :
    WalkKeeps fun seen _ l c => l₀.Marks l seen ∧ l₀.Written options seen c where
  lost _ h := h
  dangle _ h := ⟨h.1.markDangling _, h.2.settings, h.2.code, h.2.pen.opened, h.2.pen.point⟩
  skip _ h := h
  new := by
    rintro seen id depth rest l c s hs hp hcompiled ⟨hm, ⟨hoptions, hcode, hpen⟩⟩
    obtain ⟨hcode', hpen'⟩ := emitStatement_code (hm.markCompiled id) id hpen
    rw [hoptions] at hcode' hpen'
    refine ⟨hm.emitStatement hs c, (options_emitStatement _ _ _).trans hoptions, ?_, ?_⟩
    · rw [hcode', hcode, List.reverse_cons, Layout.pieces_append, List.flatMap_append]
      simp [Layout.pieces]
    · rw [List.reverse_cons, List.foldl_append]
      exact hpen'

/-! ### Programs of pages -/

/-- The start of a page is of the flow. -/
lemma Layout.isFlow_start {l : Layout} {start : Nat} (h : l.start? = some start) :
    l.IsFlow start := by
  obtain ⟨-, s, hs, hstart⟩ := start?_eq_some_iff.1 h
  refine ⟨s, hs, ?_⟩
  cases hk : s.kind with
  | parameter v => simp [hk, StatementKind.isStart] at hstart
  | _ => rfl

/-- **Walked.** What a walk leaves that has written a program of a page: the chain of the page is
marked, parameters and loose ends are marked as they should, and the context holds the pieces of
the page. -/
structure Layout.Walked (l : Layout) (options : GenerateOptions) (l' : Layout) (c : Context) :
    Prop where
  start : ∃ start, l.start? = some start
  marks : l.Marks l' (l.chain [] l.start?.toList)
  wellMarked : l'.WellMarked []
  code : c.instructions = (l.written options.debug).flatMap Piece.code
  pen : (l.lastPen options.debug).Holds c

/-- Marks on a list do not depend on its order. -/
lemma Layout.Marks.of_mem_iff {l₀ l : Layout} {seen seen' : List Nat} (h : l₀.Marks l seen)
    (hseen : ∀ id, id ∈ seen' ↔ id ∈ seen) : l₀.Marks l seen' where
  same := h.same
  compiled id s hs hp := (h.compiled id s hs hp).trans (hseen id).symm

/-- **What a walk keeps** holds when a program is written, with the chain of the page as what was
visited. -/
lemma WalkKeeps.generate {P : List Nat → List WalkTask → Layout → Context → Prop}
    (hP : WalkKeeps P) {l l' : Layout} {options : GenerateOptions} {g : Generated}
    (h : generate l options = (l', .ok g))
    (hfirst : ∀ start, P [] [.visit start 0] l.clearMarks (.start options)) :
    ∃ c seen, g = c.finish ∧ seen.reverse = l.chain [] l.start?.toList ∧ P seen [] l' c := by
  obtain ⟨start, c, hstart, rfl, hwalk⟩ := generate_eq_ok h
  have hkeeps := (walkKeeps_chain l (l.chain [] [start])).and hP
  obtain ⟨seen, ⟨-, hchain⟩, hseen⟩ := hkeeps.walk [.visit start 0] l.clearMarks
    (.start options) [] ⟨⟨.clearMarks l, rfl⟩, hfirst start⟩ c (by rw [hwalk])
  rw [hwalk] at hseen
  rw [List.filterMap_nil, Layout.chain, List.append_nil] at hchain
  exact ⟨c, seen, rfl, by rw [hchain, hstart]; rfl, hseen⟩

/-- **Programs of pages** are what is left of a walk along the chain. -/
theorem exists_walked {l l' : Layout} {options : GenerateOptions} {g : Generated}
    (h : generate l options = (l', .ok g)) : ∃ c, g = c.finish ∧ l.Walked options l' c := by
  have hkeeps := walkKeeps_wellMarked.and (walkKeeps_written l options)
  have hwritten : l.Written options [] (.start options) := ⟨rfl, rfl, rfl, rfl⟩
  obtain ⟨c, seen, rfl, hseen, hwell, hm, hwritten⟩ := hkeeps.generate h fun start =>
    ⟨l.wellMarked_clearMarks start, .clearMarks l, hwritten⟩
  obtain ⟨start, -, hstart, -⟩ := generate_eq_ok h
  refine ⟨c, rfl, ⟨start, hstart⟩, hm.of_mem_iff fun id => ?_, hwell, ?_, ?_⟩
  · rw [← hseen, List.mem_reverse]
  · rw [hwritten.code, hseen]
    rfl
  · have hpen := hwritten.pen
    rwa [hseen] at hpen

end StickerBot
