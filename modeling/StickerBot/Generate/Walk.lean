import StickerBot.Generate.Emit
set_option autoImplicit false

/-!
# Walking the chain of stickers

A program is written by walking from the start along the outgoing connectors, each branch to
its end before the next. A statement is written when it is first reached. Parameters end a
branch, as do statements already written; an outgoing connector that leads nowhere is
reported.

## Main definitions

* `WalkTask` — what is left to do of a walk.
* `walk` — does everything that is left to do.
* `generate` — the program of a layout, with the layout marked, or why there is none.

## Main results

* `Layout.uncompiled_markCompiled_lt` — marking a statement leaves fewer to mark, so a walk
  ends.

## Design

The branches still to be walked stand on a list. Either the list gets shorter, or a statement
is marked that was not marked before.
-/

namespace StickerBot

/-- **Generation errors.** Why no program is written at all. -/
inductive GenerateError where
  | missingStart
  | duplicateStart (count : Nat)
  | chainTooDeep (limit statement : Nat)
deriving DecidableEq, Repr

/-- The message of a generation error. -/
def GenerateError.message : GenerateError → String
  | .missingStart => "no Begin sticker found"
  | .duplicateStart count =>
    toString count ++ " Begin stickers found, expected exactly one"
  | .chainTooDeep limit statement =>
    "statement chain deeper than " ++ toString limit ++ " at statement " ++ toString statement

/-- **Tasks of a walk.** -/
inductive WalkTask where
  /-- Go to a statement, so many connectors away from the start. -/
  | visit (id depth : Nat)
  /-- Report an outgoing connector of a statement that leads nowhere. -/
  | dangle (id : Nat)
deriving DecidableEq, Repr

/-! ### A walk ends -/

/-- How many statements are not part of the program. -/
def Layout.uncompiled (l : Layout) : Nat := l.statements.countP fun s => !s.isCompiled

/-- Changing an element so that it counts only if it did before does not add to a count. -/
theorem countP_modify_le {α : Type} (p : α → Bool) (f : α → α)
    (hf : ∀ x, p (f x) = true → p x = true) (xs : List α) (i : Nat) :
    (xs.modify i f).countP p ≤ xs.countP p := by
  induction xs generalizing i with
  | nil => simp
  | cons x xs ih =>
    cases i with
    | zero =>
      have h := hf x
      simp only [List.modify_zero_cons, List.countP_cons]
      split <;> split <;> simp_all
    | succ i =>
      have h := ih i
      simp only [List.modify_succ_cons, List.countP_cons]
      omega

/-- Changing an element that counts into one that does not takes one from the count. -/
theorem countP_modify_lt {α : Type} (p : α → Bool) (f : α → α) (xs : List α) (i : Nat) {x : α}
    (hx : xs[i]? = some x) (hp : p x = true) (hf : p (f x) = false) :
    (xs.modify i f).countP p < xs.countP p := by
  induction xs generalizing i with
  | nil => simp at hx
  | cons y ys ih =>
    cases i with
    | zero =>
      obtain rfl : y = x := by simpa using hx
      simp [hp, hf]
    | succ i =>
      have h := ih i (by simpa using hx)
      simp only [List.modify_succ_cons, List.countP_cons]
      omega

namespace Layout

/-- Marking a statement that was not marked leaves fewer to mark. -/
theorem uncompiled_markCompiled_lt {l : Layout} {id : Nat} {s : Statement}
    (h : l.get? id = some s) (hs : s.isCompiled = false) :
    (l.markCompiled id).uncompiled < l.uncompiled :=
  countP_modify_lt _ _ _ _ h (by simp [hs]) rfl

/-- Marking any statement leaves no more to mark. -/
theorem uncompiled_markCompiled_le (l : Layout) (id : Nat) :
    (l.markCompiled id).uncompiled ≤ l.uncompiled :=
  countP_modify_le _ _ (by simp) _ _

/-- A dangling mark leaves no more to mark. -/
theorem uncompiled_markDangling_le (l : Layout) (id : Nat) :
    (l.markDangling id).uncompiled ≤ l.uncompiled :=
  countP_modify_le _ _ (by simp) _ _

end Layout

/-- Reading a parameter leaves no more statements to mark. -/
theorem uncompiled_readParameter_le (id : Nat) (l : Layout) :
    (readParameter id l).2.uncompiled ≤ l.uncompiled := by
  unfold readParameter
  split
  · exact Nat.le_refl _
  · split
    · exact l.uncompiled_markCompiled_le _
    · exact Nat.le_refl _

/-- Writing a statement leaves no more statements to mark. -/
theorem uncompiled_emitStatement_le (id : Nat) (l : Layout) (c : Context) :
    (emitStatement id l c).1.uncompiled ≤ l.uncompiled := by
  unfold emitStatement
  split
  · exact Nat.le_refl _
  · split
    · exact Nat.le_refl _
    · exact Nat.le_refl _
    · exact Nat.le_refl _
    · exact uncompiled_readParameter_le id l
    · exact uncompiled_readParameter_le id l
    · exact Nat.le_refl _

/-! ### The walk -/

/-- The warning about an outgoing connector that leads nowhere. -/
def danglingBranch (id : Nat) (name : String) : Diagnostic :=
  (Diagnostic.warning .danglingBranch
    ("nothing is connected after '" ++ name ++ "'")).atStatement id

/-- What is to be done after a statement: each outgoing connector in order. -/
def branches (s : Statement) (id depth : Nat) : List WalkTask :=
  s.outgoing.map fun c =>
    match c.target with
    | some next => .visit next (depth + 1)
    | none => .dangle id

/-- **The walk.** Does everything on a list of tasks, from the first to the last. A statement
too far from the start ends it. -/
def walk (tasks : List WalkTask) (l : Layout) (c : Context) :
    Layout × Except GenerateError Context :=
  match tasks with
  | [] => (l, .ok c)
  | .dangle id :: rest =>
    match l.get? id with
    | none => walk rest l c
    | some s => walk rest (l.markDangling id) (c.report (danglingBranch id s.name))
  | .visit id depth :: rest =>
    if c.options.maxChainDepth < depth then
      (l, .error (.chainTooDeep c.options.maxChainDepth id))
    else
      match _h : l.get? id with
      | none => walk rest l c
      | some s =>
        if s.kind.isParameter then walk rest l c
        else if _hs : s.isCompiled then walk rest l c
        else
          let r := emitStatement id (l.markCompiled id) c
          walk (branches s id depth ++ rest) r.1 r.2
termination_by (l.uncompiled, tasks.length)
decreasing_by
  · exact Prod.Lex.right _ (by simp)
  · exact Prod.Lex.right' _ (l.uncompiled_markDangling_le id) (by simp)
  · exact Prod.Lex.right _ (by simp)
  · exact Prod.Lex.right _ (by simp)
  · exact Prod.Lex.right _ (by simp)
  · exact Prod.Lex.left _ _ (Nat.lt_of_le_of_lt
      (uncompiled_emitStatement_le id (l.markCompiled id) c)
      (Layout.uncompiled_markCompiled_lt _h (by simpa using _hs)))

/-! ### Generation -/

/-- **Generated code.** A program and what was found to be wrong with its layout. -/
structure Generated where
  program : Program
  diagnostics : DiagnosticLog
deriving DecidableEq, Inhabited

/-- The warning about a repeat that is never closed. -/
def unclosedLoop (b : OpenBlock) : Diagnostic :=
  ((Diagnostic.warning .unclosedLoop
    "Begin Repeat has no matching End Repeat").atStatement b.statement).withSuggestion
    "Make sure you have an End Repeat sticker on the page"

/-- The warning about a program that never acts. -/
def emptyProgram : Diagnostic :=
  (Diagnostic.warning .emptyProgram "program has no actions").withSuggestion
    "Make sure the stickers after Begin are aligned"

/-- Ends a generation: reports the loops still open, from the outermost, and a program that
never acts. -/
def Context.finish (c : Context) : Generated :=
  let log := c.diagnostics.pushAll (c.openBlocks.reverse.map unclosedLoop)
  ⟨c.program, if c.program.isEmpty then log.push emptyProgram else log⟩

/-- **Generation.** The program of a layout and the layout with its statements marked. Marks
from before are taken away, unless there is no start or more than one. -/
def generate (l : Layout) (options : GenerateOptions) :
    Layout × Except GenerateError Generated :=
  match l.startCount, l.start? with
  | 0, _ => (l, .error .missingStart)
  | 1, none => (l, .error .missingStart)
  | 1, some start =>
    match walk [.visit start 0] l.clearMarks (.start options) with
    | (l, .ok c) => (l, .ok c.finish)
    | (l, .error e) => (l, .error e)
  | count, _ => (l, .error (.duplicateStart count))

end StickerBot
