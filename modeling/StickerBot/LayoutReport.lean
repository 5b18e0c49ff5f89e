import StickerBot.Layout
set_option autoImplicit false

/-!
# Layout reports

After a program was written, its layout tells which stickers the program holds, and so what
whoever arranged them should look at first.

## Main definitions

* `LayoutHint` — the one thing most worth saying.
* `LayoutReport`, `LayoutReport.ofLayout` — what the marks of a layout tell.
-/

namespace StickerBot

/-- **Hints.** -/
inductive LayoutHint where
  | ok
  | missingStart
  | missingLoopEnd
  | missingLoopBegin
  /-- These stickers were never reached. -/
  | misaligned (names : List String)
deriving DecidableEq, Repr, Inhabited

/-- The wording of a hint. -/
def LayoutHint.message : LayoutHint → String
  | .ok => "program layout looks good"
  | .missingStart => "make sure you have exactly one Begin sticker"
  | .missingLoopEnd => "make sure you have an End Repeat sticker"
  | .missingLoopBegin => "make sure you have a Begin Repeat sticker"
  | .misaligned names => "check the alignment of: " ++ ", ".intercalate names

/-- **Report.** How much of a layout the program holds. -/
structure LayoutReport where
  beginFound : Bool
  loopBeginFound : Bool
  /-- Every Begin Repeat was reached. -/
  loopBeginCompiled : Bool
  loopEndFound : Bool
  /-- Every End Repeat was reached. -/
  loopEndCompiled : Bool
  /-- The names of the stickers never reached, in order. -/
  misplaced : List String
  /-- The statements with an outgoing connector that leads nowhere. -/
  dangling : List Nat
  hint : LayoutHint
deriving DecidableEq, Repr, Inhabited

namespace LayoutReport

/-- Whether all statements of a kind were reached. -/
def allCompiled (l : Layout) (kind : StatementKind) : Bool :=
  l.statements.all fun s => s.kind ≠ kind || s.isCompiled

/-- The names of the statements never reached, in order. -/
def misplacedNames (l : Layout) : List String :=
  (l.statements.filter fun s => !s.isCompiled).map Statement.name

/-- The one thing most worth saying about a layout. -/
def hintFor (l : Layout) : LayoutHint :=
  let opens := l.containsKind .loopBegin
  let closes := l.containsKind .loopEnd
  if !l.hasStart then .missingStart
  else if opens && !closes then .missingLoopEnd
  else if closes && !opens then .missingLoopBegin
  else
    match misplacedNames l with
    | [] => .ok
    | names => .misaligned names

/-- **Reporting.** What the marks of a layout tell. -/
def ofLayout (l : Layout) : LayoutReport :=
  { beginFound := 0 < l.startCount
    loopBeginFound := l.containsKind .loopBegin
    loopBeginCompiled := allCompiled l .loopBegin
    loopEndFound := l.containsKind .loopEnd
    loopEndCompiled := allCompiled l .loopEnd
    misplaced := misplacedNames l
    dangling := (l.numbered.filter fun (s, _) => s.isDangling).map Prod.snd
    hint := hintFor l }

/-- Whether there is nothing to say. -/
def isOk (r : LayoutReport) : Bool := r.hint = .ok

end LayoutReport

end StickerBot
