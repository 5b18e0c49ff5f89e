import StickerBot.Catalog
import StickerBot.Diagnostic
set_option autoImplicit false

/-!
# Layouts: the statements of one page

A layout holds the statements of a page in the order of their markers; the number of a
statement is its place in this order. Statements may be connected in any way, also in circles.

## Main definitions

* `Layout`, `Layout.ofMarkers` — the statements of a page, and the markers that nobody knows.
* `Layout.modify` — changes one statement.
* `Layout.startCount`, `Layout.start?` — where the program begins.

## Main results

* `Layout.get?_modify_self`, `Layout.get?_modify_of_ne` — changing one statement changes that
  statement and no other.
-/

namespace StickerBot

/-- **Layout.** The statements of one page. -/
structure Layout where
  statements : List Statement
deriving DecidableEq, Inhabited

namespace Layout

/-- The warning about a marker that the catalog does not know. -/
def unknownMarker (m : Marker) : Diagnostic :=
  (Diagnostic.warning .unknownMarker
    ("marker " ++ toString m.code.toNat ++ " is not a known sticker")).withSuggestion
    "Check that the sticker is not faded or partly covered"

/-- **Reading a page.** The statements of the known markers, and a warning for each of the
others. -/
def ofMarkers (catalog : Catalog) (markers : List Marker) : Layout × DiagnosticLog :=
  (⟨markers.filterMap fun m => (catalog.get? m.code).map fun t => t.instantiate m⟩,
    .ofList ((markers.filter fun m => (catalog.get? m.code).isNone).map unknownMarker))

/-- How many statements there are. -/
def size (l : Layout) : Nat := l.statements.length

/-- The statement of a number. -/
def get? (l : Layout) (id : Nat) : Option Statement := l.statements[id]?

/-- The statements with their numbers. -/
def numbered (l : Layout) : List (Statement × Nat) := l.statements.zipIdx

/-- Changes the statement of a number. -/
def modify (l : Layout) (id : Nat) (f : Statement → Statement) : Layout :=
  ⟨l.statements.modify id f⟩

/-- How many statements begin a program. -/
def startCount (l : Layout) : Nat := l.statements.countP fun s => s.kind.isStart

/-- Whether exactly one statement begins a program. -/
def hasStart (l : Layout) : Bool := l.startCount = 1

/-- The statement that begins the program, if there is exactly one. -/
def start? (l : Layout) : Option Nat :=
  if l.hasStart then l.statements.findIdx? fun s => s.kind.isStart else none

/-- Whether some statement is of a kind. -/
def containsKind (l : Layout) (kind : StatementKind) : Bool :=
  l.statements.any fun s => s.kind = kind

/-- Marks a statement as part of the program. -/
def markCompiled (l : Layout) (id : Nat) : Layout :=
  l.modify id fun s => { s with isCompiled := true }

/-- Marks a statement whose outgoing connector leads nowhere. -/
def markDangling (l : Layout) (id : Nat) : Layout :=
  l.modify id fun s => { s with isDangling := true }

/-- Takes all marks away. -/
def clearMarks (l : Layout) : Layout := ⟨l.statements.map Statement.clearMarks⟩

/-- Takes all connections away. -/
def clearTargets (l : Layout) : Layout := ⟨l.statements.map Statement.clearTargets⟩

/-- Takes all marks and connections away. -/
def reset (l : Layout) : Layout := l.clearMarks.clearTargets

/-- Lets a connector of a statement lead to a statement, or nowhere. -/
def setTarget (l : Layout) (id index : Nat) (target : Option Nat) : Layout :=
  l.modify id fun s =>
    { s with connectors := s.connectors.modify index fun c => { c with target := target } }

/-- Changing a statement changes that statement. -/
theorem get?_modify_self (l : Layout) (id : Nat) (f : Statement → Statement) :
    (l.modify id f).get? id = (l.get? id).map f := by
  simp [modify, get?]

/-- Changing a statement changes no other. -/
theorem get?_modify_of_ne (l : Layout) {id other : Nat} (f : Statement → Statement)
    (h : id ≠ other) : (l.modify id f).get? other = l.get? other := by
  simp [modify, get?, h]

end Layout

end StickerBot
