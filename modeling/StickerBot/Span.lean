set_option autoImplicit false

/-!
# Spans: places in a listing

A listing is read line by line, so a place in it is a line and a range of columns on that
line. Lines and columns count from one, and a column counts the octets of the text.

## Main definitions

* `Span` — a line, a first column, and the column after the last.
* `Span.merge` — the span that covers two spans of one line; of two lines the earlier wins.
* `SourceLines` — the lines of a text, looked up by number.

## Main results

* `Span.merge_self` — merging a span with itself changes nothing.

## Design

Lines and columns are natural numbers, so they are right for texts of any length. Counted in words
of 32 bits, as in a record that stores them, they are the same for every text of less than
`2 ^ 32 - 1` octets.
-/

namespace StickerBot

/-- **A span.** A range of columns on one line of a listing. Its numbers have no bound; for texts of
less than `2 ^ 32 - 1` octets they fit in words of 32 bits. -/
structure Span where
  /-- The line, counted from one. -/
  line : Nat
  /-- The first column, counted from one. -/
  column : Nat
  /-- The column after the last one. -/
  endColumn : Nat
deriving DecidableEq, Repr, Inhabited

namespace Span

/-- The empty span at one position. -/
def point (line column : Nat) : Span := ⟨line, column, column⟩

/-- **Merging.** On one line, the smallest span that covers both; across lines, the span on
the earlier line. -/
def merge (a b : Span) : Span :=
  if a.line = b.line then
    ⟨a.line, min a.column b.column, max a.endColumn b.endColumn⟩
  else if a.line < b.line then a
  else b

/-- The text of a position, `line:column`. -/
def render (s : Span) : String := s!"{s.line}:{s.column}"

/-- Merging is idempotent. -/
@[simp] theorem merge_self (a : Span) : a.merge a = a := by
  simp [merge]

end Span

/-- **The lines of a text.** Line breaks separate them, so every text has at least one. -/
structure SourceLines where
  /-- The lines in order, each without its line break. -/
  lines : List (List Char)
deriving DecidableEq, Repr

namespace SourceLines

/-- Puts one more character in front of a text that is already split into lines. -/
def prepend (c : Char) (lines : List (List Char)) : List (List Char) :=
  if c = '\n' then [] :: lines
  else
    match lines with
    | [] => [[c]]
    | l :: ls => (c :: l) :: ls

/-- The pieces of a text between its line breaks. -/
def split (text : List Char) : List (List Char) := text.foldr prepend [[]]

/-- The lines of a text. -/
def ofText (text : String) : SourceLines := ⟨split text.toList⟩

/-- A line without the carriage returns at its end. -/
def trimReturns (line : List Char) : List Char :=
  (line.reverse.dropWhile (· = '\r')).reverse

/-- The line with a given number, counted from one, without its terminator. -/
def line? (s : SourceLines) : Nat → Option String
  | 0 => none
  | n + 1 => (s.lines[n]?).map fun l => String.ofList (trimReturns l)

/-- How many lines there are. -/
def count (s : SourceLines) : Nat := s.lines.length

end SourceLines

end StickerBot
