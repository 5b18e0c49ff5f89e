import Mathlib.Data.List.Basic
import Mathlib.Data.List.TakeWhile
import Mathlib.Algebra.Group.Nat.Defs
import StickerBot.Listing.Lexer
set_option autoImplicit false

/-!
# Octets, lines and columns

A place in a text can be given in two ways: by the octets before it, or by its line and its column
on that line. The line is one more than the line breaks before the place, and the column one more
than the octets since the last of them. The lexer counts both along as it reads.

An extent is a piece of a text, given by the octets before it and its own, and has a span. If the
extent runs over the end of a line, its span is of no line; else the span lies on the line of the
extent, and cuts the extent out of that line.

## Main definitions

* `Listing.octets` — the octets of characters.
* `Listing.currentLine`, `Listing.lineOf`, `Listing.excerpt` — lines, and what stands in a span.
* `Listing.Position.behind` — the line and column behind octets.
* `Listing.Extent`, `Listing.Extent.span` — pieces of a text, and their spans.
* `Listing.Extent.IsAt` — a span lies on the line of an extent.

## Main results

* `Listing.octets_toList` — the octets of a text are those of its encoding.
* `Listing.Position.behind_octets` — the lexer counts lines and columns.
* `Listing.Extent.isAt_span_iff` — which extents have a span on their line.
* `Listing.Extent.span_endsBefore` — spans stand in the order of their extents.
-/

namespace StickerBot.Listing

/-! ### Octets -/

/-- The octets of characters. -/
def octets (cs : List Char) : List UInt8 := cs.flatMap String.utf8EncodeChar

/-- A text without characters has no octets. -/
@[simp] lemma octets_nil : octets [] = [] := rfl

/-- The octets of the first character come first. -/
@[simp] lemma octets_cons (c : Char) (cs : List Char) :
    octets (c :: cs) = String.utf8EncodeChar c ++ octets cs := List.flatMap_cons

/-- The octets of a text come before those of a text that is appended to it. -/
@[simp] lemma octets_append (cs ds : List Char) : octets (cs ++ ds) = octets cs ++ octets ds :=
  List.flatMap_append

/-- **Encoding.** The octets of a text are those of its encoding. -/
theorem octets_toList (text : String) : octets text.toList = text.toUTF8.data.toList := by
  conv => rhs; rw [← String.ofList_toList (s := text)]
  exact List.toList_data_toByteArray.symm

/-- The octet that ends a line. -/
def lineBreak : UInt8 := 10

/-- A line break is one octet. -/
@[simp] lemma utf8EncodeChar_newline : String.utf8EncodeChar '\n' = [lineBreak] := rfl

/-- Only the end of a line has its octet.

**Proof sketch.** By the length of the encoding: the octets of a longer one are all large. -/
lemma lineBreak_not_mem {c : Char} (h : c ≠ '\n') : lineBreak ∉ String.utf8EncodeChar c := by
  have hval : c.val.toNat ≠ 10 := fun hc => h (Char.ext (UInt32.toNat_inj.1 hc))
  have hother : ∀ n, n < 256 → n ≠ 10 → lineBreak ≠ UInt8.ofNat n := by
    intro n hn hne heq
    have hsame := congrArg UInt8.toNat heq
    rw [UInt8.toNat_ofNat_of_lt' hn] at hsame
    exact hne hsame.symm
  rw [String.utf8EncodeChar.eq_1]
  split_ifs <;> simp only [List.mem_cons, List.not_mem_nil, or_false, not_or]
  · exact hother _ (by omega) hval
  · exact ⟨hother _ (by omega) (by omega), hother _ (by omega) (by omega)⟩
  · exact ⟨hother _ (by omega) (by omega), hother _ (by omega) (by omega),
      hother _ (by omega) (by omega)⟩
  · exact ⟨hother _ (by omega) (by omega), hother _ (by omega) (by omega),
      hother _ (by omega) (by omega), hother _ (by omega) (by omega)⟩

/-- The octets of a text hold the octet of a line break exactly if the text holds a line break, for
no other character has this octet. -/
lemma lineBreak_mem_octets_iff {cs : List Char} : lineBreak ∈ octets cs ↔ '\n' ∈ cs := by
  rw [octets, List.mem_flatMap]
  constructor
  · rintro ⟨c, hc, hmem⟩
    by_cases h : c = '\n'
    · exact h ▸ hc
    · exact absurd hmem (lineBreak_not_mem h)
  · exact fun h => ⟨'\n', h, List.mem_singleton_self lineBreak⟩

/-- Octets that end lines belong to characters that end lines. -/
lemma count_octets (cs : List Char) : (octets cs).count lineBreak = cs.count '\n' := by
  induction cs with
  | nil => rfl
  | cons c cs ih =>
    rw [octets_cons, List.count_append, ih]
    by_cases hc : c = '\n'
    · rw [hc, utf8EncodeChar_newline, List.count_cons_self, List.count_cons_self, List.count_nil,
        Nat.zero_add, Nat.add_comm]
    · rw [List.count_cons_of_ne hc, List.count_eq_zero.2 (lineBreak_not_mem hc), Nat.zero_add]

/-! ### Lines -/

/-- The octets since the last line break. -/
def currentLine (bs : List UInt8) : List UInt8 :=
  (bs.reverse.takeWhile fun b => b ≠ lineBreak).reverse

/-- The octets up to the first line break, and with it. -/
def firstLine (bs : List UInt8) : List UInt8 :=
  (bs.takeWhile fun b => b ≠ lineBreak) ++ (bs.dropWhile fun b => b ≠ lineBreak).take 1

/-- The octets after the first line break. -/
def otherLines (bs : List UInt8) : List UInt8 := (bs.dropWhile fun b => b ≠ lineBreak).drop 1

/-- **Lines.** The octets of the line with a number, counted from one, with the line break that ends
it. -/
def lineOf (bs : List UInt8) : Nat → List UInt8
  | 0 => []
  | 1 => firstLine bs
  | n + 2 => lineOf (otherLines bs) (n + 1)

/-- **Excerpts.** The octets of the line of a span in the columns of the span. -/
def excerpt (bs : List UInt8) (s : Span) : List UInt8 :=
  ((lineOf bs s.line).drop (s.column - 1)).take (s.endColumn - s.column)

section Lines

variable {bs cs : List UInt8}

/-- Octets without a line break lengthen the line on which they begin. -/
lemma currentLine_append_of_not_mem (bs : List UInt8) (h : lineBreak ∉ cs) :
    currentLine (bs ++ cs) = currentLine bs ++ cs := by
  have hall : ∀ b ∈ cs.reverse, decide (b ≠ lineBreak) = true := fun b hb =>
    decide_eq_true fun heq => h (heq ▸ List.mem_reverse.1 hb)
  rw [currentLine, List.reverse_append, List.takeWhile_append_of_pos hall, List.reverse_append,
    List.reverse_reverse, currentLine]

/-- Where there was no line break yet all octets are on the line. -/
lemma currentLine_of_not_mem (h : lineBreak ∉ bs) : currentLine bs = bs :=
  currentLine_append_of_not_mem [] h

/-- Behind a line break nothing is on the line yet. -/
lemma currentLine_break (bs : List UInt8) : currentLine (bs ++ [lineBreak]) = [] := by
  simp [currentLine]

/-- What comes before a line break does not count. -/
lemma currentLine_cons_of_mem (b : UInt8) (h : lineBreak ∈ bs) :
    currentLine (b :: bs) = currentLine bs := by
  rw [currentLine, List.reverse_cons, List.takeWhile_append, if_neg, currentLine]
  intro hlength
  have hall := (List.takeWhile_prefix _).eq_of_length hlength
  rw [← List.mem_reverse, ← hall] at h
  simpa using List.mem_takeWhile_imp h

/-- A line break in front of octets ends a line before them, so what is on their last line stays. -/
lemma currentLine_cons_break (bs : List UInt8) :
    currentLine (lineBreak :: bs) = currentLine bs := by
  by_cases h : lineBreak ∈ bs
  · exact currentLine_cons_of_mem lineBreak h
  · have hcons := currentLine_append_of_not_mem [lineBreak] h
    rw [currentLine_of_not_mem h]
    exact hcons

/-- An octet that ends no line stands on the line of the next one. -/
lemma lineOf_cons {b : UInt8} (hb : b ≠ lineBreak) (bs : List UInt8) (n : Nat) :
    lineOf (b :: bs) (n + 1) = if n = 0 then b :: lineOf bs 1 else lineOf bs (n + 1) := by
  cases n with
  | zero => simp [lineOf, firstLine, hb]
  | succ n => simp [lineOf, otherLines, hb]

/-- After a line break the next line begins. -/
lemma lineOf_cons_break (bs : List UInt8) (n : Nat) :
    lineOf (lineBreak :: bs) (n + 2) = lineOf bs (n + 1) := by
  simp [lineOf, otherLines]

/-- **The line of a place**: the octets since the last line break, and those up to the next one.

**Proof sketch.** Induction on the octets before the place. -/
lemma lineOf_count (before rest : List UInt8) :
    lineOf (before ++ rest) (before.count lineBreak + 1) =
      currentLine before ++ firstLine rest := by
  induction before with
  | nil => rfl
  | cons b before ih =>
    by_cases hb : b = lineBreak
    · subst hb
      rw [currentLine_cons_break, List.count_cons_self, List.cons_append, lineOf_cons_break, ih]
    · rw [List.count_cons_of_ne hb, List.cons_append, lineOf_cons hb]
      by_cases hmem : lineBreak ∈ before
      · have hcount : before.count lineBreak ≠ 0 :=
          Nat.pos_iff_ne_zero.1 (List.count_pos_iff.2 hmem)
        rw [if_neg hcount, ih, currentLine_cons_of_mem b hmem]
      · have hcount : before.count lineBreak = 0 := List.count_eq_zero.2 hmem
        have hcons : lineBreak ∉ b :: before := by simp [hmem, Ne.symm hb]
        rw [hcount] at ih
        rw [if_pos hcount, ih, currentLine_of_not_mem hmem, currentLine_of_not_mem hcons,
          List.cons_append]

end Lines

/-! ### Places -/

namespace Position

/-- **Places.** The line and the column behind octets. -/
def behind (bs : List UInt8) : Position :=
  ⟨1 + bs.count lineBreak, 1 + (currentLine bs).length⟩

section Behind

variable (bs : List UInt8) {cs : List UInt8}

/-- Before the first octet. -/
@[simp] lemma behind_nil : behind [] = start := rfl

/-- Octets without a line break lead as many columns further, on the same line. -/
lemma behind_append_of_not_mem (h : lineBreak ∉ cs) :
    behind (bs ++ cs) = (behind bs).advance cs.length := by
  simp only [behind, advance, currentLine_append_of_not_mem bs h, List.count_append,
    List.count_eq_zero.2 h, List.length_append]
  rw [Nat.add_zero, Nat.add_assoc]

/-- A line break leads to the first column of the next line. -/
lemma behind_append_break : behind (bs ++ [lineBreak]) = ⟨(behind bs).line + 1, 1⟩ := by
  simp [behind, currentLine_break, Nat.add_assoc]

/-- Behind one more character. -/
lemma behind_append_char (c : Char) :
    behind (bs ++ String.utf8EncodeChar c) = (behind bs).after c := by
  unfold after
  split
  · rename_i h
    rw [h, utf8EncodeChar_newline, behind_append_break]
  · rename_i h
    rw [behind_append_of_not_mem bs (lineBreak_not_mem h), String.length_utf8EncodeChar]

/-- **Counting along.** Going over characters the lexer comes to the place behind their octets. -/
theorem behind_octets (cs : List Char) :
    ∀ bs : List UInt8, behind (bs ++ octets cs) = (behind bs).afterAll cs := by
  induction cs with
  | nil => intro bs; rw [octets_nil, List.append_nil]; rfl
  | cons c cs ih =>
    intro bs
    rw [octets_cons, ← List.append_assoc, ih, behind_append_char]
    rfl

/-- A line break leads to a later line. -/
lemma line_behind_lt (h : lineBreak ∈ cs) : (behind bs).line < (behind (bs ++ cs)).line := by
  have hcount := List.count_pos_iff.2 h
  simp only [behind, List.count_append]
  omega

end Behind

/-- A place on an earlier line, or not further on the same line. -/
def IsUpTo (p q : Position) : Prop := p.line < q.line ∨ p.line = q.line ∧ p.column ≤ q.column

/-- A place up to another one is on the same line or on one before. -/
lemma IsUpTo.line_le {p q : Position} (h : p.IsUpTo q) : p.line ≤ q.line := by
  unfold IsUpTo at h
  omega

/-- More octets lead further. -/
lemma behind_isUpTo {bs cs : List UInt8} (h : bs <+: cs) : (behind bs).IsUpTo (behind cs) := by
  obtain ⟨more, rfl⟩ := h
  by_cases hmem : lineBreak ∈ more
  · exact .inl (line_behind_lt bs hmem)
  · rw [behind_append_of_not_mem bs hmem]
    exact .inr ⟨rfl, Nat.le_add_right ..⟩

end Position

/-! ### Extents -/

/-- **Extents.** A piece of a text. -/
structure Extent where
  /-- The octets of the text before the piece. -/
  before : List UInt8
  /-- The octets of the piece. -/
  inside : List UInt8

namespace Extent

variable {s t : Extent} {bs : List UInt8}

/-- The octets up to the end of an extent. -/
def upTo (s : Extent) : List UInt8 := s.before ++ s.inside

/-- An extent of a text. -/
def IsIn (s : Extent) (bs : List UInt8) : Prop := s.upTo <+: bs

/-- An extent that ends before another begins. -/
def Precedes (s t : Extent) : Prop := s.upTo <+: t.before

/-- **Running over.** An extent that goes on after the end of its line. -/
def RunsOver (s : Extent) : Prop := lineBreak ∈ s.inside ∧ s.inside ≠ [lineBreak]

/-- **The span of an extent.** From the column where it begins to the column where it ends, on the
line where it ends; but the end of a line is the last column of its own line. -/
def span (s : Extent) : Span :=
  if s.inside = [lineBreak] then
    ⟨(Position.behind s.before).line, (Position.behind s.before).column,
      (Position.behind s.before).column + 1⟩
  else (Position.behind s.upTo).spanFrom (Position.behind s.before).column

/-- **Standing on a line.** A span lies within the line on which an extent of a text begins, and
cuts the extent out of it. -/
structure IsAt (s : Extent) (bs : List UInt8) (a : Span) : Prop where
  /-- The line is one more than the line breaks before the extent. -/
  line : a.line = 1 + s.before.count lineBreak
  one_le_column : 1 ≤ a.column
  column_le : a.column ≤ a.endColumn
  /-- The last column belongs to the line. The line break counts as one column. -/
  endColumn_le : a.endColumn ≤ (lineOf bs a.line).length + 1
  excerpt : excerpt bs a = s.inside

/-- An extent that is not just a line break has the span from the column where it begins to the
column where it ends. -/
lemma span_of_ne (h : s.inside ≠ [lineBreak]) :
    (Position.behind s.upTo).spanFrom (Position.behind s.before).column = s.span :=
  (if_neg h).symm

/-- The columns of an extent that does not run over. -/
lemma span_of_not_runsOver (h : ¬ s.RunsOver) :
    s.span = ⟨1 + s.before.count lineBreak, 1 + (currentLine s.before).length,
      1 + (currentLine s.before).length + s.inside.length⟩ := by
  by_cases hbreak : s.inside = [lineBreak]
  · rw [span, if_pos hbreak, hbreak]
    rfl
  · have hmem : lineBreak ∉ s.inside := fun hmem => h ⟨hmem, hbreak⟩
    rw [← span_of_ne hbreak, upTo, Position.behind_append_of_not_mem s.before hmem]
    rfl

/-- The span of an extent begins at the column behind the octets before the extent, on whichever
line it ends. -/
lemma column_span (s : Extent) : s.span.column = (Position.behind s.before).column := by
  unfold span
  split <;> rfl

/-- The span of an extent is on no line before the one on which it begins. -/
lemma line_le_span (s : Extent) : (Position.behind s.before).line ≤ s.span.line := by
  unfold span
  split
  · exact Nat.le_refl _
  · exact (Position.behind_isUpTo (List.prefix_append ..)).line_le

/-- What follows an extent is not before the end of its span. -/
lemma span_isUpTo (s : Extent) :
    Position.IsUpTo ⟨s.span.line, s.span.endColumn⟩ (Position.behind s.upTo) := by
  unfold span
  split
  · rename_i h
    rw [upTo, h, Position.behind_append_break]
    exact .inl (Nat.lt_succ_self _)
  · exact .inr ⟨rfl, Nat.le_refl _⟩

/-- The line on which an extent begins goes on at least as far as an extent that does not run
over. -/
lemma exists_lineOf (hs : s.IsIn bs) (h : ¬ s.RunsOver) : ∃ more,
    lineOf bs (1 + s.before.count lineBreak) = currentLine s.before ++ (s.inside ++ more) := by
  obtain ⟨rest, rfl⟩ := hs
  rw [upTo, List.append_assoc, Nat.add_comm, lineOf_count]
  by_cases hbreak : s.inside = [lineBreak]
  · exact ⟨[], by rw [hbreak]; simp [firstLine]⟩
  · have hmem : lineBreak ∉ s.inside := fun hmem => h ⟨hmem, hbreak⟩
    have hall : ∀ b ∈ s.inside, decide (b ≠ lineBreak) = true := fun b hb =>
      decide_eq_true fun heq => hmem (heq ▸ hb)
    refine ⟨firstLine rest, ?_⟩
    rw [firstLine, List.takeWhile_append_of_pos hall, List.dropWhile_append_of_pos hall,
      List.append_assoc, firstLine]

/-- **Spans and lines.** The span of an extent stands on its line exactly if the extent does not run
over. -/
theorem isAt_span_iff (hs : s.IsIn bs) : s.IsAt bs s.span ↔ ¬ s.RunsOver := by
  constructor
  · intro h ⟨hmem, hbreak⟩
    have hlater := Position.line_behind_lt s.before hmem
    have hline := h.line
    rw [← span_of_ne hbreak] at hline
    exact absurd hline (Nat.ne_of_gt hlater)
  · intro h
    obtain ⟨more, hlineOf⟩ := exists_lineOf hs h
    rw [span_of_not_runsOver h]
    refine ⟨rfl, Nat.le_add_right .., Nat.le_add_right .., ?_, ?_⟩
    · simp only [hlineOf, List.length_append]
      omega
    · simp only [Listing.excerpt, hlineOf, Nat.add_sub_cancel_left, List.drop_left,
        List.take_left]

end Extent

/-! ### The order of spans -/

/-- A span that ends before another begins, on the same line or on an earlier one. -/
def EndsBefore (a b : Span) : Prop := Position.IsUpTo ⟨a.line, a.endColumn⟩ ⟨b.line, b.column⟩

/-- A span over a place. -/
def Covers (a : Span) (p : Position) : Prop :=
  a.line = p.line ∧ a.column ≤ p.column ∧ p.column < a.endColumn

/-- What is up to a place is up to all places to which this one is up. -/
lemma Position.IsUpTo.trans {p q r : Position} (h : p.IsUpTo q) (h' : q.IsUpTo r) :
    p.IsUpTo r := by
  unfold IsUpTo at *
  omega

namespace Extent

variable {s t : Extent}

/-- **The order of spans** is that of their extents, whether these run over or not. -/
theorem span_endsBefore (h : s.Precedes t) : EndsBefore s.span t.span := by
  have hbegin : Position.IsUpTo (Position.behind t.before) ⟨t.span.line, t.span.column⟩ := by
    rw [column_span]
    exact (Nat.lt_or_eq_of_le (line_le_span t)).imp id fun heq => ⟨heq, Nat.le_refl _⟩
  exact ((span_isUpTo s).trans (Position.behind_isUpTo h)).trans hbegin

/-- The span of an extent that does not run over is over the place of each of its octets. -/
lemma span_covers (h : ¬ s.RunsOver) {part more : List UInt8} {b : UInt8}
    (hpart : s.inside = part ++ b :: more) :
    Covers s.span (Position.behind (s.before ++ part)) := by
  have hmem : lineBreak ∉ part := by
    intro hmem
    refine h ⟨by simp [hpart, hmem], fun hbreak => ?_⟩
    have hlength := congrArg List.length (hpart.symm.trans hbreak)
    have hpos := List.length_pos_of_mem hmem
    simp only [List.length_append, List.length_cons, List.length_nil] at hlength
    omega
  rw [span_of_not_runsOver h, Position.behind_append_of_not_mem s.before hmem, hpart]
  refine ⟨rfl, Nat.le_add_right .., ?_⟩
  simp only [Position.behind, Position.advance, List.length_append, List.length_cons]
  omega

end Extent

end StickerBot.Listing
