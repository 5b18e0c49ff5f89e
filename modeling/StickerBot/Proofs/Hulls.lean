import Mathlib.Data.List.Basic
import StickerBot.Span
set_option autoImplicit false

/-!
# Hulls of spans

Of some spans only those on the first of their lines count, and the hull of these goes from the
first column of any to the last column of any. Merging two spans gives their hull, and merging
hulls gives the hull of all. So it does not matter in which order spans are merged, how they are
grouped, or whether one is merged twice: merging is a semilattice.

## Main definitions

* `Span.IsHull` — the hull of spans.
* `Span.Grouping` — one way to merge spans two at a time.

## Main results

* `Span.IsHull.merge` — merging the hulls of spans gives the hull of them all.
* `Span.IsHull.unique` — spans have one hull, whatever their order.
* `Span.merge_semilattice` — merging is a semilattice, and all ways to merge spans give their hull.
-/

namespace StickerBot.Span

/-! ### Hulls -/

/-- **Hulls.** The least line of some spans, and of those on this line the smallest column and the
largest end. -/
structure IsHull (ss : List Span) (m : Span) : Prop where
  line_le : ∀ s ∈ ss, m.line ≤ s.line
  column_le : ∀ s ∈ ss, s.line = m.line → m.column ≤ s.column
  le_endColumn : ∀ s ∈ ss, s.line = m.line → s.endColumn ≤ m.endColumn
  exists_column : ∃ s ∈ ss, s.line = m.line ∧ s.column = m.column
  exists_endColumn : ∃ s ∈ ss, s.line = m.line ∧ s.endColumn = m.endColumn

/-- A span is its own hull. -/
lemma isHull_singleton (s : Span) : IsHull [s] s where
  line_le := List.forall_mem_singleton.2 (Nat.le_refl _)
  column_le := List.forall_mem_singleton.2 fun _ => Nat.le_refl _
  le_endColumn := List.forall_mem_singleton.2 fun _ => Nat.le_refl _
  exists_column := ⟨s, List.mem_singleton_self s, rfl, rfl⟩
  exists_endColumn := ⟨s, List.mem_singleton_self s, rfl, rfl⟩

namespace IsHull

variable {ss ts : List Span} {a b : Span}

/-- Only which spans there are matters, not their order, nor how often each is there. -/
lemma of_mem_iff (h : IsHull ss a) (hmem : ∀ s, s ∈ ss ↔ s ∈ ts) : IsHull ts a := by
  obtain ⟨hline, hcolumn, hend, hleast, hlast⟩ := h
  simp only [hmem] at hline hcolumn hend hleast hlast
  exact ⟨hline, hcolumn, hend, hleast, hlast⟩

/-- Spans on later lines do not count. -/
lemma append_later (h : IsHull ss a) (hlater : ∀ s ∈ ts, a.line < s.line) :
    IsHull (ss ++ ts) a where
  line_le := List.forall_mem_append.2 ⟨h.line_le, fun s hs => Nat.le_of_lt (hlater s hs)⟩
  column_le := List.forall_mem_append.2
    ⟨h.column_le, fun s hs hline => absurd hline (Nat.ne_of_gt (hlater s hs))⟩
  le_endColumn := List.forall_mem_append.2
    ⟨h.le_endColumn, fun s hs hline => absurd hline (Nat.ne_of_gt (hlater s hs))⟩
  exists_column := by
    obtain ⟨s, hs, hcolumn⟩ := h.exists_column
    exact ⟨s, List.mem_append_left ts hs, hcolumn⟩
  exists_endColumn := by
    obtain ⟨s, hs, hend⟩ := h.exists_endColumn
    exact ⟨s, List.mem_append_left ts hs, hend⟩

/-- Spans on the same first line count together. The bounds hold for the spans of both lists, and
that they are reached is shown by the list from which the lesser column or the greater end comes. -/
lemma append_same (ha : IsHull ss a) (hb : IsHull ts b) (hline : a.line = b.line) :
    IsHull (ss ++ ts) ⟨a.line, min a.column b.column, max a.endColumn b.endColumn⟩ where
  line_le := List.forall_mem_append.2 ⟨ha.line_le, fun s hs => hline ▸ hb.line_le s hs⟩
  column_le := List.forall_mem_append.2
    ⟨fun s hs h => Nat.le_trans (Nat.min_le_left ..) (ha.column_le s hs h),
      fun s hs h => Nat.le_trans (Nat.min_le_right ..) (hb.column_le s hs (h.trans hline))⟩
  le_endColumn := List.forall_mem_append.2
    ⟨fun s hs h => Nat.le_trans (ha.le_endColumn s hs h) (Nat.le_max_left ..),
      fun s hs h => Nat.le_trans (hb.le_endColumn s hs (h.trans hline)) (Nat.le_max_right ..)⟩
  exists_column := by
    rcases Nat.le_total a.column b.column with hle | hle
    · obtain ⟨s, hs, h, hcolumn⟩ := ha.exists_column
      exact ⟨s, List.mem_append_left ts hs, h, hcolumn.trans (Nat.min_eq_left hle).symm⟩
    · obtain ⟨s, hs, h, hcolumn⟩ := hb.exists_column
      exact ⟨s, List.mem_append_right ss hs, h.trans hline.symm,
        hcolumn.trans (Nat.min_eq_right hle).symm⟩
  exists_endColumn := by
    rcases Nat.le_total a.endColumn b.endColumn with hle | hle
    · obtain ⟨s, hs, h, hend⟩ := hb.exists_endColumn
      exact ⟨s, List.mem_append_right ss hs, h.trans hline.symm,
        hend.trans (Nat.max_eq_right hle).symm⟩
    · obtain ⟨s, hs, h, hend⟩ := ha.exists_endColumn
      exact ⟨s, List.mem_append_left ts hs, h, hend.trans (Nat.max_eq_left hle).symm⟩

/-- **Merging hulls** gives the hull of all spans. -/
theorem merge (ha : IsHull ss a) (hb : IsHull ts b) : IsHull (ss ++ ts) (a.merge b) := by
  unfold Span.merge
  split
  · exact ha.append_same hb ‹_›
  · split
    · rename_i hlt
      exact ha.append_later fun s hs => Nat.lt_of_lt_of_le hlt (hb.line_le s hs)
    · rename_i hne hnot
      have hlt : b.line < a.line := by omega
      have h := hb.append_later fun s hs => Nat.lt_of_lt_of_le hlt (ha.line_le s hs)
      exact h.of_mem_iff fun s => by rw [List.mem_append, List.mem_append, or_comm]

/-- **One hull.** Spans have one hull, whatever their order and however often each is there. Each of
the two hulls has its line, its first column and its end from a span, and all spans are bounded by
both hulls, so that the two bound one another. -/
theorem unique (ha : IsHull ss a) (hb : IsHull ts b) (hmem : ∀ s, s ∈ ss ↔ s ∈ ts) : a = b := by
  replace ha := ha.of_mem_iff hmem
  obtain ⟨s, hs, hsline, hscolumn⟩ := ha.exists_column
  obtain ⟨t, ht, htline, htcolumn⟩ := hb.exists_column
  obtain ⟨s', hs', hsline', hsend⟩ := ha.exists_endColumn
  obtain ⟨t', ht', htline', htend⟩ := hb.exists_endColumn
  have hline : a.line = b.line := Nat.le_antisymm (htline ▸ ha.line_le t ht)
    (hsline ▸ hb.line_le s hs)
  have hcolumn : a.column = b.column := Nat.le_antisymm
    (htcolumn ▸ ha.column_le t ht (htline.trans hline.symm))
    (hscolumn ▸ hb.column_le s hs (hsline.trans hline))
  have hend : a.endColumn = b.endColumn := Nat.le_antisymm
    (hsend ▸ hb.le_endColumn s' hs' (hsline'.trans hline))
    (htend ▸ ha.le_endColumn t' ht' (htline'.trans hline.symm))
  cases a
  cases b
  simp_all

end IsHull

/-! ### Orders and groupings -/

/-- Merging in the order of a list gives the hull of its spans. -/
lemma isHull_foldl (rest : List Span) : ∀ {ss : List Span} {a : Span}, IsHull ss a →
    IsHull (ss ++ rest) (rest.foldl merge a) := by
  induction rest with
  | nil => intro ss a h; rwa [List.append_nil]
  | cons s rest ih =>
    intro ss a h
    have hall := ih (h.merge (isHull_singleton s))
    rwa [List.append_assoc, List.singleton_append] at hall

/-- **Groupings.** One way to merge spans two at a time. -/
inductive Grouping where
  | one (s : Span)
  | both (g h : Grouping)

namespace Grouping

/-- The spans that are merged, from left to right. -/
def spans : Grouping → List Span
  | one s => [s]
  | both g h => g.spans ++ h.spans

/-- The span that they are merged into. -/
def merged : Grouping → Span
  | one s => s
  | both g h => g.merged.merge h.merged

/-- Merging gives the hull, however the spans are grouped. -/
theorem isHull_merged (g : Grouping) : IsHull g.spans g.merged := by
  induction g with
  | one s => exact isHull_singleton s
  | both g h ihg ihh => exact ihg.merge ihh

/-- So all groupings of the same spans are merged into the same span. -/
lemma merged_congr {g h : Grouping} (hmem : ∀ s, s ∈ g.spans ↔ s ∈ h.spans) :
    g.merged = h.merged :=
  g.isHull_merged.unique h.isHull_merged hmem

end Grouping

open Grouping in
/-- **Merging is a semilattice**: it is commutative, associative and idempotent. So a list of spans
that is not empty is merged into the same span in any order and by any grouping: the smallest
column and the largest end of the spans on the least line. -/
theorem merge_semilattice :
    (∀ a b : Span, a.merge b = b.merge a) ∧
    (∀ a b c : Span, (a.merge b).merge c = a.merge (b.merge c)) ∧
    (∀ a : Span, a.merge a = a) ∧
    ∀ (first : Span) (rest : List Span),
      IsHull (first :: rest) (rest.foldl merge first) ∧
      (∀ m, IsHull (first :: rest) m → m = rest.foldl merge first) ∧
      ∀ g : Grouping, g.spans.Perm (first :: rest) → g.merged = rest.foldl merge first := by
  refine ⟨fun a b => ?_, fun a b c => ?_, merge_self, fun first rest => ?_⟩
  · exact merged_congr (g := .both (.one a) (.one b)) (h := .both (.one b) (.one a))
      fun s => by simp [spans, or_comm]
  · exact merged_congr (g := .both (.both (.one a) (.one b)) (.one c))
      (h := .both (.one a) (.both (.one b) (.one c))) fun s => by simp [spans]
  · have hfold : IsHull (first :: rest) (rest.foldl merge first) :=
      isHull_foldl rest (isHull_singleton first)
    exact ⟨hfold, fun m hm => hm.unique hfold fun _ => Iff.rfl, fun g hg =>
      g.isHull_merged.unique hfold fun _ => hg.mem_iff⟩

/-- Three spans, of which one is on a later line, merged from the right and out of order. -/
theorem merge_semilattice_threeSpans :
    ([⟨2, 7, 9⟩, ⟨3, 1, 20⟩, ⟨2, 4, 8⟩] : List Span).Perm [⟨3, 1, 20⟩, ⟨2, 4, 8⟩, ⟨2, 7, 9⟩] ∧
    IsHull [⟨3, 1, 20⟩, ⟨2, 4, 8⟩, ⟨2, 7, 9⟩] ⟨2, 4, 9⟩ ∧
    (Grouping.both (.one ⟨2, 7, 9⟩) (.both (.one ⟨3, 1, 20⟩) (.one ⟨2, 4, 8⟩))).merged =
      ⟨2, 4, 9⟩ := by
  have hperm : ([⟨2, 7, 9⟩, ⟨3, 1, 20⟩, ⟨2, 4, 8⟩] : List Span).Perm
      [⟨3, 1, 20⟩, ⟨2, 4, 8⟩, ⟨2, 7, 9⟩] := by decide
  obtain ⟨-, -, -, hfold⟩ := merge_semilattice
  obtain ⟨hhull, -, hgroup⟩ := hfold ⟨3, 1, 20⟩ [⟨2, 4, 8⟩, ⟨2, 7, 9⟩]
  exact ⟨hperm, hhull, hgroup (.both (.one ⟨2, 7, 9⟩) (.both (.one ⟨3, 1, 20⟩) (.one ⟨2, 4, 8⟩)))
    hperm⟩

end StickerBot.Span
