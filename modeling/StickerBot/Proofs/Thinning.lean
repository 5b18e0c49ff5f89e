import Mathlib.Tactic.NthRewrite
import StickerBot.Proofs.Links
set_option autoImplicit false

/-!
# Taking remarks out of a program

When instructions are taken out of a program those behind them move to the front, and with them the
braces that are linked. If only remarks are taken out nothing else changes: the headers that are
open at a place are the same ones, moved, and so are the partners of all braces, also where braces
have none.

## Main definitions

* `kept` — what is left of instructions.
* `movedTo` — where a place is then.
* `OnlyRemarks` — only remarks are taken out.

## Main results

* `getElem?_kept` — an instruction that is kept stands at the place that its place moves to.
* `openAt_kept` — the headers that are open move with the places.
* `partner?_kept` — links move with the places.
-/

namespace StickerBot

/-- **What is kept** of instructions when those at some places are taken out. -/
def kept (out : Nat → Bool) (is : List Instruction) : List Instruction :=
  (is.zipIdx.filter fun x => !out x.2).map Prod.fst

/-- **Moved places.** As many places are before a place as were kept there. -/
def movedTo (out : Nat → Bool) (place : Nat) : Nat := (List.range place).countP fun k => !out k

/-- **Only remarks** are taken out. -/
def OnlyRemarks (out : Nat → Bool) (is : List Instruction) : Prop :=
  ∀ place, out place = true → ∃ i, is[place]? = some i ∧ i.isRemark = true

variable {out : Nat → Bool} {is : List Instruction} {place : Nat}

/-! ### Places -/

/-- Behind a place that is taken out is where the place was. -/
lemma movedTo_succ_of_out (h : out place = true) :
    movedTo out (place + 1) = movedTo out place := by
  simp [movedTo, List.range_succ, h]

/-- Behind a place that is kept is the place behind it. -/
lemma movedTo_succ_of_kept (h : out place = false) :
    movedTo out (place + 1) = movedTo out place + 1 := by
  simp [movedTo, List.range_succ, h]

/-- Places keep their order. -/
lemma movedTo_mono (out : Nat → Bool) {i j : Nat} (h : i ≤ j) :
    movedTo out i ≤ movedTo out j :=
  (List.range_sublist.2 h).countP_le

/-- A place that is kept stays before what was behind it. -/
lemma movedTo_lt_movedTo {i j : Nat} (hi : out i = false) (h : i < j) :
    movedTo out i < movedTo out j := by
  have hnext := movedTo_mono out h
  rw [Nat.succ_eq_add_one, movedTo_succ_of_kept hi] at hnext
  exact hnext

/-- Different places that are kept do not come together. -/
lemma eq_of_movedTo_eq {i j : Nat} (hi : out i = false) (hj : out j = false)
    (h : movedTo out i = movedTo out j) : i = j := by
  rcases Nat.lt_trichotomy i j with hlt | heq | hlt
  · exact absurd h (Nat.ne_of_lt (movedTo_lt_movedTo hi hlt))
  · exact heq
  · exact absurd h.symm (Nat.ne_of_lt (movedTo_lt_movedTo hj hlt))

/-- Every place up to where a place moves is one that a kept place moves to. -/
lemma exists_kept_of_lt_movedTo {moved : Nat} (h : moved < movedTo out place) :
    ∃ k < place, out k = false ∧ movedTo out k = moved := by
  induction place with
  | zero => exact absurd h (Nat.not_lt_zero moved)
  | succ place ih =>
    cases hout : out place with
    | true =>
      rw [movedTo_succ_of_out hout] at h
      obtain ⟨k, hk, hfound⟩ := ih h
      exact ⟨k, Nat.lt_succ_of_lt hk, hfound⟩
    | false =>
      rw [movedTo_succ_of_kept hout] at h
      rcases Nat.lt_succ_iff_lt_or_eq.1 h with hlt | rfl
      · obtain ⟨k, hk, hfound⟩ := ih hlt
        exact ⟨k, Nat.lt_succ_of_lt hk, hfound⟩
      · exact ⟨place, Nat.lt_succ_self place, hout, rfl⟩

/-! ### Instructions -/

/-- What is kept of a last instruction. -/
lemma kept_concat (out : Nat → Bool) (is : List Instruction) (i : Instruction) :
    kept out (is ++ [i]) = kept out is ++ if out is.length then [] else [i] := by
  cases h : out is.length <;> simp [kept, List.zipIdx_append, h]

/-- What is kept of the first instructions is the beginning of what is kept. -/
lemma kept_take_prefix (out : Nat → Bool) (is : List Instruction) (k : Nat) :
    kept out (is.take k) <+: kept out is := by
  have hsplit := List.take_append_drop k is
  unfold kept
  nth_rewrite 2 [← hsplit]
  rw [List.zipIdx_append, List.filter_append, List.map_append]
  exact List.prefix_append _ _

/-- So many of the first instructions are kept. -/
lemma length_kept_take (out : Nat → Bool) (is : List Instruction) :
    ∀ k ≤ is.length, (kept out (is.take k)).length = movedTo out k := by
  intro k
  induction k with
  | zero => exact fun _ => rfl
  | succ k ih =>
    intro hk
    have hlength : (is.take k).length = k := List.length_take_of_le (Nat.le_of_succ_le hk)
    rw [List.take_add_one, List.getElem?_eq_getElem hk, Option.toList_some, kept_concat,
      List.length_append, ih (Nat.le_of_succ_le hk), hlength]
    cases hout : out k with
    | true => rw [movedTo_succ_of_out hout]; rfl
    | false => rw [movedTo_succ_of_kept hout]; rfl

/-- So many instructions are kept. -/
lemma length_kept (out : Nat → Bool) (is : List Instruction) :
    (kept out is).length = movedTo out is.length := by
  rw [← length_kept_take out is is.length (Nat.le_refl _), List.take_length]

/-- **Kept instructions** stand where their places move to. -/
theorem getElem?_kept (is : List Instruction) (h : out place = false) :
    (kept out is)[movedTo out place]? = is[place]? := by
  by_cases hlt : place < is.length
  · have hlength := length_kept_take out is place (Nat.le_of_lt hlt)
    have htake : (is.take place).length = place := List.length_take_of_le (Nat.le_of_lt hlt)
    obtain ⟨rest, hrest⟩ := kept_take_prefix out is (place + 1)
    rw [List.take_add_one, List.getElem?_eq_getElem hlt, Option.toList_some, kept_concat, htake, h,
      if_neg Bool.false_ne_true] at hrest
    rw [← hrest, List.append_assoc, ← hlength, List.getElem?_append_right (Nat.le_refl _),
      Nat.sub_self, List.getElem?_eq_getElem hlt]
    rfl
  · have hend : (kept out is).length ≤ movedTo out place := by
      rw [length_kept]
      exact movedTo_mono out (Nat.not_lt.1 hlt)
    rw [List.getElem?_eq_none hend, List.getElem?_eq_none (Nat.not_lt.1 hlt)]

/-- Where an instruction stands that was kept, a kept place moved to. -/
lemma exists_of_getElem?_kept {moved : Nat} {i : Instruction} (h : (kept out is)[moved]? = some i) :
    ∃ k, out k = false ∧ movedTo out k = moved ∧ is[k]? = some i := by
  obtain ⟨hlt, -⟩ := List.getElem?_eq_some_iff.1 h
  rw [length_kept] at hlt
  obtain ⟨k, -, hkept, rfl⟩ := exists_kept_of_lt_movedTo hlt
  exact ⟨k, hkept, rfl, by rw [← h, getElem?_kept is hkept]⟩

/-! ### Braces -/

namespace OnlyRemarks

variable (h : OnlyRemarks out is)
include h

/-- What is no remark is kept. -/
lemma out_eq_false {i : Instruction} (hi : is[place]? = some i) (hremark : i.isRemark = false) :
    out place = false := by
  cases hout : out place with
  | false => rfl
  | true =>
    obtain ⟨j, hj, hjremark⟩ := h place hout
    obtain rfl := Option.some.inj (hi.symm.trans hj)
    exact absurd hremark (by simp [hjremark])

/-- The headers that are open move with the places. By induction on the place. A place that is left
out holds a remark, which neither opens nor closes anything; and a place that is kept holds the same
instruction in both programs. -/
theorem openAt_kept (place : Nat) :
    openAt (kept out is) (movedTo out place) = (openAt is place).map (movedTo out) := by
  induction place with
  | zero => rfl
  | succ place ih =>
    cases hout : out place with
    | true =>
      obtain ⟨i, hi, hremark⟩ := h place hout
      rw [movedTo_succ_of_out hout, ih, openAt_succ hi]
      cases i with
      | trace point => rfl
      | print text => rfl
      | _ => exact absurd hremark (by simp [Instruction.isRemark])
    | false =>
      rw [movedTo_succ_of_kept hout, openAt, openAt, getElem?_kept is hout, ih]
      cases is[place]? with
      | none => rfl
      | some i =>
        cases i with
        | close => simp [Instruction.openedAfter, List.map_tail]
        | _ => rfl

/-- A brace closes, moved, what it closed. -/
lemma closes_kept_iff (hplace : out place = false) {header : Nat} :
    Closes (kept out is) (movedTo out place) header ↔
      ∃ j, Closes is place j ∧ movedTo out j = header := by
  unfold Closes
  rw [getElem?_kept is hplace, h.openAt_kept, List.head?_map, Option.map_eq_some_iff]
  constructor
  · rintro ⟨hclose, j, hj, rfl⟩
    exact ⟨j, ⟨hclose, hj⟩, rfl⟩
  · rintro ⟨j, ⟨hclose, hj⟩, rfl⟩
    exact ⟨hclose, j, hj, rfl⟩

/-- The header of a loop that is closed is kept. -/
lemma header_kept {closing header : Nat} (hclose : Closes is closing header) :
    out header = false := by
  obtain ⟨-, c, hc⟩ := hclose.header_spec
  exact h.out_eq_false hc rfl

/-- **Links** move with the places. Links are what braces close, in both directions, and none of the
two ends of a link is a remark; so both are kept, and are moved alike. -/
theorem partner?_kept (hplace : out place = false) :
    ((linkBlocks (kept out is))[movedTo out place]?).join =
      (((linkBlocks is)[place]?).join).map (movedTo out) := by
  ext other
  rw [partner?_linkBlocks_iff, Option.map_eq_some_iff, h.closes_kept_iff hplace]
  simp only [partner?_linkBlocks_iff]
  constructor
  · rintro (⟨j, hclose, rfl⟩ | hclose)
    · exact ⟨j, .inl hclose, rfl⟩
    · obtain ⟨k, hkept, rfl, -⟩ := exists_of_getElem?_kept hclose.1
      obtain ⟨j, hj, heq⟩ := (h.closes_kept_iff hkept).1 hclose
      obtain rfl := eq_of_movedTo_eq (h.header_kept hj) hplace heq
      exact ⟨k, .inr hj, rfl⟩
  · rintro ⟨j, hclose | hclose, rfl⟩
    · exact .inl ⟨j, hclose, rfl⟩
    · have hkept : out j = false := h.out_eq_false hclose.1 rfl
      exact .inr ((h.closes_kept_iff hkept).2 ⟨place, hclose, rfl⟩)

end OnlyRemarks

end StickerBot
