import Mathlib.Tactic.Lemma
import StickerBot.Machine.Commands
set_option autoImplicit false

/-!
# Which braces are linked

Before a program runs, the braces of its loops are linked. A closing brace is linked with the
innermost header that is open before it, in any sequence of instructions, also in one whose braces
have no partners; and there are no other links.

## Main definitions

* `Instruction.isLoop`, `Instruction.isClose` — the braces.
* `openAt` — the headers that are open at a place, the innermost first.
* `unclosed` — the headers that are open at the end.
* `Closes` — a closing brace and the header that it closes.

## Main results

* `Closes.openAt_eq` — what is open before a closing brace is its header and what is open before
  the header.
* `partner?_linkBlocks_iff` — two places are linked exactly if one closes the other.
* `mem_unclosed_iff` — the headers open at the end are those that nothing closes.
* `unclosed_balance`, `strayCloses_balance_eq` — their number is that of the balance, and so is that
  of the closing braces that close nothing.
-/

namespace StickerBot

/-- Whether a loop begins with the instruction. -/
def Instruction.isLoop : Instruction → Bool
  | .loop _ => true
  | _ => false

/-- Whether a loop ends with the instruction. -/
def Instruction.isClose : Instruction → Bool
  | .close => true
  | _ => false

/-- The headers that are open after an instruction at a place. -/
def Instruction.openedAfter (place : Nat) (opened : List Nat) : Instruction → List Nat
  | .loop _ => place :: opened
  | .close => opened.tail
  | _ => opened

/-- **Open headers.** The places before a place at which a loop begins that is not closed there,
the innermost first. -/
def openAt (is : List Instruction) : Nat → List Nat
  | 0 => []
  | place + 1 =>
    match is[place]? with
    | some i => i.openedAfter place (openAt is place)
    | none => openAt is place

/-- **Unclosed headers.** The headers that are open at the end. -/
def unclosed (is : List Instruction) : List Nat := openAt is is.length

/-- **Closing.** At a place there is a closing brace, and it closes the loop of a header. -/
def Closes (is : List Instruction) (closing header : Nat) : Prop :=
  is[closing]? = some .close ∧ (openAt is closing).head? = some header

variable {is : List Instruction}

/-- What is open one place further. -/
lemma openAt_succ {place : Nat} {i : Instruction} (h : is[place]? = some i) :
    openAt is (place + 1) = i.openedAfter place (openAt is place) := by
  rw [openAt, h]

/-- What is open at a place depends on what stands before it alone. -/
lemma openAt_append_left (is js : List Instruction) {place : Nat} (h : place ≤ is.length) :
    openAt (is ++ js) place = openAt is place := by
  induction place with
  | zero => rfl
  | succ place ih =>
    rw [openAt, openAt, List.getElem?_append_left h, ih (Nat.le_of_succ_le h)]

/-- So does which header a closing brace closes. -/
lemma closes_append_left_iff (is js : List Instruction) {closing header : Nat}
    (h : closing < is.length) : Closes (is ++ js) closing header ↔ Closes is closing header := by
  rw [Closes, Closes, List.getElem?_append_left h, openAt_append_left is js (Nat.le_of_lt h)]

/-- What a further instruction leaves open. -/
lemma unclosed_concat (is : List Instruction) (i : Instruction) :
    unclosed (is ++ [i]) = i.openedAfter is.length (unclosed is) := by
  have hi : (is ++ [i])[is.length]? = some i := by simp
  unfold unclosed
  rw [List.length_append, List.length_singleton, openAt_succ hi,
    openAt_append_left is [i] (Nat.le_refl _)]

/-! ### Headers -/

/-- A header that is open at a place stands before it, and outside of it is open what is open at
the header. -/
lemma of_suffix_openAt {header : Nat} {outer : List Nat} :
    ∀ {place : Nat}, header :: outer <:+ openAt is place →
      header < place ∧ (∃ c, is[header]? = some (.loop c)) ∧ outer = openAt is header := by
  intro place
  induction place with
  | zero => intro h; simp [openAt] at h
  | succ place ih =>
    have hold : header :: outer <:+ openAt is place →
        header < place + 1 ∧ (∃ c, is[header]? = some (.loop c)) ∧ outer = openAt is header :=
      fun h => ⟨Nat.lt_succ_of_lt (ih h).1, (ih h).2⟩
    intro h
    cases hi : is[place]? with
    | none =>
      rw [openAt, hi] at h
      exact hold h
    | some i =>
      rw [openAt_succ hi] at h
      cases i with
      | loop c =>
        rcases List.suffix_cons_iff.1 h with heq | h
        · obtain ⟨rfl, rfl⟩ := List.cons.inj heq
          exact ⟨Nat.lt_succ_self _, ⟨c, hi⟩, rfl⟩
        · exact hold h
      | close => exact hold (h.trans (List.tail_suffix _))
      | _ => exact hold h

/-- An open header stands before the place, and a loop begins at it. -/
lemma of_mem_openAt {header place : Nat} (h : header ∈ openAt is place) :
    header < place ∧ ∃ c, is[header]? = some (.loop c) := by
  obtain ⟨inner, outer, heq⟩ := List.append_of_mem h
  have hsuffix : header :: outer <:+ openAt is place := ⟨inner, heq.symm⟩
  obtain ⟨hlt, hloop, -⟩ := of_suffix_openAt hsuffix
  exact ⟨hlt, hloop⟩

namespace Closes

variable {closing header : Nat}

/-- **Inside a loop.** Before its closing brace are open its header and what is open before the
header. -/
theorem openAt_eq (h : Closes is closing header) :
    openAt is closing = header :: openAt is header := by
  cases hopen : openAt is closing with
  | nil => simp [Closes, hopen] at h
  | cons head outer =>
    obtain rfl : head = header := by simpa [Closes, hopen] using h.2
    have hsuffix : head :: outer <:+ openAt is closing := hopen ▸ List.suffix_refl _
    obtain ⟨-, -, rfl⟩ := of_suffix_openAt hsuffix
    rfl

/-- Behind a loop is open what is open before it. -/
lemma openAt_succ (h : Closes is closing header) :
    openAt is (closing + 1) = openAt is header := by
  rw [StickerBot.openAt_succ h.1, h.openAt_eq]
  rfl

/-- A header stands before its closing brace. -/
lemma header_spec (h : Closes is closing header) :
    header < closing ∧ ∃ c, is[header]? = some (.loop c) :=
  of_mem_openAt (by rw [h.openAt_eq]; exact List.mem_cons_self)

/-- A closing brace is no header. -/
lemma not_closes_header (h : Closes is closing header) (other : Nat) :
    ¬ Closes is header other := by
  intro hother
  obtain ⟨-, c, hc⟩ := h.header_spec
  exact absurd (hother.1.symm.trans hc) (by simp)

/-- A loop that was closed is never open again.

**Proof sketch.** By induction on the place. The brace takes the header away, and a header is only
ever put where a loop begins, which for this one is before the brace. -/
lemma not_mem_openAt (h : Closes is closing header) :
    ∀ {place : Nat}, closing < place → header ∉ openAt is place := by
  intro place hlt
  induction place with
  | zero => exact absurd hlt (Nat.not_lt_zero _)
  | succ place ih =>
    rcases Nat.eq_or_lt_of_le (Nat.lt_succ_iff.1 hlt) with rfl | hlt
    · rw [h.openAt_succ]
      exact fun hmem => absurd (of_mem_openAt hmem).1 (Nat.lt_irrefl _)
    · have hold := ih hlt
      have hne : header ≠ place := Nat.ne_of_lt (Nat.lt_trans h.header_spec.1 hlt)
      cases hi : is[place]? with
      | none =>
        rw [openAt, hi]
        exact hold
      | some i =>
        rw [StickerBot.openAt_succ hi]
        cases i with
        | loop c => simpa [Instruction.openedAfter, hne] using hold
        | close => exact fun hmem => hold (List.mem_of_mem_tail hmem)
        | _ => exact hold

/-- A closing brace closes one header. -/
lemma header_unique {other : Nat} (h : Closes is closing header) (h' : Closes is closing other) :
    header = other := Option.some.inj (h.2.symm.trans h'.2)

/-- A header is closed once. -/
lemma closing_unique {other : Nat} (h : Closes is closing header) (h' : Closes is other header) :
    closing = other := by
  have hmem : ∀ {place}, Closes is place header → header ∈ openAt is place := fun hp => by
    rw [hp.openAt_eq]
    exact List.mem_cons_self
  rcases Nat.lt_trichotomy closing other with hlt | heq | hlt
  · exact absurd (hmem h') (h.not_mem_openAt hlt)
  · exact heq
  · exact absurd (hmem h) (h'.not_mem_openAt hlt)

end Closes

/-- A header that nothing before a place closes is open there.

**Proof sketch.** By induction on the place. The header is put at its own place; after that a brace
takes away the innermost header, which cannot be this one because no brace closes it. -/
lemma mem_openAt_of_not_closes {header : Nat} {c : Condition}
    (hc : is[header]? = some (.loop c)) : ∀ {place : Nat}, header < place →
      (∀ closing < place, ¬ Closes is closing header) → header ∈ openAt is place := by
  intro place hlt hnot
  induction place with
  | zero => exact absurd hlt (Nat.not_lt_zero _)
  | succ place ih =>
    rcases Nat.eq_or_lt_of_le (Nat.lt_succ_iff.1 hlt) with rfl | hlt
    · rw [openAt_succ hc]
      exact List.mem_cons_self
    · have hold := ih hlt fun closing h => hnot closing (Nat.lt_succ_of_lt h)
      cases hi : is[place]? with
      | none =>
        rw [openAt, hi]
        exact hold
      | some i =>
        rw [openAt_succ hi]
        cases i with
        | loop c => exact List.mem_cons_of_mem _ hold
        | close =>
          -- the brace closes the first open header, which is another one
          obtain ⟨first, outer, heq⟩ := List.exists_cons_of_ne_nil (List.ne_nil_of_mem hold)
          rw [heq] at hold ⊢
          refine (List.mem_cons.1 hold).resolve_left ?_
          rintro rfl
          exact hnot place (Nat.lt_succ_self _) ⟨hi, by rw [heq]; rfl⟩
        | _ => exact hold

/-! ### Links -/

/-- The braces before a place are linked with their partners before the place, and with nothing
else. -/
def LinkedTo (is : List Instruction) (links : List (Option Nat)) (place : Nat) : Prop :=
  ∀ i j, (links[i]?).join = some j ↔ (i < place ∧ Closes is i j) ∨ (j < place ∧ Closes is j i)

namespace LinkedTo

variable {links : List (Option Nat)} {place : Nat}

/-- No link is made at an instruction that closes nothing. -/
lemma succ_of_not_closes (h : LinkedTo is links place) (hnot : ∀ header, ¬ Closes is place header) :
    LinkedTo is links (place + 1) := by
  have hlt : ∀ {i j}, Closes is i j → (i < place + 1 ↔ i < place) := fun {i j} hclose => by
    have hne : i ≠ place := by
      rintro rfl
      exact hnot j hclose
    omega
  intro i j
  rw [h i j]
  refine or_congr ?_ ?_
  · exact and_congr_left fun hclose => (hlt hclose).symm
  · exact and_congr_left fun hclose => (hlt hclose).symm

/-- A closing brace is linked with its header.

**Proof sketch.** Two links are set, of the brace and of its header, and they are what is closed at
this place. No other place is changed, and each place has one partner at most, so that what was
linked before stays linked. -/
lemma succ_of_closes (h : LinkedTo is links place) {header : Nat} (hclose : Closes is place header)
    (hplace : place < links.length) :
    LinkedTo is ((links.set header (some place)).set place (some header)) (place + 1) := by
  have hlt := hclose.header_spec.1
  have hheader : header < links.length := Nat.lt_trans hlt hplace
  intro i j
  rw [List.getElem?_set, List.length_set]
  by_cases hi : place = i
  · subst hi
    rw [if_pos rfl, if_pos hplace, Option.join_some, Option.some.injEq]
    constructor
    · rintro rfl
      exact .inl ⟨Nat.lt_succ_self _, hclose⟩
    · rintro (⟨-, hj⟩ | ⟨-, hj⟩)
      · exact hclose.header_unique hj
      · exact absurd hclose (hj.not_closes_header header)
  · rw [if_neg hi, List.getElem?_set]
    by_cases hih : header = i
    · subst hih
      rw [if_pos rfl, if_pos hheader, Option.join_some, Option.some.injEq]
      constructor
      · rintro rfl
        exact .inr ⟨Nat.lt_succ_self _, hclose⟩
      · rintro (⟨-, hj⟩ | ⟨-, hj⟩)
        · exact absurd hj (hclose.not_closes_header j)
        · exact hclose.closing_unique hj
    · rw [if_neg hih, h i j]
      refine or_congr (and_congr_left fun _ => ?_) (and_congr_left fun hj => ?_)
      · omega
      · have hne : j ≠ place := by
          rintro rfl
          exact hih (hclose.header_unique hj)
        omega

end LinkedTo

/-- Linking from a place on links the rest of the braces.

**Proof sketch.** By induction on the instructions that are left. A brace with an open header sets
the two links, and all other instructions link nothing; the invariant is that everything before the
place is linked. -/
lemma linkedTo_linkFrom (rest : List Instruction) : ∀ (front : List Instruction)
    (links : List (Option Nat)), links.length = (front ++ rest).length →
      LinkedTo (front ++ rest) links front.length →
        LinkedTo (front ++ rest) (linkFrom front.length (openAt (front ++ rest) front.length)
          links rest) (front ++ rest).length := by
  induction rest with
  | nil =>
    intro front links _ h
    rw [List.append_nil] at h ⊢
    exact h
  | cons i rest ih =>
    intro front links hlength h
    have hi : (front ++ i :: rest)[front.length]? = some i := by simp
    have hopen := openAt_succ hi
    have hplace : front.length < links.length := by simp [hlength]
    have hnext : ∀ links' : List (Option Nat), links'.length = links.length →
        LinkedTo (front ++ i :: rest) links' (front.length + 1) →
          LinkedTo (front ++ i :: rest) (linkFrom (front.length + 1)
            (i.openedAfter front.length (openAt (front ++ i :: rest) front.length)) links' rest)
            (front ++ i :: rest).length := fun links' hlength' h' => by
      have hrest := ih (front ++ [i]) links'
      have hfront : (front ++ [i]).length = front.length + 1 := by simp
      rw [List.append_assoc, List.singleton_append, hfront, hopen] at hrest
      exact hrest (hlength'.trans hlength) h'
    have hquiet : i ≠ .close → LinkedTo (front ++ i :: rest) links (front.length + 1) :=
      fun hne => h.succ_of_not_closes fun header hclose =>
        hne (Option.some.inj (hi.symm.trans hclose.1))
    cases i with
    | close =>
      cases hfirst : openAt (front ++ .close :: rest) front.length with
      | nil =>
        have hnone : LinkedTo (front ++ .close :: rest) links (front.length + 1) :=
          h.succ_of_not_closes fun header hclose => by simp [hclose.openAt_eq] at hfirst
        have hdone := hnext links rfl hnone
        rw [hfirst] at hdone
        exact hdone
      | cons header outer =>
        have hclose : Closes (front ++ .close :: rest) front.length header :=
          ⟨hi, by rw [hfirst]; rfl⟩
        have hdone := hnext _ (by simp) (h.succ_of_closes hclose hplace)
        rw [hfirst] at hdone
        exact hdone
    | _ => exact hnext links rfl (hquiet (by simp))

/-- **Links.** Two places are linked exactly if there is a closing brace at one and the header of
its loop at the other. -/
theorem partner?_linkBlocks_iff (is : List Instruction) (i j : Nat) :
    ((linkBlocks is)[i]?).join = some j ↔ Closes is i j ∨ Closes is j i := by
  have hnone : LinkedTo is (List.replicate is.length none) 0 := by
    intro i j
    rw [List.getElem?_replicate]
    split <;> simp
  have hall := linkedTo_linkFrom is [] (List.replicate is.length none) (by simp) hnone i j
  have hlt : ∀ {i j}, Closes is i j → i < is.length := fun h =>
    (List.getElem?_eq_some_iff.1 h.1).1
  refine hall.trans (or_congr ?_ ?_)
  · exact and_iff_right_of_imp hlt
  · exact and_iff_right_of_imp hlt

/-! ### Loops that are never closed -/

/-- **Never closed.** The headers open at the end are those that nothing closes. -/
theorem mem_unclosed_iff {header : Nat} : header ∈ unclosed is ↔
    (∃ c, is[header]? = some (.loop c)) ∧ ∀ closing, ¬ Closes is closing header := by
  have hlt : ∀ {closing}, Closes is closing header → closing < is.length := fun h =>
    (List.getElem?_eq_some_iff.1 h.1).1
  constructor
  · intro h
    exact ⟨(of_mem_openAt h).2, fun closing hclose => hclose.not_mem_openAt (hlt hclose) h⟩
  · rintro ⟨⟨c, hc⟩, hnot⟩
    exact mem_openAt_of_not_closes hc (List.getElem?_eq_some_iff.1 hc).1
      fun closing _ => hnot closing

/-- All along a program the balance counts the open headers. By induction on the place: a header
counts up and a brace counts down, unless nothing is open, in which case the brace is a stray one
and both stay at zero. -/
lemma unclosed_foldl_take (is : List Instruction) : ∀ place ≤ is.length,
    ((is.take place).foldl BlockBalance.add .zero).unclosed = (openAt is place).length := by
  intro place
  induction place with
  | zero => exact fun _ => rfl
  | succ place ih =>
    intro hle
    have hi : is[place]? = some is[place] := List.getElem?_eq_getElem hle
    have hold := ih (Nat.le_of_succ_le hle)
    rw [openAt_succ hi, List.take_add_one, hi, List.foldl_append]
    generalize (is.take place).foldl BlockBalance.add .zero = b at hold ⊢
    simp only [Option.toList_some, List.foldl_cons, List.foldl_nil]
    cases is[place] with
    | loop c => simp [BlockBalance.add, Instruction.openedAfter, hold]
    | close =>
      by_cases hzero : b.unclosed = 0
      · simp [BlockBalance.add, Instruction.openedAfter, hzero, ← hold]
      · simp [BlockBalance.add, Instruction.openedAfter, hzero, ← hold]
    | _ => exact hold

/-- **Counting.** The balance counts the headers that nothing closes. -/
theorem unclosed_balance (p : Program) :
    p.balance.unclosed = (unclosed p.instructions).length := by
  simpa [unclosed, Program.balance] using unclosed_foldl_take p.instructions _ (Nat.le_refl _)

/-- All along a program the balance counts the closing braces before which nothing is open. By
induction on the place: the balance and the open headers go along with one another, and both tell of
a brace that nothing is open there. -/
lemma strayCloses_foldl_take (is : List Instruction) : ∀ place ≤ is.length,
    ((is.take place).foldl BlockBalance.add .zero).strayCloses =
      (List.range place).countP fun i => is[i]? = some .close ∧ openAt is i = [] := by
  intro place
  induction place with
  | zero => exact fun _ => rfl
  | succ place ih =>
    intro hle
    have hi : is[place]? = some is[place] := List.getElem?_eq_getElem hle
    have hopen := unclosed_foldl_take is place (Nat.le_of_succ_le hle)
    have hold := ih (Nat.le_of_succ_le hle)
    rw [List.range_succ, List.countP_append, ← hold, List.countP_singleton, hi,
      List.take_add_one, hi, List.foldl_append]
    generalize (is.take place).foldl BlockBalance.add .zero = b at hopen ⊢
    simp only [Option.toList_some, List.foldl_cons, List.foldl_nil]
    cases is[place] with
    | close =>
      by_cases hzero : b.unclosed = 0
      · have hnil : openAt is place = [] := List.length_eq_zero_iff.1 (hopen.symm.trans hzero)
        simp [BlockBalance.add, hzero, hnil]
      · have hne : openAt is place ≠ [] := fun hnil => hzero (by rw [hopen, hnil, List.length_nil])
        simp [BlockBalance.add, hzero, hne]
    | _ => simp [BlockBalance.add]

/-- **Counting.** The balance counts the closing braces that close nothing. -/
theorem strayCloses_balance_eq (p : Program) : p.balance.strayCloses =
    (List.range p.instructions.length).countP fun i =>
      p.instructions[i]? = some .close ∧ openAt p.instructions i = [] := by
  simpa [Program.balance] using strayCloses_foldl_take p.instructions _ (Nat.le_refl _)

/-- **No stray braces.** Where every closing brace closes a header the balance counts no stray
one. -/
theorem strayCloses_balance (p : Program)
    (h : ∀ place, p.instructions[place]? = some .close → openAt p.instructions place ≠ []) :
    p.balance.strayCloses = 0 := by
  rw [strayCloses_balance_eq, List.countP_eq_zero]
  intro place _ hstray
  obtain ⟨hclose, hnil⟩ := of_decide_eq_true hstray
  exact h place hclose hnil

end StickerBot
