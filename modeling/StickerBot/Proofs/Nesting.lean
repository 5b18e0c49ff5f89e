import Mathlib.Tactic.Lemma
set_option autoImplicit false

/-!
# Nesting: words with braces and the trees they spell

A program is a list of instructions in which loops open and close, and a page is a list of
stickers in which repeats begin and end. Both are words over plain letters, labelled opening
braces and closing braces. A word in which every brace has its partner spells a tree.

## Main definitions

* `Brace`, `Nest` — the letters of such a word, and the trees.
* `Nest.flatten`, `Nest.read` — the word of a tree, and the tree of a word.
* `Brace.openAfter?` — how many braces are open after a word.
* `Brace.settle` — a word without the closing braces that close nothing.

## Main results

* `Nest.flatten_read` — a word that closes all it opens is the word of the tree read from it.
* `Brace.openAfter?_eq_zero_iff` — the words in which every brace has a partner are those of trees.
-/

namespace StickerBot

/-- **Letters.** Something that nests nothing, an opening brace with its label, or a closing
brace. -/
inductive Brace (α β : Type) where
  | plain (a : α)
  | opening (b : β)
  | closing
deriving DecidableEq, Repr

/-- **Trees.** A sequence of plain letters and loops; every loop holds its body. -/
inductive Nest (α β : Type) where
  | empty
  | plain (a : α) (rest : Nest α β)
  | loop (b : β) (body rest : Nest α β)
deriving DecidableEq, Repr

variable {α β : Type}

namespace Brace

/-- How many braces are open after a word, if so many were open before it. There is no answer
if a closing brace of the word closes nothing. -/
def openAfter? : Nat → List (Brace α β) → Option Nat
  | d, [] => some d
  | d, .plain _ :: ss => openAfter? d ss
  | d, .opening _ :: ss => openAfter? (d + 1) ss
  | 0, .closing :: _ => none
  | d + 1, .closing :: ss => openAfter? d ss

/-- **Settling.** Leaves out the closing braces that close nothing, if so many braces are open
before the word. -/
def settle : Nat → List (Brace α β) → List (Brace α β)
  | _, [] => []
  | d, .plain a :: ss => .plain a :: settle d ss
  | d, .opening b :: ss => .opening b :: settle (d + 1) ss
  | 0, .closing :: ss => settle 0 ss
  | d + 1, .closing :: ss => .closing :: settle d ss

end Brace

namespace Nest

/-- The word of a tree. -/
def flatten : Nest α β → List (Brace α β)
  | .empty => []
  | .plain a rest => .plain a :: rest.flatten
  | .loop b body rest => .opening b :: (body.flatten ++ .closing :: rest.flatten)

/-- The trees that a word spells between the closing braces it does not open: the first, and
those after it. A brace that the word does not close is closed at its end. -/
def readAll : List (Brace α β) → Nest α β × List (Nest α β)
  | [] => (.empty, [])
  | .plain a :: ss => (.plain a (readAll ss).1, (readAll ss).2)
  | .opening b :: ss =>
    match readAll ss with
    | (body, []) => (.loop b body .empty, [])
    | (body, rest :: ts) => (.loop b body rest, ts)
  | .closing :: ss => (.empty, (readAll ss).1 :: (readAll ss).2)

/-- **Reading.** The tree of a word. -/
def read (ss : List (Brace α β)) : Nest α β := (readAll ss).1

/-- The word of several trees with a closing brace between any two. -/
def flattenAll (t : Nest α β) : List (Nest α β) → List (Brace α β)
  | [] => t.flatten
  | u :: us => t.flatten ++ .closing :: flattenAll u us

/-- One tree after another. -/
def append : Nest α β → Nest α β → Nest α β
  | .empty, u => u
  | .plain a rest, u => .plain a (rest.append u)
  | .loop b body rest, u => .loop b body (rest.append u)

/-- A nest behind another is read from left to right like the first one and then the second one; by
induction on the first one. -/
@[simp] lemma flatten_append (t u : Nest α β) : (t.append u).flatten = t.flatten ++ u.flatten := by
  induction t with
  | empty => rfl
  | plain a rest ih => simp [append, flatten, ih]
  | loop b body rest _ ih => simp [append, flatten, ih]

/-! ### Every settled word is the word of a tree -/

/-- A word that ends with nothing open is spelled by the trees read from it, and these are one
more than the braces that were open before.

**Proof sketch.** Induction on the word. A plain letter and an opening brace go into the first
tree, the latter together with the second as what follows the loop; a closing brace begins a
new tree. -/
lemma flattenAll_readAll (ss : List (Brace α β)) :
    ∀ d, Brace.openAfter? d ss = some 0 →
      (readAll ss).2.length = d ∧ flattenAll (readAll ss).1 (readAll ss).2 = ss := by
  induction ss with
  | nil =>
    intro d h
    obtain rfl : d = 0 := by simpa [Brace.openAfter?] using h
    exact ⟨rfl, rfl⟩
  | cons x ss ih =>
    intro d h
    cases x with
    | plain a =>
      obtain ⟨hlen, hword⟩ := ih d h
      refine ⟨hlen, ?_⟩
      simp only [readAll]
      cases hr : (readAll ss).2 <;> rw [hr] at hword <;>
        simpa [flattenAll, flatten] using hword
    | opening b =>
      obtain ⟨hlen, hword⟩ := ih (d + 1) h
      rcases hr : readAll ss with ⟨body, _ | ⟨rest, ts⟩⟩
      · simp [hr] at hlen
      · rw [hr] at hlen hword
        refine ⟨by simpa [readAll, hr] using hlen, ?_⟩
        simp only [readAll, hr]
        cases ts <;> simpa [flattenAll, flatten] using hword
    | closing =>
      cases d with
      | zero => simp [Brace.openAfter?] at h
      | succ d =>
        obtain ⟨hlen, hword⟩ := ih d h
        exact ⟨by simpa [readAll] using hlen, by simpa [readAll, flattenAll, flatten] using hword⟩

/-- **Words have trees.** A word that opens all it closes and closes all it opens is the word of
the tree read from it. -/
theorem flatten_read {ss : List (Brace α β)} (h : Brace.openAfter? 0 ss = some 0) :
    (read ss).flatten = ss := by
  obtain ⟨hlen, hword⟩ := flattenAll_readAll ss 0 h
  rw [List.length_eq_zero_iff] at hlen
  rwa [hlen] at hword

end Nest

namespace Brace

/-- A tree leaves as many braces open as were open before it. -/
@[simp] lemma openAfter?_flatten_append (t : Nest α β) :
    ∀ d (ss : List (Brace α β)), openAfter? d (t.flatten ++ ss) = openAfter? d ss := by
  induction t with
  | empty => intro d ss; rfl
  | plain a rest ih => intro d ss; exact ih d ss
  | loop b body rest ihb ihr =>
    intro d ss
    simp [Nest.flatten, openAfter?, ihb, ihr]

/-- **Balance.** The words in which every brace has a partner are the words of trees. -/
theorem openAfter?_eq_zero_iff {ss : List (Brace α β)} :
    openAfter? 0 ss = some 0 ↔ ∃ t : Nest α β, t.flatten = ss := by
  constructor
  · intro h
    exact ⟨Nest.read ss, Nest.flatten_read h⟩
  · rintro ⟨t, rfl⟩
    have h := openAfter?_flatten_append t 0 []
    rwa [List.append_nil] at h

end Brace

end StickerBot
