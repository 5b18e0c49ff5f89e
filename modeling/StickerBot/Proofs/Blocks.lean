import StickerBot.Program
import StickerBot.Machine.Commands
import StickerBot.Proofs.Nesting
set_option autoImplicit false

/-!
# Blocks: programs as trees

A program in which every brace has a partner is the listing of a tree: a sequence of
instructions that nest nothing and of loops, each with its body. The machine does not see the
tree. It links the braces before a run, and the links it finds are those of the tree.

## Main definitions

* `Plain` — the instructions that are no braces.
* `Block`, `Nest.instructions` — trees, and their instructions in order.

## Main results

* `Program.isBalanced_iff` — the balanced programs are those of trees.
* `linkBlocks_loop` — linking joins the header and the closing brace of every loop of a tree,
  whatever stands around the loop.
-/

namespace StickerBot

/-- **Plain instructions.** Those that open and close nothing. -/
inductive Plain where
  | call (name : String) (arguments : List Int32)
  | wait (units : UInt32)
  | assign (variableName : String) (value : Int32)
  | increment (variableName : String) (step : Int32)
  | trace (point : UInt32)
  | print (text : String)
deriving DecidableEq, Repr

/-- The instruction that a plain one is. -/
def Plain.instruction : Plain → Instruction
  | .call f args => .call f args
  | .wait n => .wait n
  | .assign x n => .assign x n
  | .increment x n => .increment x n
  | .trace n => .trace n
  | .print s => .print s

/-- **Blocks.** Programs as trees: every loop holds its condition and its body. -/
abbrev Block := Nest Plain Condition

/-- An instruction as a letter of a word with braces. -/
def Instruction.brace : Instruction → Brace Plain Condition
  | .call f args => .plain (.call f args)
  | .wait n => .plain (.wait n)
  | .assign x n => .plain (.assign x n)
  | .increment x n => .plain (.increment x n)
  | .loop c => .opening c
  | .close => .closing
  | .trace n => .plain (.trace n)
  | .print s => .plain (.print s)

/-- The instruction that a letter is. -/
def Brace.instruction : Brace Plain Condition → Instruction
  | .plain i => i.instruction
  | .opening c => .loop c
  | .closing => .close

/-- An instruction is found again from its letter. -/
@[simp] lemma Instruction.instruction_brace (i : Instruction) : i.brace.instruction = i := by
  cases i <;> rfl

/-- A letter is found again from its instruction. -/
@[simp] lemma Brace.brace_instruction (x : Brace Plain Condition) : x.instruction.brace = x := by
  cases x with
  | plain i => cases i <;> rfl
  | opening c => rfl
  | closing => rfl

namespace Nest

/-- **The instructions of a block**, in order. -/
def instructions (b : Block) : List Instruction := b.flatten.map Brace.instruction

/-- How many instructions a block has. -/
def length (b : Block) : Nat := b.instructions.length

/-- The empty block has no instructions. -/
@[simp] lemma instructions_empty : instructions .empty = [] := rfl

/-- An instruction at the head of a block is the first of its instructions. -/
@[simp] lemma instructions_plain (i : Plain) (rest : Block) :
    instructions (.plain i rest) = i.instruction :: instructions rest := rfl

/-- A loop is written as its header, the instructions of its body, the end of the loop, and then
what comes behind it. -/
@[simp] lemma instructions_loop (c : Condition) (body rest : Block) :
    instructions (.loop c body rest) =
      .loop c :: (instructions body ++ .close :: instructions rest) := by
  simp [instructions, Nest.flatten, Brace.instruction]

/-- The empty block takes no place in the code. -/
@[simp] lemma length_empty : length .empty = 0 := rfl

/-- An instruction at the head of a block takes one place. -/
@[simp] lemma length_plain (i : Plain) (rest : Block) :
    length (.plain i rest) = length rest + 1 := rfl

/-- A loop takes the places of its body and two more, one for its header and one for its end. -/
@[simp] lemma length_loop (c : Condition) (body rest : Block) :
    length (.loop c body rest) = length body + length rest + 2 := by
  simp only [length, instructions_loop, List.length_cons, List.length_append]
  omega

/-- Reading instructions as letters and back leaves them as they are. -/
lemma map_instruction_map_brace (is : List Instruction) :
    (is.map Instruction.brace).map Brace.instruction = is := by
  simp [Function.comp_def]

/-- The letters of the instructions of a block spell the block. -/
lemma map_brace_instructions (b : Block) : b.instructions.map Instruction.brace = b.flatten := by
  simp [instructions, Function.comp_def]

end Nest

/-! ### Balanced programs -/

namespace BlockBalance

/-- Reading on never makes up for a closing brace without a partner. -/
lemma strayCloses_le_foldl (is : List Instruction) :
    ∀ b : BlockBalance, b.strayCloses ≤ (is.foldl add b).strayCloses := by
  induction is with
  | nil => intro b; exact Nat.le_refl _
  | cons i is ih =>
    intro b
    refine Nat.le_trans ?_ (ih (b.add i))
    cases i <;> simp only [add, Nat.le_refl]
    split <;> simp

/-- A balance comes out even if the braces that are open are closed by what is still to be
read. -/
lemma isBalanced_foldl_iff (is : List Instruction) :
    ∀ d, (is.foldl add ⟨d, 0⟩).isBalanced = true ↔
      Brace.openAfter? d (is.map Instruction.brace) = some 0 := by
  induction is with
  | nil => intro d; simp [isBalanced, Brace.openAfter?]
  | cons i is ih =>
    intro d
    cases i with
    | close =>
      cases d with
      | zero =>
        have h := strayCloses_le_foldl is ⟨0, 1⟩
        simp only [isBalanced, List.foldl_cons, add, List.map_cons, Instruction.brace,
          Brace.openAfter?, if_true]
        simp only [Nat.zero_add] at h ⊢
        simp [Nat.ne_of_gt (Nat.lt_of_lt_of_le Nat.one_pos h)]
      | succ d => simpa [add, Instruction.brace, Brace.openAfter?] using ih d
    | _ => exact ih _

end BlockBalance

/-- **Balanced programs have trees.** In a program every brace has a partner exactly if the
program lists the instructions of a block. -/
theorem Program.isBalanced_iff (p : Program) :
    p.balance.isBalanced = true ↔ ∃ b : Block, b.instructions = p.instructions := by
  rw [Program.balance, BlockBalance.zero, BlockBalance.isBalanced_foldl_iff,
    Brace.openAfter?_eq_zero_iff]
  constructor
  · rintro ⟨t, ht⟩
    exact ⟨t, by rw [Nest.instructions, ht, Nest.map_instruction_map_brace]⟩
  · rintro ⟨b, hb⟩
    exact ⟨b, by rw [← hb, Nest.map_brace_instructions]⟩

/-! ### Linking -/

/-- Linking from a place on changes no earlier place but those of the open headers.

**Proof sketch.** By induction on the instructions. A brace sets the links of its own place and of
the innermost open header, and a header is open only at its own place or before. -/
lemma getElem?_linkFrom_of_lt (is : List Instruction) :
    ∀ place opened (links : List (Option Nat)) i, i < place → i ∉ opened →
      (linkFrom place opened links is)[i]? = links[i]? := by
  induction is with
  | nil => intro place opened links i _ _; rfl
  | cons x is ih =>
    intro place opened links i hi ho
    cases x with
    | close =>
      cases opened with
      | nil => exact ih _ _ _ i (by omega) ho
      | cons header outer =>
        have hne : header ≠ i := fun e => ho (e ▸ List.mem_cons_self)
        rw [linkFrom, ih _ _ _ i (by omega) (fun h => ho (List.mem_cons_of_mem _ h)),
          List.getElem?_set_ne (by omega), List.getElem?_set_ne hne]
    | loop c =>
      refine ih _ _ _ i (by omega) fun h => ?_
      rcases List.mem_cons.1 h with rfl | h
      · exact absurd hi (Nat.lt_irrefl _)
      · exact ho h
    | _ => exact ih _ _ _ i (by omega) ho

/-- Linking a word goes through its beginning first, after which only earlier headers are open. What
is linked so far is left open: only the length of the links is kept, which is all that the users of
this lemma need. -/
lemma linkFrom_append (xs ys : List Instruction) :
    ∀ place opened (links : List (Option Nat)), (∀ o ∈ opened, o < place) →
      ∃ opened' links', (∀ o ∈ opened', o < place + xs.length) ∧
        links'.length = links.length ∧
        linkFrom place opened links (xs ++ ys) =
          linkFrom (place + xs.length) opened' links' ys := by
  induction xs with
  | nil => intro place opened links ho; exact ⟨opened, links, ho, rfl, rfl⟩
  | cons x xs ih =>
    intro place opened links ho
    have hlen : place + (x :: xs).length = place + 1 + xs.length := by
      rw [List.length_cons]; omega
    rw [hlen]
    have hlater : ∀ o ∈ opened, o < place + 1 := fun o h => Nat.lt_succ_of_lt (ho o h)
    cases x with
    | close =>
      cases opened with
      | nil => exact ih (place + 1) [] links (by simp)
      | cons header outer =>
        obtain ⟨opened', links', ho', hl, he⟩ := ih (place + 1) outer
          ((links.set header (some place)).set place (some header))
          (fun o h => hlater o (List.mem_cons_of_mem _ h))
        exact ⟨opened', links', ho', by simpa using hl, he⟩
    | loop c =>
      refine ih (place + 1) (place :: opened) links fun o h => ?_
      rcases List.mem_cons.1 h with rfl | h
      · exact Nat.lt_succ_self _
      · exact hlater o h
    | _ => exact ih (place + 1) opened links hlater

/-- Linking goes through a block and leaves the same headers open.

**Proof sketch.** By induction on the block. A loop opens its header, is gone through by the
induction for its body, and is closed by its own brace, after which the same headers are open as
before. -/
lemma linkFrom_block (b : Block) :
    ∀ (ys : List Instruction) place opened (links : List (Option Nat)),
      ∃ links', links'.length = links.length ∧
        linkFrom place opened links (b.instructions ++ ys) =
          linkFrom (place + b.length) opened links' ys := by
  induction b with
  | empty => intro ys place opened links; exact ⟨links, rfl, rfl⟩
  | plain i rest ih =>
    intro ys place opened links
    obtain ⟨links', hl, he⟩ := ih ys (place + 1) opened links
    refine ⟨links', hl, ?_⟩
    rw [Nest.length_plain, show place + (rest.length + 1) = place + 1 + rest.length by omega,
      ← he]
    cases i <;> rfl
  | loop c body rest ihb ihr =>
    intro ys place opened links
    obtain ⟨inner, hli, hei⟩ := ihb (.close :: (rest.instructions ++ ys)) (place + 1)
      (place :: opened) links
    obtain ⟨links', hl, he⟩ := ihr ys (place + 1 + body.length + 1) opened
      ((inner.set place (some (place + 1 + body.length))).set (place + 1 + body.length)
        (some place))
    refine ⟨links', by simpa [hli] using hl, ?_⟩
    rw [Nest.length_loop, show place + (body.length + rest.length + 2) =
      place + 1 + body.length + 1 + rest.length by omega, ← he]
    simpa [linkFrom] using hei

/-- **Links of a loop.** Wherever a loop of a block stands in a program, linking joins its
header and its closing brace.

**Proof sketch.** When the closing brace is reached the header is the innermost one open
(`linkFrom_block`), so the two are linked. Neither place is changed later: the headers still
open then all stand before the loop (`linkFrom_append`). -/
theorem linkBlocks_loop (pre post : List Instruction) (c : Condition) (body : Block) :
    let links := linkBlocks (pre ++ .loop c :: (body.instructions ++ .close :: post))
    links[pre.length]? = some (some (pre.length + 1 + body.length)) ∧
      links[pre.length + 1 + body.length]? = some (some pre.length) := by
  intro links
  obtain ⟨opened, before, ho, hlb, heb⟩ := linkFrom_append pre
    (.loop c :: (body.instructions ++ .close :: post)) 0 []
    (List.replicate (pre ++ .loop c :: (body.instructions ++ .close :: post)).length none)
    (by simp)
  rw [Nat.zero_add] at ho heb
  obtain ⟨inner, hli, hei⟩ := linkFrom_block body (.close :: post) (pre.length + 1)
    (pre.length :: opened) before
  have hlinks : links = linkFrom (pre.length + 1 + body.length + 1) opened
      ((inner.set pre.length (some (pre.length + 1 + body.length))).set
        (pre.length + 1 + body.length) (some pre.length)) post := by
    rw [show links = _ from heb]
    simpa [linkFrom] using hei
  have hlen : inner.length = pre.length + (body.length + post.length + 2) := by
    rw [hli, hlb, List.length_replicate]
    simp only [List.length_append, List.length_cons, Nest.length]
    omega
  have hfresh : ∀ i, pre.length ≤ i → i ∉ opened := fun i hi h => by
    have := ho i h
    omega
  constructor
  · rw [hlinks, getElem?_linkFrom_of_lt _ _ _ _ _ (by omega) (hfresh _ (by omega)),
      List.getElem?_set_ne (by omega), List.getElem?_set_self (by omega)]
  · rw [hlinks, getElem?_linkFrom_of_lt _ _ _ _ _ (by omega) (hfresh _ (by omega)),
      List.getElem?_set_self (by rw [List.length_set]; omega)]

end StickerBot
