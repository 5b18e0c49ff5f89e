import StickerBot.Generate.Walk
import StickerBot.Proofs.RoutineBlock
set_option autoImplicit false

/-!
# The chain of a page and its code

The stickers that a program holds form a chain: those that the walk reaches, in the order in
which it reaches them. Read as letters, repeats open and close in it. The code of a chain is
written letter by letter, and depends on the chain alone: what the walk marks on the way changes
nothing but marks.

## Main definitions

* `Layout.chain` — the statements reached from a list of statements still to visit.
* `Layout.steps` — the chain of a page as letters.
* `Brace.codeFrom` — the code of a chain.
* `Layout.Marks` — a layout differs from another in its marks only, and these are as expected.

## Main results

* `codeFrom_flatten` — the code of the letters of a routine is the program of its block.
* `openAfter?_codeFrom` — the code of a chain is balanced exactly if its chain is, without the
  ends of repeats that never began.
* `walk_induction` — induction along a walk.
* `walk_writes` — a walk writes the code of the chain.
-/

namespace StickerBot

/-! ### The chain -/

namespace Layout

/-- How many statements are not on a list. -/
def unseen (l : Layout) (seen : List Nat) : Nat :=
  (List.range l.size).countP fun id => id ∉ seen

/-- Seeing a statement for the first time leaves fewer to see. -/
lemma unseen_cons_lt {l : Layout} {seen : List Nat} {id : Nat} (h : (l.get? id).isSome)
    (hs : id ∉ seen) : l.unseen (id :: seen) < l.unseen seen := by
  have hsize : id < l.size := by simpa [get?, size] using h
  obtain ⟨before, behind, hrange⟩ := List.append_of_mem (List.mem_range.2 hsize)
  have hle : ∀ ids : List Nat, (ids.countP fun i => i ∉ id :: seen) ≤
      ids.countP fun i => i ∉ seen := fun ids => List.countP_mono_left fun i _ hi => by
    simp only [List.mem_cons, not_or, decide_eq_true_eq] at hi ⊢
    exact hi.2
  have hbefore := hle before
  have hbehind := hle behind
  have hnow : decide (id ∉ id :: seen) = false := by simp
  have hthen : decide (id ∉ seen) = true := by simpa using hs
  simp only [unseen, hrange, List.countP_append, List.countP_cons, hnow, hthen, if_true,
    Bool.false_eq_true, if_false]
  omega

/-- **The chain.** The statements reached from those still to visit, each where it is first
reached: a statement, then all that its outgoing connectors lead to one after the other, then
what else there is to visit. Parameters are never reached. -/
def chain (l : Layout) (seen todo : List Nat) : List Nat :=
  match todo with
  | [] => []
  | id :: todo =>
    match _h : l.get? id with
    | none => l.chain seen todo
    | some s =>
      if s.kind.isParameter then l.chain seen todo
      else if _hs : id ∈ seen then l.chain seen todo
      else id :: l.chain (id :: seen) (s.outgoing.filterMap Connector.target ++ todo)
termination_by (l.unseen seen, todo.length)
decreasing_by
  · exact Prod.Lex.right _ (Nat.lt_succ_self _)
  · exact Prod.Lex.right _ (Nat.lt_succ_self _)
  · exact Prod.Lex.right _ (Nat.lt_succ_self _)
  · exact Prod.Lex.left _ _ (unseen_cons_lt (by simp [_h]) _hs)

/-- What is not there, is a parameter or was seen before is not on the chain. -/
lemma chain_skip {l : Layout} {seen : List Nat} {id : Nat} (todo : List Nat)
    (h : ∀ s, l.get? id = some s → s.kind.isParameter = true ∨ id ∈ seen) :
    l.chain seen (id :: todo) = l.chain seen todo := by
  rw [chain]
  split
  · rfl
  · rename_i s hs
    rcases h s hs with hp | hseen
    · rw [if_pos hp]
    · split <;> rfl

/-- A statement seen for the first time is on the chain before all that it leads to. -/
lemma chain_new {l : Layout} {seen : List Nat} {id : Nat} {s : Statement} (todo : List Nat)
    (hs : l.get? id = some s) (hp : s.kind.isParameter = false) (hseen : id ∉ seen) :
    l.chain seen (id :: todo) =
      id :: l.chain (id :: seen) (s.outgoing.filterMap Connector.target ++ todo) := by
  rw [chain]
  split
  · rename_i hnone
    exact absurd (hs.symm.trans hnone) (by simp)
  · rename_i s' hs'
    obtain rfl := Option.some.inj (hs.symm.trans hs')
    rw [if_neg (by simp [hp]), dif_neg hseen]

/-- The letter of a statement. The start and parameters are none. -/
def step? (l : Layout) (id : Nat) : Option (Brace Sticker ParameterValue) :=
  (l.get? id).bind fun s =>
    match s.kind with
    | .start | .parameter _ => none
    | .action a => some (.plain (.act a))
    | .wait => some (.plain (.wait (readParameter id l).1))
    | .loopBegin => some (.opening (readParameter id l).1)
    | .loopEnd => some .closing

/-- **The steps of a page**: the letters of its chain from the start. -/
def steps (l : Layout) : List (Brace Sticker ParameterValue) :=
  (l.chain [] l.start?.toList).filterMap l.step?

/-- **The routine of a page.** The tree of its steps without the ends of repeats that never
began. -/
def routine (l : Layout) : Routine := Nest.read (Brace.settle 0 l.steps)

end Layout

/-! ### The code of a chain -/

namespace Brace

/-- The code of a letter inside so many repeats. -/
def code (depth : Nat) : Brace Sticker ParameterValue → List Instruction
  | .plain (.act a) => [.native a []]
  | .plain (.wait v) => waitCode v (Context.counterAt depth)
  | .opening v => repeatCode v (Context.counterAt depth)
  | .closing => if depth = 0 then [] else [.close]

/-- How many repeats are open after a letter. -/
def depthAfter (depth : Nat) : Brace Sticker ParameterValue → Nat
  | .plain _ => depth
  | .opening _ => depth + 1
  | .closing => depth - 1

/-- **The code of letters**, inside so many repeats. -/
def codeFrom (depth : Nat) : List (Brace Sticker ParameterValue) → List Instruction
  | [] => []
  | x :: xs => x.code depth ++ codeFrom (x.depthAfter depth) xs

/-- The end of a repeat that never began has no code. -/
lemma codeFrom_settle (ss : List (Brace Sticker ParameterValue)) :
    ∀ depth, codeFrom depth (settle depth ss) = codeFrom depth ss := by
  induction ss with
  | nil => intro depth; cases depth <;> rfl
  | cons x ss ih =>
    intro depth
    cases x with
    | plain s => simp [settle, codeFrom, depthAfter, ih]
    | opening v => simp [settle, codeFrom, depthAfter, ih]
    | closing => cases depth <;> simp [settle, codeFrom, code, depthAfter, ih]

end Brace

/-- The block of a wait is the code that a wait statement writes: an instruction alone for a number,
and a loop of its own until a tap. -/
@[simp] lemma instructions_waitBlock (v : ParameterValue) (counter : String) :
    (waitBlock v counter).instructions = waitCode v counter := by
  cases v <;> rfl

/-- The block of a repeat is the code that a start of a repeat writes, its body, and the end of the
loop. -/
@[simp] lemma instructions_repeatBlock (v : ParameterValue) (counter : String) (body : Block) :
    (repeatBlock v counter body).instructions =
      repeatCode v counter ++ (body.instructions ++ [.close]) := by
  cases v <;> simp [repeatBlock, repeatCode, ParameterValue.limit?, countedLoop, tapLoop,
    Plain.instruction, Instruction.whileBelow, Instruction.whileNotRaised]

/-- **The code of a routine** is the program of its block, whatever comes after it. -/
theorem codeFrom_flatten (r : Routine) : ∀ depth (ss : List (Brace Sticker ParameterValue)),
    Brace.codeFrom depth (r.flatten ++ ss) =
      (r.block depth).instructions ++ Brace.codeFrom depth ss := by
  induction r with
  | empty => intro depth ss; rfl
  | plain s rest ih =>
    intro depth ss
    cases s <;>
      simp [Nest.flatten, Nest.block, Sticker.block, Brace.codeFrom, Brace.code,
        Brace.depthAfter, Instruction.native, Plain.instruction, ih]
  | loop v body rest ihb ihr =>
    intro depth ss
    simp [Nest.flatten, Nest.block, Brace.codeFrom, Brace.code, Brace.depthAfter, ihb, ihr]

/-- **Balance of code.** The code of letters leaves as many braces open as the letters do
without the ends of repeats that never began. -/
theorem openAfter?_codeFrom (ss : List (Brace Sticker ParameterValue)) :
    ∀ depth, Brace.openAfter? depth ((Brace.codeFrom depth ss).map Instruction.brace) =
      Brace.openAfter? depth (Brace.settle depth ss) := by
  induction ss with
  | nil => intro depth; cases depth <;> rfl
  | cons x ss ih =>
    intro depth
    cases x with
    | plain s =>
      cases s with
      | act a => exact ih depth
      | wait v =>
        have hwait : (waitCode v (Context.counterAt depth)).map Instruction.brace =
            (waitBlock v (Context.counterAt depth)).flatten := by
          rw [← instructions_waitBlock, Nest.map_brace_instructions]
        simp only [Brace.codeFrom, Brace.code, Brace.depthAfter, Brace.settle, List.map_append,
          hwait, Brace.openAfter?_flatten_append]
        exact ih depth
    | opening v =>
      have hopen : ∀ xs : List (Brace Plain Condition), Brace.openAfter? depth
          ((repeatCode v (Context.counterAt depth)).map Instruction.brace ++ xs) =
            Brace.openAfter? (depth + 1) xs := by
        cases v <;> exact fun xs => rfl
      simp only [Brace.codeFrom, Brace.code, Brace.depthAfter, Brace.settle, List.map_append, hopen]
      exact ih (depth + 1)
    | closing =>
      cases depth with
      | zero => exact ih 0
      | succ depth => exact ih depth

/-! ### Marks do not matter -/

/-- Statements that are alike but for their marks are of one kind and lead to the same places. -/
lemma Statement.of_clearMarks_eq {s s' : Statement} (h : s.clearMarks = s'.clearMarks) :
    s.kind = s'.kind ∧ s.outgoing = s'.outgoing := by
  have hkind : s.clearMarks.kind = s'.clearMarks.kind := congrArg Statement.kind h
  have houtgoing : s.clearMarks.outgoing = s'.clearMarks.outgoing := congrArg Statement.outgoing h
  exact ⟨hkind, houtgoing⟩

/-- **Marks.** A layout is another one up to marks, and in it exactly the statements of a list are
marked as part of the program, parameters aside. -/
structure Layout.Marks (l₀ l : Layout) (seen : List Nat) : Prop where
  same : ∀ id, (l.get? id).map Statement.clearMarks = (l₀.get? id).map Statement.clearMarks
  compiled : ∀ id s, l.get? id = some s → s.kind.isParameter = false →
    (s.isCompiled = true ↔ id ∈ seen)

namespace Layout.Marks

variable {l₀ l : Layout} {seen : List Nat}

/-- A layout from which the marks are taken away has none. -/
lemma clearMarks (l : Layout) : Marks l l.clearMarks [] := by
  constructor
  · intro id
    simp only [get?, Layout.clearMarks, List.getElem?_map, Option.map_map]
    rfl
  · intro id s h _
    obtain ⟨s₀, -, rfl⟩ := by simpa [get?, Layout.clearMarks] using h
    simp [Statement.clearMarks]

/-- Changing the marks of a statement keeps the layout up to marks, and changes the list at most
in this statement. -/
lemma modify (h : Marks l₀ l seen) {id : Nat} {f : Statement → Statement} {seen' : List Nat}
    (hf : ∀ s, (f s).clearMarks = s.clearMarks) (hother : ∀ i ≠ id, i ∈ seen' ↔ i ∈ seen)
    (hself : ∀ s, l.get? id = some s → (f s).kind.isParameter = false →
      ((f s).isCompiled = true ↔ id ∈ seen')) : Marks l₀ (l.modify id f) seen' := by
  constructor
  · intro i
    rw [← h.same i]
    by_cases hi : id = i
    · subst hi
      rw [get?_modify_self, Option.map_map]
      congr 1
      exact funext hf
    · rw [get?_modify_of_ne l f hi]
  · intro i s hs hp
    by_cases hi : id = i
    · subst hi
      rw [get?_modify_self] at hs
      obtain ⟨s₀, hs₀, rfl⟩ := Option.map_eq_some_iff.1 hs
      exact hself s₀ hs₀ hp
    · rw [get?_modify_of_ne l f hi] at hs
      rw [h.compiled i s hs hp, hother i (Ne.symm hi)]

/-- Marking a statement as part of the program puts it on the list. -/
lemma markCompiled (h : Marks l₀ l seen) (id : Nat) :
    Marks l₀ (l.markCompiled id) (id :: seen) :=
  h.modify (fun _ => rfl) (fun i hi => by simp [hi]) fun _ _ _ => by simp

/-- Marks on a parameter do not count. -/
lemma markParameter (h : Marks l₀ l seen) {id : Nat} {v : ParameterValue}
    (hid : (l.get? id).map Statement.kind = some (.parameter v)) :
    Marks l₀ (l.markCompiled id) seen := by
  refine h.modify (fun _ => rfl) (fun _ _ => Iff.rfl) fun s hs hp => ?_
  have hkind : s.kind = .parameter v := by simpa [hs] using hid
  simp [hkind, StatementKind.isParameter] at hp

/-- Dangling marks do not count. -/
lemma markDangling (h : Marks l₀ l seen) (id : Nat) : Marks l₀ (l.markDangling id) seen :=
  h.modify (fun _ => rfl) (fun _ _ => Iff.rfl) fun s hs hp => h.compiled id s hs hp

/-- Statements are found alike but for their marks. -/
lemma get?_eq_some (h : Marks l₀ l seen) {id : Nat} {s : Statement} (hs : l.get? id = some s) :
    ∃ s₀, l₀.get? id = some s₀ ∧ s₀.kind = s.kind ∧ s₀.outgoing = s.outgoing := by
  obtain ⟨s₀, hs₀, hclear⟩ := Option.map_eq_some_iff.1
    ((h.same id).symm.trans (by rw [hs, Option.map_some]))
  exact ⟨s₀, hs₀, Statement.of_clearMarks_eq hclear⟩

/-- So a statement is found with other marks. -/
lemma exists_get? (h : Marks l₀ l seen) {id : Nat} {s₀ : Statement} (hs₀ : l₀.get? id = some s₀) :
    ∃ s, l.get? id = some s ∧ s.kind = s₀.kind ∧ s.outgoing = s₀.outgoing := by
  obtain ⟨s, hs, hclear⟩ := Option.map_eq_some_iff.1
    ((h.same id).trans (by rw [hs₀, Option.map_some]))
  exact ⟨s, hs, Statement.of_clearMarks_eq hclear⟩

/-- Where a branch of a walk ends the chain leaves out the statement. -/
lemma skip (h : Marks l₀ l seen) {id : Nat}
    (hskip : ∀ s, l.get? id = some s → s.kind.isParameter = true ∨ s.isCompiled = true) :
    ∀ s₀, l₀.get? id = some s₀ → s₀.kind.isParameter = true ∨ id ∈ seen := by
  intro s₀ hs₀
  obtain ⟨s, hs, hkind, -⟩ := h.exists_get? hs₀
  rw [← hkind]
  by_cases hp : s.kind.isParameter = true
  · exact .inl hp
  · exact .inr ((h.compiled id s hs (by simpa using hp)).1 ((hskip s hs).resolve_left hp))

/-- What a statement says besides its marks is found alike. -/
lemma map_get? {α : Type} (h : Marks l₀ l seen) (f : Statement → α)
    (hf : ∀ s, f s.clearMarks = f s) (id : Nat) : (l.get? id).map f = (l₀.get? id).map f := by
  have hmap := congrArg (Option.map f) (h.same id)
  rw [Option.map_map, Option.map_map, show f ∘ Statement.clearMarks = f from funext hf] at hmap
  exact hmap

/-- A parameter is read alike, and reading it marks nothing that counts. The plug leads to the same
statement, which has the same kind, and only a parameter is marked by reading, while the marks that
count are those of the flow. -/
lemma readParameter (h : Marks l₀ l seen) (id : Nat) :
    (readParameter id l).1 = (StickerBot.readParameter id l₀).1 ∧
      Marks l₀ (StickerBot.readParameter id l).2 seen := by
  have hplug : (l.get? id).bind Statement.parameter? = (l₀.get? id).bind Statement.parameter? := by
    have hmap := h.map_get? Statement.parameter? (fun _ => rfl) id
    have hjoin := congrArg Option.join hmap
    simpa only [← Option.bind_id_eq_join, Option.bind_map, Function.id_comp] using hjoin
  have hkind := h.map_get? Statement.kind fun _ => rfl
  unfold StickerBot.readParameter
  rw [hplug]
  cases (l₀.get? id).bind Statement.parameter? with
  | none => exact ⟨rfl, h⟩
  | some target =>
    simp only [← hkind target]
    split
    · rename_i v hv
      exact ⟨rfl, h.markParameter hv⟩
    · exact ⟨rfl, h⟩

end Layout.Marks

/-! ### The walk writes the code of the chain -/

/-- **Writing letters.** Between two states of a generation the code of letters was written. -/
structure Writes (c : Context) (xs : List (Brace Sticker ParameterValue)) (c' : Context) :
    Prop where
  options : c'.options = c.options
  depth : c'.depth = xs.foldl (fun depth x => x.depthAfter depth) c.depth
  instructions : c'.instructions = c.instructions ++ Brace.codeFrom c.depth xs

namespace Writes

variable {c c' c'' : Context} {xs ys : List (Brace Sticker ParameterValue)}

/-- The code of letters comes before the code of later letters. -/
lemma codeFrom_append (xs ys : List (Brace Sticker ParameterValue)) :
    ∀ depth, Brace.codeFrom depth (xs ++ ys) = Brace.codeFrom depth xs ++
      Brace.codeFrom (xs.foldl (fun depth x => x.depthAfter depth) depth) ys := by
  induction xs with
  | nil => intro depth; rfl
  | cons x xs ih => intro depth; simp [Brace.codeFrom, ih]

/-- No letters write nothing, from any state. -/
lemma refl (c : Context) : Writes c [] c := ⟨rfl, rfl, (List.append_nil _).symm⟩

/-- Letters after letters are written one after the other; the second ones begin at the depth to
which the first ones have come. -/
lemma trans (h : Writes c xs c') (h' : Writes c' ys c'') : Writes c (xs ++ ys) c'' where
  options := h'.options.trans h.options
  depth := by rw [h'.depth, h.depth, List.foldl_append]
  instructions := by
    rw [h'.instructions, h.instructions, h.depth, codeFrom_append, List.append_assoc]

end Writes

/-- Remarks are written only if they are wanted. -/
lemma emitRemarks_eq {c : Context} (h : c.options.debug = false) (id : Nat) (name : String) :
    emitRemarks id name c = c := by
  simp [emitRemarks, h]

/-- **A statement** writes the code of its letter, and leaves marks that do not count.

**Proof sketch.** One case for each kind. Without remarks a letter is written as it is, for the
value that the parameter of the statement has, and the marks which this reading sets are of
parameters. -/
lemma emitStatement_writes {l₀ l : Layout} {seen : List Nat} (hm : l₀.Marks l seen) (id : Nat)
    {c : Context} (hdebug : c.options.debug = false) :
    l₀.Marks (emitStatement id l c).1 seen ∧
      Writes c (l₀.step? id).toList (emitStatement id l c).2 := by
  have hkind := hm.map_get? Statement.kind (fun _ => rfl) id
  obtain ⟨hvalue, hread⟩ := hm.readParameter id
  unfold emitStatement Layout.step?
  rcases hl : l.get? id with _ | s <;> rw [hl] at hkind
  · obtain hl₀ : l₀.get? id = none := by simpa using hkind.symm
    rw [hl₀]
    exact ⟨hm, .refl c⟩
  · obtain ⟨s₀, hl₀, hs₀⟩ := Option.map_eq_some_iff.1 hkind.symm
    rw [hl₀, Option.bind_some, hs₀]
    dsimp only
    cases s.kind with
    | start => exact ⟨hm, .refl c⟩
    | parameter v => exact ⟨hm, .refl c⟩
    | action a =>
      refine ⟨hm, ?_⟩
      rw [emitRemarks_eq hdebug]
      exact ⟨rfl, rfl, rfl⟩
    | wait =>
      refine ⟨hread, ?_⟩
      rw [emitRemarks_eq hdebug, hvalue]
      exact ⟨rfl, rfl, by simp [Context.emitAll, Brace.codeFrom, Brace.code, Context.counterName]⟩
    | loopBegin =>
      refine ⟨hread, ?_⟩
      rw [emitRemarks_eq hdebug, hvalue]
      exact ⟨rfl, rfl, by simp [Context.emitAll, Context.openBlock, Brace.codeFrom, Brace.code,
        Context.counterName]⟩
    | loopEnd =>
      refine ⟨hm, ?_⟩
      unfold emitLoopEnd Context.closeBlock
      cases hopen : c.openBlocks with
      | nil =>
        exact ⟨rfl, by simp [Context.report, Context.depth, hopen, Brace.depthAfter],
          by simp [Context.report, Context.depth, hopen, Brace.codeFrom, Brace.code]⟩
      | cons b bs =>
        exact ⟨rfl, by simp [Context.emit, Context.depth, hopen, Brace.depthAfter],
          by simp [Context.emit, Context.depth, hopen, Brace.codeFrom, Brace.code]⟩

/-- The statement that a task visits. -/
def WalkTask.target? : WalkTask → Option Nat
  | .visit id _ => some id
  | .dangle _ => none

/-- The targets of the tasks on the stack, when the one on top is a statement to visit. -/
@[simp] lemma filterMap_target?_visit (id depth : Nat) (rest : List WalkTask) :
    (WalkTask.visit id depth :: rest).filterMap WalkTask.target? =
      id :: rest.filterMap WalkTask.target? := rfl

/-- The tasks after a statement visit what its outgoing connectors lead to. -/
lemma filterMap_target?_branches (s : Statement) (id depth : Nat) :
    (branches s id depth).filterMap WalkTask.target? = s.outgoing.filterMap Connector.target := by
  rw [branches, List.filterMap_map]
  congr 1
  funext c
  rcases hc : c.target with _ | next <;> simp [hc, WalkTask.target?]

/-- What is not there, is a parameter or has its mark is not written. -/
lemma walk_skip {id depth : Nat} {l : Layout} {c : Context} (rest : List WalkTask)
    (hdepth : depth ≤ c.options.maxChainDepth)
    (h : ∀ s, l.get? id = some s → s.kind.isParameter = true ∨ s.isCompiled = true) :
    walk (.visit id depth :: rest) l c = walk rest l c := by
  rw [walk, if_neg (Nat.not_lt.2 hdepth)]
  split
  · rfl
  · rename_i s hs
    rcases h s hs with hp | hcompiled
    · rw [if_pos hp]
    · split <;> rfl

/-- A statement without its mark is written before all that it leads to. -/
lemma walk_new {id depth : Nat} {l : Layout} {c : Context} {s : Statement} (rest : List WalkTask)
    (hdepth : depth ≤ c.options.maxChainDepth) (hs : l.get? id = some s)
    (hp : s.kind.isParameter = false) (hcompiled : s.isCompiled = false) :
    walk (.visit id depth :: rest) l c =
      walk (branches s id depth ++ rest) (emitStatement id (l.markCompiled id) c).1
        (emitStatement id (l.markCompiled id) c).2 := by
  rw [walk, if_neg (Nat.not_lt.2 hdepth)]
  split
  · rename_i hnone
    exact absurd (hs.symm.trans hnone) (by simp)
  · rename_i s' hs'
    obtain rfl := Option.some.inj (hs.symm.trans hs')
    rw [if_neg (by simp [hp]), dif_neg (by simp [hcompiled])]

/-- **Induction along a walk.** A loose end has no statement, or it is reported. A task that visits
a statement is too far from the start, or its branch ends, or the statement is written. -/
@[elab_as_elim]
lemma walk_induction {motive : List WalkTask → Layout → Context → Prop}
    (done : ∀ l c, motive [] l c)
    (lost : ∀ l c id rest, l.get? id = none → motive rest l c → motive (.dangle id :: rest) l c)
    (dangle : ∀ l c id rest s, l.get? id = some s →
      motive rest (l.markDangling id) (c.report (danglingBranch id s.name)) →
      motive (.dangle id :: rest) l c)
    (deep : ∀ l (c : Context) id depth rest, c.options.maxChainDepth < depth →
      motive (.visit id depth :: rest) l c)
    (skip : ∀ l (c : Context) id depth rest, depth ≤ c.options.maxChainDepth →
      (∀ s, l.get? id = some s → s.kind.isParameter = true ∨ s.isCompiled = true) →
      motive rest l c → motive (.visit id depth :: rest) l c)
    (new : ∀ l (c : Context) id depth rest s, depth ≤ c.options.maxChainDepth →
      l.get? id = some s → s.kind.isParameter = false → s.isCompiled = false →
      motive (branches s id depth ++ rest) (emitStatement id (l.markCompiled id) c).1
        (emitStatement id (l.markCompiled id) c).2 → motive (.visit id depth :: rest) l c)
    (tasks : List WalkTask) (l : Layout) (c : Context) : motive tasks l c := by
  induction tasks, l, c using walk.induct with
  | case1 l c => exact done l c
  | case2 l c id rest hid ih => exact lost l c id rest hid ih
  | case3 l c id rest s hid ih => exact dangle l c id rest s hid ih
  | case4 l c id depth rest hdeep => exact deep l c id depth rest hdeep
  | case5 l c id depth rest hdepth hid ih =>
    exact skip l c id depth rest (Nat.not_lt.1 hdepth) (by simp [hid]) ih
  | case6 l c id depth rest hdepth s hid hp ih =>
    exact skip l c id depth rest (Nat.not_lt.1 hdepth) (by simp [hid, hp]) ih
  | case7 l c id depth rest hdepth s hid hp hcompiled ih =>
    exact skip l c id depth rest (Nat.not_lt.1 hdepth) (by simp [hid, hcompiled]) ih
  | case8 l c id depth rest hdepth s hid hp hcompiled r ih =>
    exact new l c id depth rest s (Nat.not_lt.1 hdepth) hid (by simpa using hp)
      (by simpa using hcompiled) ih

/-- **Walks.** A walk without remarks that comes to its end writes the code of the chain.

**Proof sketch.** Induction along the walk. A statement is on the chain where the walk finds it
without its mark, for parameters are skipped and all other marks are those of statements already
on the chain. -/
theorem walk_writes {l₀ : Layout} (tasks : List WalkTask) (l : Layout) (c : Context) :
    ∀ seen, l₀.Marks l seen → c.options.debug = false → ∀ c', (walk tasks l c).2 = .ok c' →
      Writes c ((l₀.chain seen (tasks.filterMap WalkTask.target?)).filterMap l₀.step?) c' := by
  induction tasks, l, c using walk_induction with
  | done l c =>
    intro seen _ _ c' h
    rw [walk] at h
    obtain rfl : c = c' := by simpa using h
    rw [List.filterMap_nil, Layout.chain]
    exact .refl c
  | lost l c id rest hid ih =>
    intro seen hm hdebug c' h
    rw [walk, hid] at h
    exact ih seen hm hdebug c' h
  | dangle l c id rest s hid ih =>
    intro seen hm hdebug c' h
    rw [walk, hid] at h
    obtain ⟨hoptions, hdepth, hinstructions⟩ := ih seen (hm.markDangling id) hdebug c' h
    exact ⟨hoptions, hdepth, hinstructions⟩
  | deep l c id depth rest hdeep =>
    intro seen _ _ c' h
    rw [walk, if_pos hdeep] at h
    exact absurd h (by simp)
  | skip l c id depth rest hdepth hskip ih =>
    intro seen hm hdebug c' h
    rw [walk_skip rest hdepth hskip] at h
    rw [filterMap_target?_visit, Layout.chain_skip _ (hm.skip hskip)]
    exact ih seen hm hdebug c' h
  | new l c id depth rest s hdepth hid hp hcompiled ih =>
    intro seen hm hdebug c' h
    obtain ⟨s₀, hid₀, hkind, houtgoing⟩ := hm.get?_eq_some hid
    have hnew : id ∉ seen := fun hseen => by
      simp [(hm.compiled id s hid hp).2 hseen] at hcompiled
    obtain ⟨hmarks, hwrites⟩ := emitStatement_writes (hm.markCompiled id) id hdebug
    rw [walk_new rest hdepth hid hp hcompiled] at h
    have hlater := ih (id :: seen) hmarks (by rw [hwrites.options]; exact hdebug) c' h
    rw [List.filterMap_append, filterMap_target?_branches] at hlater
    rw [filterMap_target?_visit, Layout.chain_new _ hid₀ (by rw [hkind]; exact hp) hnew,
      houtgoing, List.filterMap_cons]
    have hall := hwrites.trans hlater
    cases hstep : l₀.step? id <;> simpa [hstep] using hall

end StickerBot
