import StickerBot.Proofs.Coverage
import StickerBot.Proofs.Renaming
set_option autoImplicit false

/-!
# Renamed layouts have the same program

A walk goes from connector to connector, and in the order of connectors. It never compares the
numbers of statements, so on a layout with other numbers it writes the same instructions and marks
the same statements, and it fails where it would have failed.

## Main definitions

* `Context.IsRenaming` — two contexts differ in the numbers of statements only.
* `WalkTask.rename`, `GenerateError.rename` — tasks and errors that name other numbers.
* `Renamed` — results of walks that differ in the numbers of statements only.

## Main results

* `renamed_walk` — a walk on a renamed layout has the renamed result.
* `Layout.IsRenaming.start?_eq` — the start of a renamed layout is the renamed start.
* `renamed_generate` — the program of a renamed layout is the same.
-/

namespace StickerBot

variable {ρ : Equiv.Perm Nat} {l l' : Layout} {c c' : Context}

/-! ### Marks and parameters of renamed layouts -/

namespace Statement

/-- The outgoing connectors of a renamed statement are its outgoing connectors, renamed. -/
@[simp] lemma outgoing_rename (s : Statement) :
    (s.rename ρ).outgoing = s.outgoing.map (Connector.rename ρ) := by
  simp only [outgoing, rename, List.filter_map]
  rfl

/-- The parameter of a renamed statement is its parameter under its new number. -/
@[simp] lemma parameter?_rename (s : Statement) :
    (s.rename ρ).parameter? = s.parameter?.map ρ := by
  have hfind : (s.rename ρ).connectors.find? (fun c => c.direction = .parameter) =
      (s.connectors.find? fun c => c.direction = .parameter).map (Connector.rename ρ) := by
    rw [rename, List.find?_map]
    rfl
  unfold parameter?
  rw [hfind]
  cases s.connectors.find? fun c => c.direction = .parameter <;> rfl

end Statement

namespace Layout.IsRenaming

/-- Marking the renamed statement marks the statement. -/
lemma markCompiled (h : l.IsRenaming ρ l') (id : Nat) :
    (l.markCompiled id).IsRenaming ρ (l'.markCompiled (ρ id)) := by
  intro i
  rw [get?_markCompiled, get?_markCompiled, h, Option.map_map, Option.map_map]
  simp only [EmbeddingLike.apply_eq_iff_eq]
  rfl

/-- Marking the renamed statement as loose marks the statement as loose. -/
lemma markDangling (h : l.IsRenaming ρ l') (id : Nat) :
    (l.markDangling id).IsRenaming ρ (l'.markDangling (ρ id)) := by
  intro i
  rw [get?_markDangling, get?_markDangling, h, Option.map_map, Option.map_map]
  simp only [EmbeddingLike.apply_eq_iff_eq]
  rfl

/-- Taking the marks away does not depend on numbers. -/
lemma clearMarks (h : l.IsRenaming ρ l') : l.clearMarks.IsRenaming ρ l'.clearMarks := by
  have hget : ∀ (l : Layout) i, l.clearMarks.get? i = (l.get? i).map Statement.clearMarks :=
    fun l i => List.getElem?_map
  intro id
  rw [hget, hget, h, Option.map_map, Option.map_map]
  rfl

/-- The renamed statement reads the renamed parameter. The parameter is found over a plug, which
leads to the renamed statement; this has the same kind, and is marked exactly if the other one
is. -/
lemma readParameter (h : l.IsRenaming ρ l') (id : Nat) :
    (readParameter (ρ id) l').1 = (StickerBot.readParameter id l).1 ∧
      (StickerBot.readParameter id l).2.IsRenaming ρ (StickerBot.readParameter (ρ id) l').2 := by
  have hplug : (l'.get? (ρ id)).bind Statement.parameter? =
      ((l.get? id).bind Statement.parameter?).map ρ := by
    rw [h]
    cases l.get? id with
    | none => rfl
    | some s => exact s.parameter?_rename
  have hkind : ∀ target, (l'.get? (ρ target)).map Statement.kind =
      (l.get? target).map Statement.kind := fun target => by
    rw [h, Option.map_map]
    rfl
  unfold StickerBot.readParameter
  rw [hplug]
  cases (l.get? id).bind Statement.parameter? with
  | none => exact ⟨rfl, h⟩
  | some target =>
    simp only [Option.map_some, hkind]
    split
    · exact ⟨rfl, h.markCompiled target⟩
    · exact ⟨rfl, h⟩

end Layout.IsRenaming

/-! ### Writing a renamed statement -/

/-- **Renaming contexts.** Two contexts hold the same instructions, which come from statements of
other numbers. What they report is left open. -/
structure Context.IsRenaming (ρ : Equiv.Perm Nat) (c c' : Context) : Prop where
  options : c'.options = c.options
  instructions : c'.instructions = c.instructions
  nextTrace : c'.nextTrace = c.nextTrace
  depth : c'.depth = c.depth
  traceMap : ∀ point, c'.traceMap.get? point = (c.traceMap.get? point).map ρ

namespace Context.IsRenaming

/-- Writing the same instructions keeps contexts renamed. -/
lemma emitAll (h : c.IsRenaming ρ c') (is : List Instruction) :
    (c.emitAll is).IsRenaming ρ (c'.emitAll is) :=
  ⟨h.options, congrArg (· ++ is) h.instructions, h.nextTrace, h.depth, h.traceMap⟩

/-- Reporting keeps contexts renamed, whatever is reported in each of them: what they report is
compared elsewhere. -/
lemma report (h : c.IsRenaming ρ c') (d d' : Diagnostic) :
    (c.report d).IsRenaming ρ (c'.report d') :=
  ⟨h.options, h.instructions, h.nextTrace, h.depth, h.traceMap⟩

/-- Opening a block in both contexts keeps them renamed; the blocks may belong to statements of
other numbers. -/
lemma openBlock (h : c.IsRenaming ρ c') (b b' : OpenBlock) :
    (c.openBlock b).IsRenaming ρ (c'.openBlock b') :=
  ⟨h.options, h.instructions, h.nextTrace, congrArg Nat.succ h.depth, h.traceMap⟩

/-- Renamed contexts count a loop with the same variable, because it depends on the depth alone. -/
lemma counterName (h : c.IsRenaming ρ c') : c'.counterName = c.counterName := by
  unfold Context.counterName
  rw [h.depth]

/-- A trace point comes from the renamed statement. -/
lemma tracePoint (h : c.IsRenaming ρ c') (id : Nat) :
    (c.tracePoint id).2.IsRenaming ρ (c'.tracePoint (ρ id)).2 := by
  refine ⟨h.options, h.instructions, congrArg (· + 1) h.nextTrace, h.depth, fun point => ?_⟩
  simp only [Context.tracePoint, h.nextTrace]
  by_cases hpoint : point = c.nextTrace
  · subst hpoint
    rw [Table.get?_insert_self, Table.get?_insert_self, Option.map_some]
  · rw [Table.get?_insert_of_ne _ _ hpoint, Table.get?_insert_of_ne _ _ hpoint]
    exact h.traceMap point

/-- The remarks of the renamed statement. -/
lemma emitRemarks (h : c.IsRenaming ρ c') (id : Nat) (name : String) :
    (emitRemarks id name c).IsRenaming ρ (StickerBot.emitRemarks (ρ id) name c') := by
  unfold StickerBot.emitRemarks
  rw [h.options]
  split
  · have htrace := (h.tracePoint id).emitAll [.trace c.nextTrace, .print name]
    simpa only [Context.tracePoint, h.nextTrace] using htrace
  · exact h

/-- The end of a repeat closes a loop in both contexts or in none. The contexts have equally many
open blocks. If there is none a diagnostic is reported in both, and otherwise the innermost one is
closed in both. -/
lemma emitLoopEnd (h : c.IsRenaming ρ c') (id : Nat) (name : String) :
    (emitLoopEnd id name c).IsRenaming ρ (StickerBot.emitLoopEnd (ρ id) name c') := by
  have hdepth := h.depth
  unfold StickerBot.emitLoopEnd Context.closeBlock
  unfold Context.depth at hdepth
  cases hopen : c.openBlocks with
  | nil =>
    rw [hopen, List.length_nil, List.length_eq_zero_iff] at hdepth
    rw [hdepth]
    exact h.report _ _
  | cons b bs =>
    rw [hopen] at hdepth
    obtain ⟨b', bs', hopen'⟩ := List.exists_cons_of_length_eq_add_one hdepth
    rw [hopen', List.length_cons, List.length_cons, Nat.succ.injEq] at hdepth
    rw [hopen']
    exact ⟨h.options, congrArg (· ++ [Instruction.close]) h.instructions, h.nextTrace, hdepth,
      h.traceMap⟩

end Context.IsRenaming

/-- **Writing** the renamed statement writes the same. One case for each kind. What is written
depends on the action, the value of the parameter and the depth of the loops, none of which is a
number of a statement. -/
lemma renamed_emitStatement (h : l.IsRenaming ρ l') (hc : c.IsRenaming ρ c') (id : Nat) :
    (emitStatement id l c).1.IsRenaming ρ (emitStatement (ρ id) l' c').1 ∧
      (emitStatement id l c).2.IsRenaming ρ (emitStatement (ρ id) l' c').2 := by
  obtain ⟨hvalue, hread⟩ := h.readParameter id
  unfold emitStatement
  rw [h]
  cases l.get? id with
  | none => exact ⟨h, hc⟩
  | some s =>
    have hremarks := hc.emitRemarks id s.name
    obtain ⟨kind, name, marker, connectors, compiled, dangling⟩ := s
    simp only [Option.map_some, Statement.rename, hvalue]
    cases kind with
    | start => exact ⟨h, hc⟩
    | parameter v => exact ⟨h, hc⟩
    | action a => exact ⟨h, hremarks.emitAll [.native a []]⟩
    | wait =>
      refine ⟨hread, ?_⟩
      rw [hremarks.counterName]
      exact hremarks.emitAll _
    | loopBegin =>
      refine ⟨hread, ?_⟩
      rw [hremarks.counterName]
      exact (hremarks.emitAll _).openBlock _ _
    | loopEnd => exact ⟨h, hc.emitLoopEnd id name⟩

/-! ### Renamed walks -/

/-- A task at the statement of another number. -/
def WalkTask.rename (ρ : Equiv.Perm Nat) : WalkTask → WalkTask
  | .visit id depth => .visit (ρ id) depth
  | .dangle id => .dangle (ρ id)

/-- An error that names another number. -/
def GenerateError.rename (ρ : Equiv.Perm Nat) : GenerateError → GenerateError
  | .chainTooDeep limit statement => .chainTooDeep limit (ρ statement)
  | e => e

/-- **Renamed results.** The layouts are renamed; and both walks have come to their end and the
contexts are renamed, or both have failed and the errors are renamed. -/
structure Renamed (ρ : Equiv.Perm Nat) (x x' : Layout × Except GenerateError Context) : Prop where
  layout : x.1.IsRenaming ρ x'.1
  outcome : (∃ c c', x.2 = .ok c ∧ x'.2 = .ok c' ∧ c.IsRenaming ρ c') ∨
    ∃ e, x.2 = .error e ∧ x'.2 = .error (e.rename ρ)

/-- What is to be done after the renamed statement. -/
lemma branches_rename (s : Statement) (id depth : Nat) :
    branches (s.rename ρ) (ρ id) depth = (branches s id depth).map (WalkTask.rename ρ) := by
  simp only [branches, Statement.outgoing_rename, List.map_map]
  refine List.map_congr_left fun c _ => ?_
  obtain ⟨name, direction, zone, target⟩ := c
  cases target <;> rfl

/-- Where a walk skips a statement the other walk skips the renamed statement. -/
lemma renamed_skip {id depth : Nat} {rest : List WalkTask}
    (hdepth : depth ≤ c.options.maxChainDepth) (h : l.IsRenaming ρ l') (hc : c.IsRenaming ρ c')
    (hskip : ∀ s, l.get? id = some s → s.kind.isParameter = true ∨ s.isCompiled = true)
    (hrest : Renamed ρ (walk rest l c) (walk (rest.map (WalkTask.rename ρ)) l' c')) :
    Renamed ρ (walk (.visit id depth :: rest) l c)
      (walk ((WalkTask.visit id depth :: rest).map (WalkTask.rename ρ)) l' c') := by
  have hskip' : ∀ s', l'.get? (ρ id) = some s' →
      s'.kind.isParameter = true ∨ s'.isCompiled = true := by
    intro s' hs'
    rw [h] at hs'
    obtain ⟨s, hs, rfl⟩ := Option.map_eq_some_iff.1 hs'
    exact hskip s hs
  rw [List.map_cons, WalkTask.rename, walk_skip rest hdepth hskip,
    walk_skip _ (by rwa [hc.options]) hskip']
  exact hrest

/-- **Renamed walks.** A walk on a renamed layout has the renamed result.

**Proof sketch.** By induction on the walk, with the renamed tasks on the other side. In each case
the first task decides in both walks by the same test, because a renamed statement has the same kind
and the same marks. -/
theorem renamed_walk (tasks : List WalkTask) (l : Layout) (c : Context) :
    ∀ (l' : Layout) (c' : Context), l.IsRenaming ρ l' → c.IsRenaming ρ c' →
      Renamed ρ (walk tasks l c) (walk (tasks.map (WalkTask.rename ρ)) l' c') := by
  induction tasks, l, c using walk_induction with
  | done l c =>
    intro l' c' h hc
    rw [List.map_nil, walk, walk]
    exact ⟨h, .inl ⟨c, c', rfl, rfl, hc⟩⟩
  | lost l c id rest hid ih =>
    intro l' c' h hc
    have hid' : l'.get? (ρ id) = none := by rw [h, hid]; rfl
    rw [List.map_cons, WalkTask.rename, walk, walk, hid, hid']
    exact ih l' c' h hc
  | dangle l c id rest s hid ih =>
    intro l' c' h hc
    have hid' : l'.get? (ρ id) = some (s.rename ρ) := by rw [h, hid]; rfl
    rw [List.map_cons, WalkTask.rename, walk, walk, hid, hid']
    exact ih _ _ (h.markDangling id) (hc.report _ _)
  | deep l c id depth rest hdeep =>
    intro l' c' h hc
    rw [List.map_cons, WalkTask.rename, walk, walk, hc.options, if_pos hdeep, if_pos hdeep]
    exact ⟨h, .inr ⟨_, rfl, rfl⟩⟩
  | skip l c id depth rest hdepth hskip ih =>
    intro l' c' h hc
    exact renamed_skip hdepth h hc hskip (ih l' c' h hc)
  | new l c id depth rest s hdepth hid hp hcompiled ih =>
    intro l' c' h hc
    have hid' : l'.get? (ρ id) = some (s.rename ρ) := by rw [h, hid]; rfl
    have hdepth' : depth ≤ c'.options.maxChainDepth := hc.options ▸ hdepth
    obtain ⟨hlayout, hcontext⟩ := renamed_emitStatement (h.markCompiled id) hc id
    rw [List.map_cons, WalkTask.rename, walk_new rest hdepth hid hp hcompiled,
      walk_new _ hdepth' hid' hp hcompiled, branches_rename, ← List.map_append]
    exact ih _ _ hlayout hcontext

/-! ### The start of a renamed layout -/

namespace Layout

/-- The numbers of a renamed layout are the renamed numbers. -/
lemma IsRenaming.perm_range (h : l.IsRenaming ρ l') :
    ((List.range l.size).map ρ).Perm (List.range l'.size) := by
  have hsize : ∀ (l : Layout) id, id < l.size ↔ (l.get? id).isSome = true := fun l id => by
    simp [size, get?]
  refine (List.perm_ext_iff_of_nodup (List.nodup_range.map ρ.injective) List.nodup_range).2
    fun id' => ?_
  rw [List.mem_map, List.mem_range, hsize]
  constructor
  · rintro ⟨id, hid, rfl⟩
    rw [h, Option.isSome_map, ← hsize]
    exact List.mem_range.1 hid
  · intro hid'
    refine ⟨ρ.symm id', List.mem_range.2 ?_, ρ.apply_symm_apply id'⟩
    rwa [hsize, ← Option.isSome_map (f := Statement.rename ρ), ← h, ρ.apply_symm_apply]

/-- As many statements of a renamed layout begin a program. -/
lemma IsRenaming.startCount_eq (h : l.IsRenaming ρ l') : l'.startCount = l.startCount := by
  have hcount : ∀ l : Layout, l.startCount =
      (List.range l.size).countP fun id => (l.get? id).any fun s => s.kind.isStart := by
    intro l
    unfold startCount
    rw [statements_eq_filterMap, List.countP_filterMap]
    refine List.countP_congr fun id _ => ?_
    cases l.get? id <;> simp
  rw [hcount, hcount, ← h.perm_range.countP_eq, List.countP_map]
  refine List.countP_congr fun id _ => ?_
  rw [Function.comp_apply, h, Option.any_map]
  rfl

/-- **The start** of a renamed layout is the renamed start. It is characterised by its kind and by
the number of starts, on both of which the renaming has no influence. -/
theorem IsRenaming.start?_eq (h : l.IsRenaming ρ l') : l'.start? = l.start?.map ρ := by
  have hstart : ∀ start, l'.start? = some (ρ start) ↔ l.start? = some start := fun start => by
    rw [start?_eq_some_iff, start?_eq_some_iff, h.startCount_eq, h]
    refine and_congr_right fun _ => ?_
    constructor
    · rintro ⟨s', hs', hstart⟩
      obtain ⟨s, hs, rfl⟩ := Option.map_eq_some_iff.1 hs'
      exact ⟨s, hs, hstart⟩
    · rintro ⟨s, hs, hstart⟩
      exact ⟨s.rename ρ, by rw [hs, Option.map_some], hstart⟩
  refine Option.ext fun start' => ?_
  rw [← ρ.apply_symm_apply start', hstart, Option.map_eq_some_iff]
  constructor
  · exact fun hs => ⟨_, hs, rfl⟩
  · rintro ⟨start, hs, heq⟩
    rwa [← ρ.injective heq]

end Layout

/-! ### Renamed programs -/

/-- **Renamed programs.** The layouts are renamed; and both programs were written, of the same
instructions, whose trace points come from the renamed statements, or none was, for the renamed
reason. -/
structure RenamedProgram (ρ : Equiv.Perm Nat) (x x' : Layout × Except GenerateError Generated) :
    Prop where
  layout : x.1.IsRenaming ρ x'.1
  outcome : (∃ g g', x.2 = .ok g ∧ x'.2 = .ok g' ∧
      g'.program.instructions = g.program.instructions ∧
      ∀ point, g'.program.traceMap.get? point = (g.program.traceMap.get? point).map ρ) ∨
    ∃ e, x.2 = .error e ∧ x'.2 = .error (e.rename ρ)

/-- **Programs do not depend on numbers.** The start of the renamed layout is the renamed start,
from which both walks begin. Without a start, or with several of them, both are refused with the
same error. -/
theorem renamed_generate (h : l.IsRenaming ρ l') (options : GenerateOptions) :
    RenamedProgram ρ (generate l options) (generate l' options) := by
  have hcontext : (Context.start options).IsRenaming ρ (.start options) :=
    ⟨rfl, rfl, rfl, rfl, fun _ => rfl⟩
  have hstart' := h.start?_eq
  cases hstart : l.start? with
  | none =>
    rw [hstart, Option.map_none] at hstart'
    rw [generate_of_start?_eq_none hstart, generate_of_start?_eq_none hstart', h.startCount_eq]
    refine ⟨h, .inr ⟨_, rfl, ?_⟩⟩
    split <;> rfl
  | some start =>
    rw [hstart, Option.map_some] at hstart'
    obtain ⟨hlayout, houtcome⟩ := renamed_walk [.visit start 0] l.clearMarks (.start options)
      l'.clearMarks (.start options) h.clearMarks hcontext
    rw [generate_of_start? hstart, generate_of_start? hstart']
    rcases hwalk : walk [.visit start 0] l.clearMarks (.start options) with ⟨l₁, r⟩
    rcases hwalk' : walk [.visit (ρ start) 0] l'.clearMarks (.start options) with ⟨l₁', r'⟩
    have hlist : [WalkTask.visit start 0].map (WalkTask.rename ρ) = [.visit (ρ start) 0] := rfl
    rw [hlist, hwalk, hwalk'] at hlayout houtcome
    dsimp only at hlayout houtcome
    rcases houtcome with ⟨c, c', rfl, rfl, hc⟩ | ⟨e, rfl, rfl⟩
    · exact ⟨hlayout, .inl ⟨_, _, rfl, rfl, hc.instructions, hc.traceMap⟩⟩
    · exact ⟨hlayout, .inr ⟨e, rfl, rfl⟩⟩

end StickerBot
