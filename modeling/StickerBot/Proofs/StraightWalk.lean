import StickerBot.Proofs.SingleFile
set_option autoImplicit false

/-!
# Walks in single file

On a page of the standard sheet the walk that writes a program never meets a statement that it has
written already, for the chain behind Begin is a single file. So a program has the code of the
stickers in the order in which they are plugged together, from Begin to a plug that leads nowhere or
to a parameter.

## Main definitions

* `WalkState`, `WalkStep` — what is left of a walk, and what one task of it comes to.
* `WalkState.Revisits` — the next task leads to a statement that is written already.
* `Layout.StandsInFile` — a page whose program is written along a single file.

## Main results

* `WalkStep.outcome_eq`, `WalkState.exists_step` — a walk does its tasks step by step.
* `walk_file` — a walk along a file never comes back, and it comes to its end within the limit.
* `standsInFile_standard` — pages of the standard sheet.
-/

namespace StickerBot

/-! ### Steps of a walk -/

/-- **States of a walk**: what is left to do, and what was made of the layout and the program. -/
structure WalkState where
  tasks : List WalkTask
  layout : Layout
  context : Context

/-- What comes out of a walk from a state. -/
def WalkState.outcome (w : WalkState) : Layout × Except GenerateError Context :=
  walk w.tasks w.layout w.context

/-- **Steps of a walk.** What a task comes to that is not too far from the start. -/
inductive WalkStep : WalkState → WalkState → Prop where
  /-- There is no statement whose connector could be reported. -/
  | lost {id rest l c} (hid : l.get? id = none) : WalkStep ⟨.dangle id :: rest, l, c⟩ ⟨rest, l, c⟩
  /-- A connector that leads nowhere is reported. -/
  | dangle {id rest l c s} (hid : l.get? id = some s) :
    WalkStep ⟨.dangle id :: rest, l, c⟩
      ⟨rest, l.markDangling id, c.report (danglingBranch id s.name)⟩
  /-- A branch ends. -/
  | skip {id depth rest l c} (hdepth : depth ≤ c.options.maxChainDepth)
    (hskip : ∀ s, l.get? id = some s → s.kind.isParameter = true ∨ s.isCompiled = true) :
    WalkStep ⟨.visit id depth :: rest, l, c⟩ ⟨rest, l, c⟩
  /-- A statement is written. -/
  | new {id depth rest l c s} (hdepth : depth ≤ c.options.maxChainDepth)
    (hid : l.get? id = some s) (hp : s.kind.isParameter = false) (hnew : s.isCompiled = false) :
    WalkStep ⟨.visit id depth :: rest, l, c⟩
      ⟨branches s id depth ++ rest, (emitStatement id (l.markCompiled id) c).1,
        (emitStatement id (l.markCompiled id) c).2⟩

/-- **Walking** goes on from where a step comes to. -/
theorem WalkStep.outcome_eq {w w' : WalkState} (h : WalkStep w w') : w.outcome = w'.outcome := by
  unfold WalkState.outcome
  cases h with
  | lost hid => rw [walk, hid]
  | dangle hid => rw [walk, hid]
  | skip hdepth hskip => exact walk_skip _ hdepth hskip
  | new hdepth hid hp hnew => exact walk_new _ hdepth hid hp hnew

/-- A walk that cannot go on has nothing left to do or has gone too far. -/
theorem WalkState.exists_step (w : WalkState) (htasks : w.tasks ≠ [])
    (hdepth : ∀ id depth rest, w.tasks = .visit id depth :: rest →
      depth ≤ w.context.options.maxChainDepth) : ∃ w', WalkStep w w' := by
  obtain ⟨tasks, l, c⟩ := w
  cases tasks with
  | nil => exact absurd rfl htasks
  | cons task rest =>
    cases task with
    | dangle id =>
      cases hid : l.get? id with
      | none => exact ⟨_, .lost hid⟩
      | some s => exact ⟨_, .dangle hid⟩
    | visit id depth =>
      have hd := hdepth id depth rest rfl
      by_cases hskip : ∀ s, l.get? id = some s → s.kind.isParameter = true ∨ s.isCompiled = true
      · exact ⟨_, .skip hd hskip⟩
      · push Not at hskip
        obtain ⟨s, hs, hp, hnew⟩ := hskip
        exact ⟨_, .new hd hs (by simpa using hp) (by simpa using hnew)⟩

/-- A walk has one way to go on. The first task of a walk decides by which rule it goes on, and
whether a statement to visit is skipped or written is decided by its kind and its mark. -/
lemma WalkStep.unique {w w' w'' : WalkState} (h : WalkStep w w') (h' : WalkStep w w'') :
    w' = w'' := by
  cases h with
  | lost hid =>
    cases h' with
    | lost _ => rfl
    | dangle hid' => exact absurd (hid.symm.trans hid') (by simp)
  | dangle hid =>
    cases h' with
    | lost hid' => exact absurd (hid.symm.trans hid') (by simp)
    | dangle hid' =>
      obtain rfl := Option.some.inj (hid.symm.trans hid')
      rfl
  | skip _ hskip =>
    cases h' with
    | skip _ _ => rfl
    | new _ hid hp hnew => exact absurd (hskip _ hid) (by simp [hp, hnew])
  | new _ hid hp hnew =>
    cases h' with
    | skip _ hskip => exact absurd (hskip _ hid) (by simp [hp, hnew])
    | new _ hid' _ _ =>
      obtain rfl := Option.some.inj (hid.symm.trans hid')
      rfl

/-- The task behind the connector of a statement. -/
def WalkTask.behind (id depth : Nat) : Option Nat → WalkTask
  | some next => .visit next (depth + 1)
  | none => .dangle id

/-- Behind a statement with one outgoing connector there is one task. -/
lemma branches_of_map {s : Statement} {target : Option Nat}
    (h : s.outgoing.map Connector.target = [target]) (id depth : Nat) :
    branches s id depth = [.behind id depth target] := by
  obtain ⟨c, hc, rfl⟩ := List.map_eq_singleton_iff.1 h
  rw [branches, hc, List.map_singleton]
  cases c.target <;> rfl

/-! ### Walks that go straight on -/

namespace WalkState

/-- **Coming back.** The next task leads to a statement of the flow that is written already. -/
def Revisits (w : WalkState) : Prop :=
  ∃ id depth rest s, w.tasks = .visit id depth :: rest ∧ w.layout.get? id = some s ∧
    s.kind.isParameter = false ∧ s.isCompiled = true

/-- **Going straight on.** A walk never comes back to what it has written. -/
def GoesStraight (w : WalkState) : Prop :=
  ∀ w', Relation.ReflTransGen WalkStep w w' → ¬ w'.Revisits

/-- A walk comes to its end. -/
def Ends (w : WalkState) : Prop := ∃ c, w.outcome.2 = .ok c

/-- The walk from the start of a page, before its first step. -/
def first (l : Layout) (options : GenerateOptions) (start : Nat) : WalkState :=
  ⟨[.visit start 0], l.clearMarks, .start options⟩

variable {w w' : WalkState} {id depth : Nat} {l : Layout} {c : Context} {s : Statement}

/-- A walk goes straight on if it does so behind its next step. -/
lemma GoesStraight.of_step (h : w'.GoesStraight) (hstep : WalkStep w w') (hw : ¬ w.Revisits) :
    w.GoesStraight := by
  intro x hx
  rcases hx.cases_head with rfl | ⟨y, hy, hx⟩
  · exact hw
  · obtain rfl := hstep.unique hy
    exact h x hx

/-- A walk that cannot go on goes straight on. -/
lemma GoesStraight.of_stuck (h : ∀ w', ¬ WalkStep w w') (hw : ¬ w.Revisits) : w.GoesStraight := by
  intro x hx
  rcases hx.cases_head with rfl | ⟨y, hy, -⟩
  · exact hw
  · exact absurd hy (h y)

/-- Nothing is left to do. -/
lemma goesStraight_nil (l : Layout) (c : Context) : GoesStraight ⟨[], l, c⟩ := by
  refine .of_stuck (fun w' h => by cases h) ?_
  rintro ⟨id, depth, rest, s, htasks, -⟩
  exact absurd htasks (by simp)

/-- A walk with nothing left to do ends, and returns what it has written. -/
lemma ends_nil (l : Layout) (c : Context) : Ends ⟨[], l, c⟩ := ⟨c, by rw [outcome, walk]⟩

/-- A statement that is too far from the start ends a walk. -/
lemma not_step_of_deep (id : Nat) (l : Layout) (rest : List WalkTask)
    (hdeep : c.options.maxChainDepth < depth) :
    (∀ w', ¬ WalkStep ⟨.visit id depth :: rest, l, c⟩ w') ∧
      ¬ Ends ⟨.visit id depth :: rest, l, c⟩ := by
  constructor
  · intro w' h
    cases h with
    | skip hdepth _ => omega
    | new hdepth _ _ _ => omega
  · rintro ⟨c', hc'⟩
    rw [outcome, walk, if_pos hdeep] at hc'
    exact absurd hc' (by simp)

/-- A walk comes to its end if it does so behind its next step. -/
lemma ends_iff_of_step (hstep : WalkStep w w') : w.Ends ↔ w'.Ends := by
  rw [Ends, hstep.outcome_eq, Ends]

/-- What is no statement of the flow without its mark is not come back to. -/
lemma not_revisits {rest : List WalkTask} (hs : l.get? id = some s)
    (h : s.kind.isParameter = true ∨ s.isCompiled = false) :
    ¬ Revisits ⟨.visit id depth :: rest, l, c⟩ := by
  rintro ⟨id', depth', rest', t, htasks, ht, hp, hcompiled⟩
  obtain ⟨htask, -⟩ := List.cons.inj htasks
  obtain ⟨rfl, -⟩ := WalkTask.visit.inj htask
  obtain rfl := Option.some.inj (hs.symm.trans ht)
  simp [hp, hcompiled] at h

/-- A loose end is the last thing that a walk reports. -/
lemma straight_dangle (hs : l.get? id = some s) :
    GoesStraight ⟨[.dangle id], l, c⟩ ∧ Ends ⟨[.dangle id], l, c⟩ := by
  have hstep : WalkStep ⟨[.dangle id], l, c⟩ _ := .dangle hs
  refine ⟨(goesStraight_nil _ _).of_step hstep ?_, (ends_iff_of_step hstep).2 (ends_nil _ _)⟩
  rintro ⟨id', depth', rest', t, htasks, -⟩
  exact absurd htasks (by simp)

/-- A parameter is the last thing that a walk visits, if it is within the limit. -/
lemma straight_parameter (hs : l.get? id = some s) (hp : s.kind.isParameter = true) :
    GoesStraight ⟨[.visit id depth], l, c⟩ ∧
      (Ends ⟨[.visit id depth], l, c⟩ ↔ depth ≤ c.options.maxChainDepth) := by
  have hnot : ¬ Revisits ⟨[.visit id depth], l, c⟩ := not_revisits hs (.inl hp)
  by_cases hdepth : depth ≤ c.options.maxChainDepth
  · have hstep : WalkStep ⟨[.visit id depth], l, c⟩ _ :=
      .skip hdepth fun t ht => .inl (Option.some.inj (hs.symm.trans ht) ▸ hp)
    exact ⟨(goesStraight_nil _ _).of_step hstep hnot,
      fun _ => hdepth, fun _ => (ends_iff_of_step hstep).2 (ends_nil _ _)⟩
  · obtain ⟨hstuck, hends⟩ := not_step_of_deep id l [] (Nat.lt_of_not_le hdepth)
    exact ⟨.of_stuck hstuck hnot, fun h => absurd h hends, fun h => absurd h hdepth⟩

/-- What is at the end of a file is the last thing that a walk comes to. -/
lemma straight_behind {ending : Option Nat} (hs : l.get? id = some s)
    (hparameter : ∀ p ∈ ending, ∃ t, l.get? p = some t ∧ t.kind.isParameter = true)
    (hdepth : depth ≤ c.options.maxChainDepth) :
    GoesStraight ⟨[.behind id depth ending], l, c⟩ ∧
      (Ends ⟨[.behind id depth ending], l, c⟩ ↔
        depth + ending.toList.length ≤ c.options.maxChainDepth) := by
  cases ending with
  | none =>
    obtain ⟨hstraight, hends⟩ := straight_dangle (c := c) hs
    exact ⟨hstraight, fun _ => hdepth, fun _ => hends⟩
  | some p =>
    obtain ⟨t, ht, hp⟩ := hparameter p rfl
    exact straight_parameter ht hp

end WalkState

/-! ### Along a file -/

/-- What comes behind the first statement of a file is a file. -/
lemma Layout.IsFile.tail {l : Layout} {id next : Nat} {rest : List Nat} {ending : Option Nat}
    (h : l.IsFile id (id :: next :: rest) ending) : l.IsFile next (next :: rest) ending where
  head := rfl
  flow i hi := h.flow i (List.mem_cons_of_mem _ hi)
  linked := h.linked.tail
  last i hi := h.last i (by rwa [List.getLast?_cons_cons])
  parameter := h.parameter

open WalkState in
/-- Behind the last statement of a file a walk comes to what is at the end of the file. -/
lemma Layout.IsFile.straight_last {l₀ l : Layout} {id depth : Nat} {ending : Option Nat}
    {seen : List Nat} {c : Context} (h : l₀.IsFile id [id] ending) (hm : l₀.Marks l seen)
    (hdepth : depth ≤ c.options.maxChainDepth) :
    GoesStraight ⟨[.behind id depth ending], l, c⟩ ∧
      (Ends ⟨[.behind id depth ending], l, c⟩ ↔
        depth + ([id] ++ ending.toList).length ≤ c.options.maxChainDepth + 1) := by
  obtain ⟨s₀, hs₀, -⟩ := h.last id rfl
  obtain ⟨s, hs, -, -⟩ := hm.exists_get? hs₀
  have hparameter : ∀ p ∈ ending, ∃ t, l.get? p = some t ∧ t.kind.isParameter = true :=
    fun p hp => by
      obtain ⟨t, ht, hparam⟩ := h.parameter p hp
      obtain ⟨t', ht', hkind, -⟩ := hm.exists_get? ht
      exact ⟨t', ht', by rw [hkind, hparam]⟩
  obtain ⟨hstraight, hends⟩ := straight_behind hs hparameter hdepth
  refine ⟨hstraight, hends.trans ?_⟩
  rw [List.length_append, List.length_singleton]
  omega

open WalkState Layout in
/-- **A walk along a file** never comes back, and it comes to its end exactly if the file and what
is at its end are within the limit.

**Proof sketch.** Induction on the file. The first statement was not written before, and behind it
there is one task: to visit the next one. -/
theorem walk_file {l₀ : Layout} {ending : Option Nat} (hl : l₀.IsUnbranched) (ids : List Nat) :
    ∀ (id depth : Nat) (seen : List Nat) (l : Layout) (c : Context), l₀.Marks l seen →
      l₀.IsFile id ids ending → (ids ++ seen).Nodup →
      GoesStraight ⟨[.visit id depth], l, c⟩ ∧
      (Ends ⟨[.visit id depth], l, c⟩ ↔
        depth + (ids ++ ending.toList).length ≤ c.options.maxChainDepth + 1) := by
  induction ids with
  | nil => exact fun id depth seen l c _ hfile => absurd hfile.head (by simp)
  | cons id rest ih =>
    intro id' depth seen l c hm hfile hnodup
    obtain rfl : id = id' := by simpa using hfile.head
    obtain ⟨s₀, hs₀, hp₀⟩ := hfile.flow id List.mem_cons_self
    obtain ⟨s, hs, hkind, houtgoing⟩ := hm.exists_get? hs₀
    obtain ⟨target, htarget⟩ := hl.exists_target hs₀ hp₀
    have hp : s.kind.isParameter = false := by rw [hkind, hp₀]
    have hcompiled : s.isCompiled = false := by
      rw [← Bool.not_eq_true, hm.compiled id s hs hp]
      exact fun hseen => (List.nodup_cons.1 hnodup).1 (List.mem_append_right _ hseen)
    have hnot : ¬ Revisits ⟨[.visit id depth], l, c⟩ := not_revisits hs (.inr hcompiled)
    by_cases hdeep : c.options.maxChainDepth < depth
    · obtain ⟨hstuck, hends⟩ := not_step_of_deep id l [] hdeep
      refine ⟨.of_stuck hstuck hnot, fun h => absurd h hends, fun h => ?_⟩
      rw [List.cons_append, List.length_cons] at h
      omega
    · have hstep : WalkStep ⟨[.visit id depth], l, c⟩ _ := .new (Nat.not_lt.1 hdeep) hs hp hcompiled
      rw [branches_of_map (houtgoing ▸ htarget), List.append_nil] at hstep
      have hm' := hm.emitStatement hs c
      have hoptions : (emitStatement id (l.markCompiled id) c).2.options = c.options :=
        options_emitStatement _ _ _
      generalize emitStatement id (l.markCompiled id) c = written at hstep hm' hoptions
      have hrest : GoesStraight ⟨[.behind id depth target], written.1, written.2⟩ ∧
          (Ends ⟨[.behind id depth target], written.1, written.2⟩ ↔
            depth + (id :: rest ++ ending.toList).length ≤
              written.2.options.maxChainDepth + 1) := by
        cases rest with
        | nil =>
          obtain ⟨t, ht, hlast⟩ := hfile.last id rfl
          obtain rfl := Option.some.inj (hs₀.symm.trans ht)
          obtain rfl : target = ending := by simpa using htarget.symm.trans hlast
          exact hfile.straight_last hm' (by rw [hoptions]; omega)
        | cons next rest =>
          obtain rfl : target = some next :=
            (plugsInto_iff hs₀ htarget).1 ((List.isChain_cons_cons.1 hfile.linked).1)
          obtain ⟨hstraight, hends⟩ := ih next (depth + 1) (id :: seen) written.1 written.2 hm'
            hfile.tail (List.perm_middle.nodup_iff.2 hnodup)
          refine ⟨hstraight, hends.trans ?_⟩
          simp only [List.length_append, List.length_cons]
          omega
      rw [ends_iff_of_step hstep, ← hoptions]
      exact ⟨hrest.1.of_step hstep hnot, hrest.2⟩

/-! ### Pages of the standard sheet -/

/-- **Standing in file.** The chain of a page is a single file from its start, and its program is
written along it. -/
structure Layout.StandsInFile (l : Layout) (start : Nat) (ids : List Nat) (ending : Option Nat) :
    Prop where
  file : l.IsFile start ids ending
  /-- Whatever leads along the plugs from the start comes to no statement twice, and stays in the
  file and at its end. -/
  once : ∀ path : List Nat, path.head? = some start → path.IsChain l.PlugsInto →
    path.Nodup ∧ path <+: ids ++ ending.toList
  /-- One statement plugs into each but the start, and it is in the file. -/
  before : ∀ id ∈ ids, id ≠ start → ∃ before ∈ ids, ∀ other, l.PlugsInto other id ↔ other = before
  /-- The walk never comes to a statement that is written already. -/
  straight : ∀ options, (WalkState.first l options start).GoesStraight
  /-- There is a program if the file and what is at its end are within the limit. -/
  generated : ∀ options, (∃ g, (generate l options).2 = .ok g) ↔
    (ids ++ ending.toList).length ≤ options.maxChainDepth + 1
  /-- The program holds the code of the file, in its order. -/
  code : ∀ options l' g, generate l options = (l', .ok g) →
    g.program.instructions = (l.pieces options.debug .start ids).flatMap Piece.code

/-- A program is generated from a start exactly if the walk from it comes to its end. -/
lemma exists_generate_iff {l : Layout} {start : Nat} (h : l.start? = some start)
    (options : GenerateOptions) :
    (∃ g, (generate l options).2 = .ok g) ↔ (WalkState.first l options start).Ends := by
  rw [generate_of_start? h, WalkState.Ends, WalkState.outcome, WalkState.first]
  rcases walk [.visit start 0] l.clearMarks (.start options) with ⟨l', e | c⟩ <;> simp

/-- An unbranched page with one start stands in file. The chain from the start is a file, along
which the walk goes without meeting a statement twice; the other parts say of this file what the
walk makes of it. -/
theorem Layout.IsUnbranched.standsInFile {l : Layout} (h : l.IsUnbranched) {start : Nat}
    (hstart : l.start? = some start) : ∃ ids ending, l.StandsInFile start ids ending := by
  obtain ⟨ending, hfile⟩ := h.exists_isFile hstart
  have hwalk := fun options : GenerateOptions =>
    walk_file h (l.chain [] [start]) start 0 [] l.clearMarks (.start options) (.clearMarks l) hfile
      (by rw [List.append_nil]; exact nodup_chain l [] [start])
  refine ⟨_, ending, hfile, fun path hhead hpath => ?_, fun id hid hne => ?_, fun options => ?_,
    fun options => ?_, fun options l' g hg => ?_⟩
  · exact ⟨h.nodup_of_isChain hstart hhead hpath, hfile.prefix_of_isChain h hhead hpath⟩
  · exact hfile.exists_before h hid hne
  · exact (hwalk options).1
  · rw [exists_generate_iff hstart]
    exact (hwalk options).2.trans (by rw [Nat.zero_add]; rfl)
  · obtain ⟨c, rfl, hwalked⟩ := exists_walked hg
    have hcode := hwalked.code
    rwa [written, hstart] at hcode

/-- **Pages of the standard sheet stand in file.** However the stickers of a page lie and whatever
of their zones overlaps, if there is one Begin then the plugs lead from it along a single file that
never comes back, to a plug that leads nowhere or to a parameter; and the program holds the code of
the file in its order, with no statement met again on the way.

**Proof sketch.** Stickers of the standard sheet have one plug for what comes after and one socket
for what comes before, and a socket takes one plug. -/
theorem standsInFile_standard {δ : Type} (distances : δ → δ → Ordering) [Std.TransCmp distances]
    (overlap : Zone → Zone → Option δ) (ms : List Marker)
    (hcount : (Layout.ofMarkers .standard ms).1.startCount = 1) :
    ∃ start ids ending,
      ((Layout.ofMarkers .standard ms).1.connectBy distances overlap).1.start? = some start ∧
      ((Layout.ofMarkers .standard ms).1.connectBy distances overlap).1.StandsInFile start ids
        ending := by
  have hslim := Layout.isSlim_ofMarkers Catalog.isSlim_standard ms
  have hunbranched := Layout.isUnbranched_connectBy hslim distances overlap
  obtain ⟨start, hstart⟩ := Layout.exists_start?
    ((Layout.startCount_connectBy distances overlap _).trans hcount)
  obtain ⟨ids, ending, hfile⟩ := hunbranched.standsInFile hstart
  exact ⟨start, ids, ending, hstart, hfile⟩

/-- Markers on top of each other, and a parameter where the next sticker should be. -/
def heapedMarkers : List Marker :=
  [⟨47, ⟨40, 0⟩, 0, 20⟩, ⟨31, ⟨0, 0⟩, 0, 20⟩, ⟨59, ⟨40, 0⟩, 0, 20⟩, ⟨115, ⟨80, 0⟩, 0, 20⟩,
    ⟨151, ⟨100, 20⟩, 0, 20⟩]

/-- Heaped markers stand in file, by their distances in the plane. -/
theorem standsInFile_heapedMarkers :
    Std.TransCmp compareTotal ∧
      (Layout.ofMarkers .standard heapedMarkers).1.startCount = 1 ∧
      ∃ start ids ending,
        (Layout.ofMarkers .standard heapedMarkers).1.connect.1.start? = some start ∧
        (Layout.ofMarkers .standard heapedMarkers).1.connect.1.StandsInFile start ids ending := by
  have hcount : (Layout.ofMarkers .standard heapedMarkers).1.startCount = 1 := by decide +kernel
  exact ⟨inferInstance, hcount,
    standsInFile_standard compareTotal Zone.overlap heapedMarkers hcount⟩

end StickerBot
