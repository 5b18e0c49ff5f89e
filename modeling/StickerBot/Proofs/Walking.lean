import StickerBot.Proofs.Reaching
set_option autoImplicit false

/-!
# What a walk keeps

A walk does one task after the other. What holds before its first task and is kept by each of
them holds when there is nothing left to do. In this way the marks that a walk leaves are found:
each task marks what it should, and nothing else.

## Main definitions

* `WalkKeeps` — what the tasks of a walk keep.
* `Statement.Configures`, `Statement.IsLoose` — a statement reads another as its parameter, and
  a statement has a connector that leads nowhere.
* `Layout.WellMarked` — the marks of parameters and of loose ends are right.

## Main results

* `WalkKeeps.walk` — what the tasks keep the walk keeps.
* `get?_emitStatement_markCompiled` — what a task marks that writes a statement.
* `walkKeeps_chain`, `walkKeeps_wellMarked` — a walk visits the chain, and marks well.
-/

namespace StickerBot

/-! ### Induction along a walk -/

/-- **Kept along a walk.** A property of the statements written so far, the last first, of what is
left to do, and of the layout and the context. Each of the four things that a task can come to
keeps it. -/
structure WalkKeeps (P : List Nat → List WalkTask → Layout → Context → Prop) : Prop where
  /-- There is no statement whose connector could be reported. -/
  lost : ∀ {seen id rest l c}, l.get? id = none → P seen (.dangle id :: rest) l c → P seen rest l c
  /-- A connector that leads nowhere is reported. -/
  dangle : ∀ {seen id rest l c s}, l.get? id = some s → P seen (.dangle id :: rest) l c →
    P seen rest (l.markDangling id) (c.report (danglingBranch id s.name))
  /-- A branch ends. -/
  skip : ∀ {seen id depth rest l c},
    (∀ s, l.get? id = some s → s.kind.isParameter = true ∨ s.isCompiled = true) →
    P seen (.visit id depth :: rest) l c → P seen rest l c
  /-- A statement is written. -/
  new : ∀ {seen id depth rest l c s}, l.get? id = some s → s.kind.isParameter = false →
    s.isCompiled = false → P seen (.visit id depth :: rest) l c →
    P (id :: seen) (branches s id depth ++ rest) (emitStatement id (l.markCompiled id) c).1
      (emitStatement id (l.markCompiled id) c).2

/-- **Walks** that come to their end keep what their tasks keep. By induction on the walk. Each of
its steps is one of those that the property is kept by, and a walk that was too deep has no end of
this kind. -/
theorem WalkKeeps.walk {P : List Nat → List WalkTask → Layout → Context → Prop} (h : WalkKeeps P)
    (tasks : List WalkTask) (l : Layout) (c : Context) :
    ∀ seen, P seen tasks l c → ∀ c', (walk tasks l c).2 = .ok c' →
      ∃ seen', P seen' [] (StickerBot.walk tasks l c).1 c' := by
  induction tasks, l, c using walk_induction with
  | done l c =>
    intro seen hp c' hw
    rw [StickerBot.walk] at hw ⊢
    obtain rfl : c = c' := by simpa using hw
    exact ⟨seen, hp⟩
  | lost l c id rest hid ih =>
    intro seen hp c' hw
    rw [StickerBot.walk, hid] at hw ⊢
    exact ih seen (h.lost hid hp) c' hw
  | dangle l c id rest s hid ih =>
    intro seen hp c' hw
    rw [StickerBot.walk, hid] at hw ⊢
    exact ih seen (h.dangle hid hp) c' hw
  | deep l c id depth rest hdeep =>
    intro seen _ c' hw
    rw [StickerBot.walk, if_pos hdeep] at hw
    exact absurd hw (by simp)
  | skip l c id depth rest hdepth hskip ih =>
    intro seen hp c' hw
    rw [walk_skip rest hdepth hskip] at hw ⊢
    exact ih seen (h.skip hskip hp) c' hw
  | new l c id depth rest s hdepth hid hparam hcompiled ih =>
    intro seen hp c' hw
    rw [walk_new rest hdepth hid hparam hcompiled] at hw ⊢
    exact ih (id :: seen) (h.new hid hparam hcompiled hp) c' hw

/-- Two things that are kept are kept together. -/
lemma WalkKeeps.and {P Q : List Nat → List WalkTask → Layout → Context → Prop} (hp : WalkKeeps P)
    (hq : WalkKeeps Q) : WalkKeeps fun seen tasks l c => P seen tasks l c ∧ Q seen tasks l c where
  lost hid h := ⟨hp.lost hid h.1, hq.lost hid h.2⟩
  dangle hid h := ⟨hp.dangle hid h.1, hq.dangle hid h.2⟩
  skip hskip h := ⟨hp.skip hskip h.1, hq.skip hskip h.2⟩
  new hid hparam hcompiled h := ⟨hp.new hid hparam hcompiled h.1, hq.new hid hparam hcompiled h.2⟩

/-! ### What one task marks -/

namespace Statement

/-- The statement, marked as part of the program if this is wanted. -/
def markIf (b : Bool) (s : Statement) : Statement := { s with isCompiled := s.isCompiled || b }

/-- The statement, marked as loose if this is wanted. -/
def looseIf (b : Bool) (s : Statement) : Statement := { s with isDangling := s.isDangling || b }

/-- Marking a statement as compiled under a false condition does nothing. -/
@[simp] lemma markIf_false : markIf false = id := by
  funext s
  simp [markIf]

/-- Marking a statement as dangling under a false condition does nothing. -/
@[simp] lemma looseIf_false : looseIf false = id := by
  funext s
  simp [looseIf]

/-- Marking twice is marking if either condition holds. -/
@[simp] lemma markIf_markIf (b b' : Bool) (s : Statement) :
    (s.markIf b).markIf b' = s.markIf (b || b') := by
  simp [markIf, Bool.or_assoc]

/-- A mark does not change what a statement is. -/
@[simp] lemma kind_markIf (b : Bool) (s : Statement) : (s.markIf b).kind = s.kind := rfl

/-- A statement counts as compiled if it did before, or is marked now. -/
@[simp] lemma isCompiled_markIf (b : Bool) (s : Statement) :
    (s.markIf b).isCompiled = (s.isCompiled || b) := rfl

/-- Marking a statement as compiled does not make it dangling. -/
@[simp] lemma isDangling_markIf (b : Bool) (s : Statement) :
    (s.markIf b).isDangling = s.isDangling := rfl

/-- Being dangling does not change what a statement is. -/
@[simp] lemma kind_looseIf (b : Bool) (s : Statement) : (s.looseIf b).kind = s.kind := rfl

/-- Marking a statement as dangling does not make it compiled. -/
@[simp] lemma isCompiled_looseIf (b : Bool) (s : Statement) :
    (s.looseIf b).isCompiled = s.isCompiled := rfl

/-- A statement counts as dangling if it did before, or is marked now. -/
@[simp] lemma isDangling_looseIf (b : Bool) (s : Statement) :
    (s.looseIf b).isDangling = (s.isDangling || b) := rfl

/-- **Configuring.** A wait or a repeat reads the statement of a number as its parameter. -/
def Configures (s : Statement) (id : Nat) : Prop :=
  (s.kind = .wait ∨ s.kind = .loopBegin) ∧ s.parameter? = some id

/-- Whether a statement configures itself with another can be computed from its connectors. -/
instance (s : Statement) (id : Nat) : Decidable (s.Configures id) :=
  inferInstanceAs (Decidable (_ ∧ _))

/-- **Loose ends.** A statement of the flow has an outgoing connector that leads nowhere. -/
def IsLoose (s : Statement) : Prop :=
  s.kind.isParameter = false ∧ ∃ c ∈ s.outgoing, c.target = none

/-- A mark does not change with what a statement configures itself. -/
@[simp] lemma configures_markIf (b : Bool) (s : Statement) (id : Nat) :
    (s.markIf b).Configures id ↔ s.Configures id := Iff.rfl

/-- Being dangling does not change with what a statement configures itself. -/
@[simp] lemma configures_looseIf (b : Bool) (s : Statement) (id : Nat) :
    (s.looseIf b).Configures id ↔ s.Configures id := Iff.rfl

/-- A mark does not change whether a connector of a statement is loose. -/
@[simp] lemma isLoose_markIf (b : Bool) (s : Statement) : (s.markIf b).IsLoose ↔ s.IsLoose :=
  Iff.rfl

/-- Being marked as dangling does not change whether a connector is loose; the mark follows the
connectors, and not the other way round. -/
@[simp] lemma isLoose_looseIf (b : Bool) (s : Statement) : (s.looseIf b).IsLoose ↔ s.IsLoose :=
  Iff.rfl

/-- A parameter configures nothing. -/
lemma Configures.isParameter_eq_false {s : Statement} {id : Nat} (h : s.Configures id) :
    s.kind.isParameter = false := by
  rcases h.1 with hk | hk <;> rw [hk] <;> rfl

end Statement

namespace Layout

/-- What a mark changes. -/
lemma get?_markCompiled (l : Layout) (id i : Nat) :
    (l.markCompiled id).get? i = (l.get? i).map (Statement.markIf (decide (i = id))) := by
  unfold markCompiled
  by_cases hi : id = i
  · subst hi
    rw [get?_modify_self, decide_eq_true rfl]
    congr 1
    funext s
    simp [Statement.markIf]
  · rw [get?_modify_of_ne _ _ hi]
    simp [Ne.symm hi]

/-- What a mark of a loose end changes. -/
lemma get?_markDangling (l : Layout) (id i : Nat) :
    (l.markDangling id).get? i = (l.get? i).map (Statement.looseIf (decide (i = id))) := by
  unfold markDangling
  by_cases hi : id = i
  · subst hi
    rw [get?_modify_self, decide_eq_true rfl]
    congr 1
    funext s
    simp [Statement.looseIf]
  · rw [get?_modify_of_ne _ _ hi]
    simp [Ne.symm hi]

end Layout

/-- What reading a parameter marks. Reading marks the statement behind the plug if this is a
parameter, and nothing otherwise; both are said at once by a condition on each statement. -/
lemma get?_readParameter {l : Layout} {id : Nat} {s : Statement} (hs : l.get? id = some s)
    (i : Nat) : (readParameter id l).2.get? i = (l.get? i).map fun t =>
      t.markIf (decide (s.parameter? = some i ∧ t.kind.isParameter = true)) := by
  unfold readParameter
  rw [hs, Option.bind_some]
  rcases s.parameter? with _ | target
  · simp
  · have htarget : some target = some i ↔ i = target := by rw [Option.some.injEq, eq_comm]
    dsimp only
    split
    · rename_i v hv
      rw [Layout.get?_markCompiled]
      rcases hi : l.get? i with _ | t
      · rfl
      · by_cases hne : i = target
        · subst hne
          have hkind : t.kind = .parameter v := by simpa [hi] using hv
          simp [hkind, StatementKind.isParameter]
        · simp [htarget, hne]
    · rename_i hnot
      rcases hi : l.get? i with _ | t
      · rfl
      · by_cases hne : i = target
        · subst hne
          have hkind : t.kind.isParameter = false := by
            rw [hi, Option.map_some] at hnot
            cases hk : t.kind with
            | parameter v => exact absurd (congrArg some hk) (hnot v)
            | _ => rfl
          simp [hkind]
        · simp [htarget, hne]

/-- What writing a statement marks. -/
lemma get?_emitStatement {l : Layout} {id : Nat} {s : Statement} (hs : l.get? id = some s)
    (c : Context) (i : Nat) : (emitStatement id l c).1.get? i = (l.get? i).map fun t =>
      t.markIf (decide (s.Configures i ∧ t.kind.isParameter = true)) := by
  have hread := get?_readParameter hs i
  obtain ⟨kind, name, marker, connectors, compiled, dangling⟩ := s
  unfold emitStatement Statement.Configures
  rw [hs]
  cases kind with
  | wait => simpa using hread
  | loopBegin => simpa using hread
  | _ => simp

/-- **What a task marks** that writes a statement: the statement, and the parameter that it
reads. -/
theorem get?_emitStatement_markCompiled {l : Layout} {id : Nat} {s : Statement}
    (hs : l.get? id = some s) (c : Context) (i : Nat) :
    (emitStatement id (l.markCompiled id) c).1.get? i = (l.get? i).map fun t =>
      t.markIf (decide (i = id ∨ s.Configures i ∧ t.kind.isParameter = true)) := by
  have hs' : (l.markCompiled id).get? id = some (s.markIf true) := by
    simp [Layout.get?_markCompiled, hs]
  rw [get?_emitStatement hs', Layout.get?_markCompiled, Option.map_map]
  congr 1
  funext t
  simp

/-- Where there is a statement, a task marks it if it should. -/
lemma get?_emitStatement_of_get? {l : Layout} {id i : Nat} {s t : Statement}
    (hs : l.get? id = some s) (ht : l.get? i = some t) (c : Context) :
    (emitStatement id (l.markCompiled id) c).1.get? i =
      some (t.markIf (decide (i = id ∨ s.Configures i ∧ t.kind.isParameter = true))) := by
  rw [get?_emitStatement_markCompiled hs, ht, Option.map_some]

/-! ### The chain is visited -/

/-- Writing a statement marks it, and else nothing but parameters. -/
lemma Layout.Marks.emitStatement {l₀ l : Layout} {seen : List Nat} (h : l₀.Marks l seen) {id : Nat}
    {s : Statement} (hs : l.get? id = some s) (c : Context) :
    l₀.Marks (emitStatement id (l.markCompiled id) c).1 (id :: seen) := by
  constructor
  · intro i
    rw [get?_emitStatement_markCompiled hs, Option.map_map, ← h.same i]
    rfl
  · intro i t' ht' hp
    rw [get?_emitStatement_markCompiled hs] at ht'
    obtain ⟨t, ht, rfl⟩ := Option.map_eq_some_iff.1 ht'
    rw [Statement.kind_markIf] at hp
    simp [hp, h.compiled i t ht hp, or_comm]

/-- **The chain is visited.** What was written and the chain of what is left to visit remain one
chain all along a walk. -/
theorem walkKeeps_chain (l₀ : Layout) (whole : List Nat) : WalkKeeps fun seen tasks l _ =>
    l₀.Marks l seen ∧ seen.reverse ++ l₀.chain seen (tasks.filterMap WalkTask.target?) = whole where
  lost _ h := h
  dangle _ h := ⟨h.1.markDangling _, h.2⟩
  skip := by
    intro seen id depth rest l c hskip ⟨hm, hchain⟩
    refine ⟨hm, ?_⟩
    rwa [filterMap_target?_visit, Layout.chain_skip _ (hm.skip hskip)] at hchain
  new := by
    intro seen id depth rest l c s hs hp hcompiled ⟨hm, hchain⟩
    refine ⟨hm.emitStatement hs c, ?_⟩
    obtain ⟨s₀, hs₀, hkind, houtgoing⟩ := hm.get?_eq_some hs
    have hnew : id ∉ seen := fun h => by
      simp [(hm.compiled id s hs hp).2 h] at hcompiled
    rw [filterMap_target?_visit, Layout.chain_new _ hs₀ (by rw [hkind]; exact hp) hnew,
      houtgoing] at hchain
    rw [List.filterMap_append, filterMap_target?_branches, List.reverse_cons, List.append_assoc]
    exact hchain

/-! ### The marks of parameters and of loose ends -/

/-- A connector of a statement is to be reported after it exactly if one leads nowhere. -/
lemma dangle_mem_branches {s : Statement} {id depth i : Nat} (hp : s.kind.isParameter = false) :
    .dangle i ∈ branches s id depth ↔ i = id ∧ s.IsLoose := by
  simp only [branches, List.mem_map, Statement.IsLoose, hp, true_and]
  constructor
  · rintro ⟨c, hc, htask⟩
    split at htask
    · exact absurd htask (by simp)
    · rename_i hnone
      obtain rfl := WalkTask.dangle.inj htask
      exact ⟨rfl, c, hc, hnone⟩
  · rintro ⟨rfl, c, hc, hnone⟩
    exact ⟨c, hc, by simp [hnone]⟩

namespace Layout

/-- **Well marked.** A parameter is marked if a marked statement reads it. A statement that is
marked as loose is marked and has a loose end; and every marked statement with a loose end is
marked as loose, or this is still to be done. -/
structure WellMarked (tasks : List WalkTask) (l : Layout) : Prop where
  parameter : ∀ id s, l.get? id = some s → s.kind.isParameter = true →
    (s.isCompiled = true ↔ ∃ owner o, l.get? owner = some o ∧ o.isCompiled = true ∧
      o.Configures id)
  dangling : ∀ id s, l.get? id = some s → s.isDangling = true →
    s.isCompiled = true ∧ s.IsLoose
  pending : ∀ id s, l.get? id = some s → s.isCompiled = true → s.IsLoose →
    s.isDangling = true ∨ .dangle id ∈ tasks
  dangle : ∀ id, .dangle id ∈ tasks → ∃ s, l.get? id = some s ∧ s.isCompiled = true ∧ s.IsLoose

/-- A layout without marks is well marked, and no loose end is to be reported. Nothing is compiled
and nothing is dangling, so that all that is asked of marked statements is asked of none. -/
lemma wellMarked_clearMarks (l : Layout) (start : Nat) :
    WellMarked [.visit start 0] l.clearMarks := by
  have hclear : ∀ id s, l.clearMarks.get? id = some s →
      s.isCompiled = false ∧ s.isDangling = false := by
    intro id s hs
    obtain ⟨s₀, -, rfl⟩ := by simpa [get?, clearMarks] using hs
    exact ⟨rfl, rfl⟩
  constructor
  · intro id s hs _
    simp only [(hclear id s hs).1, Bool.false_eq_true, false_iff]
    rintro ⟨owner, o, ho, hcompiled, -⟩
    simp [(hclear owner o ho).1] at hcompiled
  · intro id s hs h
    simp [(hclear id s hs).2] at h
  · intro id s hs h
    simp [(hclear id s hs).1] at h
  · intro id h
    simp at h

section WellMarked

variable {rest : List WalkTask} {l : Layout} {id depth : Nat} {s : Statement}

/-- A branch that ends leaves nothing to report. -/
lemma WellMarked.skip (h : WellMarked (.visit id depth :: rest) l) : WellMarked rest l where
  parameter := h.parameter
  dangling := h.dangling
  pending i t ht hcompiled hloose := by simpa using h.pending i t ht hcompiled hloose
  dangle i hmem := h.dangle i (List.mem_cons_of_mem _ hmem)

/-- A loose end that is reported is marked. What is loose and was still to be reported is now
marked; the marks of all other statements, and who reads whom, are as before. -/
lemma WellMarked.markDangling (h : WellMarked (.dangle id :: rest) l) :
    WellMarked rest (l.markDangling id) := by
  obtain ⟨s, hs, hcompiled, hloose⟩ := h.dangle id List.mem_cons_self
  have hget : ∀ i t', (l.markDangling id).get? i = some t' →
      ∃ t, l.get? i = some t ∧ t.looseIf (decide (i = id)) = t' := fun i t' ht' => by
    rwa [get?_markDangling, Option.map_eq_some_iff] at ht'
  have hput : ∀ i t, l.get? i = some t →
      (l.markDangling id).get? i = some (t.looseIf (decide (i = id))) := fun i t ht => by
    rw [get?_markDangling, ht, Option.map_some]
  constructor
  · intro i t' ht' hp
    obtain ⟨t, ht, rfl⟩ := hget i t' ht'
    refine (h.parameter i t ht hp).trans ⟨?_, ?_⟩
    · rintro ⟨owner, o, ho, hoc, hconf⟩
      exact ⟨owner, _, hput owner o ho, hoc, hconf⟩
    · rintro ⟨owner, o', ho', hoc, hconf⟩
      obtain ⟨o, ho, rfl⟩ := hget owner o' ho'
      exact ⟨owner, o, ho, hoc, hconf⟩
  · intro i t' ht' hd
    obtain ⟨t, ht, rfl⟩ := hget i t' ht'
    rw [Statement.isDangling_looseIf, Bool.or_eq_true, decide_eq_true_eq] at hd
    rcases hd with hd | rfl
    · exact h.dangling i t ht hd
    · obtain rfl := Option.some.inj (hs.symm.trans ht)
      exact ⟨hcompiled, hloose⟩
  · intro i t' ht' htc htl
    obtain ⟨t, ht, rfl⟩ := hget i t' ht'
    rcases h.pending i t ht htc htl with hd | hmem
    · exact .inl (by simp [hd])
    · rcases List.mem_cons.1 hmem with heq | hmem
      · obtain rfl := WalkTask.dangle.inj heq
        exact .inl (by simp)
      · exact .inr hmem
  · intro i hmem
    obtain ⟨t, ht, htc, htl⟩ := h.dangle i (List.mem_cons_of_mem _ hmem)
    exact ⟨_, hput i t ht, htc, htl⟩

/-- After a statement is written, marked statements read what they read before and what it reads.
Writing marks the statement itself and the parameter that it reads. The parameter reads none itself,
so that it is no new reader. -/
lemma exists_reader_emitStatement_iff (hs : l.get? id = some s) (c : Context) (i : Nat) :
    (∃ owner o, (StickerBot.emitStatement id (l.markCompiled id) c).1.get? owner = some o ∧
        o.isCompiled = true ∧ o.Configures i) ↔
      (∃ owner o, l.get? owner = some o ∧ o.isCompiled = true ∧ o.Configures i) ∨
        s.Configures i := by
  constructor
  · rintro ⟨owner, o', ho', hoc, hconf⟩
    rw [get?_emitStatement_markCompiled hs, Option.map_eq_some_iff] at ho'
    obtain ⟨o, ho, rfl⟩ := ho'
    rw [Statement.configures_markIf] at hconf
    by_cases howner : owner = id
    · subst howner
      obtain rfl := Option.some.inj (hs.symm.trans ho)
      exact .inr hconf
    · -- what reads a parameter is none, so it is not marked with this task
      have hoc : o.isCompiled = true := by
        simpa [howner, hconf.isParameter_eq_false] using hoc
      exact .inl ⟨owner, o, ho, hoc, hconf⟩
  · rintro (⟨owner, o, ho, hoc, hconf⟩ | hconf)
    · exact ⟨owner, _, get?_emitStatement_of_get? hs ho c, by simp [hoc], hconf⟩
    · exact ⟨id, _, get?_emitStatement_of_get? hs hs c, by simp, hconf⟩

/-- A statement that is written is marked with the parameter that it reads, and its loose ends are
to be reported. -/
lemma WellMarked.emitStatement (h : WellMarked (.visit id depth :: rest) l)
    (hs : l.get? id = some s) (hp : s.kind.isParameter = false) (c : Context) :
    WellMarked (branches s id depth ++ rest) (emitStatement id (l.markCompiled id) c).1 := by
  have hget : ∀ i t', (StickerBot.emitStatement id (l.markCompiled id) c).1.get? i = some t' →
      ∃ t, l.get? i = some t ∧
        t.markIf (decide (i = id ∨ s.Configures i ∧ t.kind.isParameter = true)) = t' :=
    fun i t' ht' => by
      rwa [get?_emitStatement_markCompiled hs, Option.map_eq_some_iff] at ht'
  constructor
  · intro i t' ht' htp
    obtain ⟨t, ht, rfl⟩ := hget i t' ht'
    rw [Statement.kind_markIf] at htp
    have hne : i ≠ id := by
      rintro rfl
      obtain rfl := Option.some.inj (hs.symm.trans ht)
      simp [hp] at htp
    rw [exists_reader_emitStatement_iff hs, ← h.parameter i t ht htp]
    simp [hne, htp]
  · intro i t' ht' hd
    obtain ⟨t, ht, rfl⟩ := hget i t' ht'
    obtain ⟨htc, htl⟩ := h.dangling i t ht hd
    exact ⟨by simp [htc], htl⟩
  · intro i t' ht' htc htl
    obtain ⟨t, ht, rfl⟩ := hget i t' ht'
    have htl : t.IsLoose := htl
    simp only [Statement.isCompiled_markIf, htl.1, Bool.false_eq_true, and_false, or_false,
      Bool.or_eq_true, decide_eq_true_eq] at htc
    rcases htc with htc | rfl
    · have hold := h.pending i t ht htc htl
      exact hold.imp_right fun hmem => List.mem_append_right _ (by simpa using hmem)
    · obtain rfl := Option.some.inj (hs.symm.trans ht)
      exact .inr (List.mem_append_left _ ((dangle_mem_branches hp).2 ⟨rfl, htl⟩))
  · intro i hmem
    rcases List.mem_append.1 hmem with hmem | hmem
    · obtain ⟨rfl, hloose⟩ := (dangle_mem_branches hp).1 hmem
      exact ⟨_, get?_emitStatement_of_get? hs hs c, by simp, hloose⟩
    · obtain ⟨t, ht, htc, htl⟩ := h.dangle i (List.mem_cons_of_mem _ hmem)
      exact ⟨_, get?_emitStatement_of_get? hs ht c, by simp [htc], htl⟩

end WellMarked

end Layout

/-- **A walk marks well.** -/
theorem walkKeeps_wellMarked : WalkKeeps fun _ tasks l _ => l.WellMarked tasks where
  lost hid h := by
    obtain ⟨s, hs, -⟩ := h.dangle _ List.mem_cons_self
    exact absurd (hs.symm.trans hid) (by simp)
  dangle _ h := h.markDangling
  skip _ h := h.skip
  new hid hp _ h := h.emitStatement hid hp _

end StickerBot
