import Mathlib.Order.Bounds.Defs
import StickerBot.Proofs.Coverage
set_option autoImplicit false

/-!
# What the limit on chains does

A walk is ended by the first task that is too far from the start, whatever there is to do at it. So
the limit is not on the stickers that are written but on the connectors that are followed: a sticker
at the very limit may be written, but nothing may be connected behind it, not even a sticker that
would add nothing to the program. A walk that is not ended does what it does without a limit.

## Main definitions

* `soundWalk` — a walk that logs how far from the start it writes each statement.
* `Layout.soundings` — the log of the walk of a page.
* `Layout.LeadsOn` — a statement that something is connected behind.

## Main results

* `soundWalk_fst` — logging changes nothing.
* `walk_limited` — a walk with a limit does what it does without, or it goes too deep.
* `generate_limit` — when a chain is too deep, and what is written if it is not.
* `limit_on_connectors` — a page without a chain that is longer than the limit may be too deep.
-/

namespace StickerBot

/-! ### Logging a walk -/

/-- **Sounding.** What a walk comes to, and the statements that it writes on the way, each with how
far from the start it stands. -/
def soundWalk (tasks : List WalkTask) (l : Layout) (c : Context) :
    (Layout × Except GenerateError Context) × List (Nat × Nat) :=
  match tasks with
  | [] => ((l, .ok c), [])
  | .dangle id :: rest =>
    match l.get? id with
    | none => soundWalk rest l c
    | some s => soundWalk rest (l.markDangling id) (c.report (danglingBranch id s.name))
  | .visit id depth :: rest =>
    if c.options.maxChainDepth < depth then
      ((l, .error (.chainTooDeep c.options.maxChainDepth id)), [])
    else
      match _h : l.get? id with
      | none => soundWalk rest l c
      | some s =>
        if s.kind.isParameter then soundWalk rest l c
        else if _hs : s.isCompiled then soundWalk rest l c
        else
          let r := emitStatement id (l.markCompiled id) c
          let later := soundWalk (branches s id depth ++ rest) r.1 r.2
          (later.1, (id, depth) :: later.2)
termination_by (l.uncompiled, tasks.length)
decreasing_by
  · exact Prod.Lex.right _ (by simp)
  · exact Prod.Lex.right' _ (l.uncompiled_markDangling_le id) (by simp)
  · exact Prod.Lex.right _ (by simp)
  · exact Prod.Lex.right _ (by simp)
  · exact Prod.Lex.right _ (by simp)
  · exact Prod.Lex.left _ _ (Nat.lt_of_le_of_lt
      (uncompiled_emitStatement_le id (l.markCompiled id) c)
      (Layout.uncompiled_markCompiled_lt _h (by simpa using _hs)))

section Log

variable {id depth : Nat} {l : Layout} {c : Context} {s : Statement}

/-- Where a branch ends nothing is logged. -/
lemma soundWalk_skip (rest : List WalkTask) (hdepth : depth ≤ c.options.maxChainDepth)
    (h : ∀ s, l.get? id = some s → s.kind.isParameter = true ∨ s.isCompiled = true) :
    soundWalk (.visit id depth :: rest) l c = soundWalk rest l c := by
  rw [soundWalk, if_neg (Nat.not_lt.2 hdepth)]
  split
  · rfl
  · rename_i s hs
    rcases h s hs with hp | hcompiled
    · rw [if_pos hp]
    · split <;> rfl

/-- A statement that is written is logged. -/
lemma soundWalk_new (rest : List WalkTask) (hdepth : depth ≤ c.options.maxChainDepth)
    (hs : l.get? id = some s) (hp : s.kind.isParameter = false) (hcompiled : s.isCompiled = false) :
    soundWalk (.visit id depth :: rest) l c =
      ((soundWalk (branches s id depth ++ rest) (emitStatement id (l.markCompiled id) c).1
          (emitStatement id (l.markCompiled id) c).2).1,
        (id, depth) :: (soundWalk (branches s id depth ++ rest)
          (emitStatement id (l.markCompiled id) c).1
          (emitStatement id (l.markCompiled id) c).2).2) := by
  rw [soundWalk, if_neg (Nat.not_lt.2 hdepth)]
  split
  · rename_i hnone
    exact absurd (hs.symm.trans hnone) (by simp)
  · rename_i s' hs'
    obtain rfl := Option.some.inj (hs.symm.trans hs')
    rw [if_neg (by simp [hp]), dif_neg (by simp [hcompiled])]

end Log

/-- **Logging** changes nothing: the log is that of the very walk that writes the program. By
induction on the walk, whose cases are those of the logging walk as well; the log is only carried
along. -/
theorem soundWalk_fst (tasks : List WalkTask) (l : Layout) (c : Context) :
    (soundWalk tasks l c).1 = walk tasks l c := by
  induction tasks, l, c using walk_induction with
  | done l c => rw [soundWalk, walk]
  | lost l c id rest hid ih =>
    rw [soundWalk, walk, hid]
    exact ih
  | dangle l c id rest s hid ih =>
    rw [soundWalk, walk, hid]
    exact ih
  | deep l c id depth rest hdeep => rw [soundWalk, walk, if_pos hdeep, if_pos hdeep]
  | skip l c id depth rest hdepth hskip ih =>
    rw [soundWalk_skip rest hdepth hskip, walk_skip rest hdepth hskip, ih]
  | new l c id depth rest s hdepth hid hp hcompiled ih =>
    rw [soundWalk_new rest hdepth hid hp hcompiled, walk_new rest hdepth hid hp hcompiled]
    exact ih

namespace Layout

/-- **Soundings.** The statements that are written for a page with one start, each with how far from
the start it stands. -/
def soundings (l : Layout) (options : GenerateOptions) : List (Nat × Nat) :=
  (soundWalk (l.start?.toList.map fun start => .visit start 0) l.clearMarks (.start options)).2

/-- **Leading on.** An outgoing connector of the statement is connected, to whatever it may be. -/
def LeadsOn (l : Layout) (id : Nat) : Prop :=
  (l.get? id).any Statement.hasOutgoingConnection = true

end Layout

/-! ### The same walk with a limit -/

/-- The same state of a generation with another limit. -/
def Context.limited (limit : Nat) (c : Context) : Context :=
  { c with options := { c.options with maxChainDepth := limit } }

/-- A statement is written alike, whatever the limit is. One case for each kind of statement: the
remarks ask whether they are wanted, the ends of repeats which blocks are open, and nothing asks for
the limit. -/
lemma emitStatement_limited (limit id : Nat) (l : Layout) (c : Context) :
    emitStatement id l (c.limited limit) =
      ((emitStatement id l c).1, (emitStatement id l c).2.limited limit) := by
  have hremarks : ∀ name, emitRemarks id name (c.limited limit) =
      (emitRemarks id name c).limited limit := by
    intro name
    unfold emitRemarks
    rw [show (c.limited limit).options.debug = c.options.debug from rfl]
    split <;> rfl
  unfold emitStatement
  cases l.get? id with
  | none => rfl
  | some s =>
    obtain ⟨kind, name, marker, connectors, compiled, dangling⟩ := s
    cases kind with
    | start => rfl
    | parameter v => rfl
    | action a =>
      dsimp only
      rw [hremarks]
      rfl
    | wait =>
      dsimp only
      rw [hremarks]
      rfl
    | loopBegin =>
      dsimp only
      rw [hremarks]
      rfl
    | loopEnd =>
      simp only [emitLoopEnd, Context.closeBlock]
      rw [show (c.limited limit).openBlocks = c.openBlocks from rfl]
      cases c.openBlocks <;> rfl

/-- What there is to visit after a statement is one step farther, and the statement leads on. -/
lemma of_visit_mem_branches {s : Statement} {id depth i d : Nat}
    (h : .visit i d ∈ branches s id depth) : s.hasOutgoingConnection = true ∧ d = depth + 1 := by
  obtain ⟨connector, hmem, htask⟩ := List.mem_map.1 h
  cases htarget : connector.target with
  | none => simp [htarget] at htask
  | some next =>
    rw [htarget] at htask
    obtain ⟨-, rfl⟩ := WalkTask.visit.inj htask
    exact ⟨List.any_eq_true.2 ⟨connector, hmem, by simp [Connector.isConnected, htarget]⟩, rfl⟩

/-- After a statement there is something to visit exactly if it leads on, one step farther. -/
lemma forall_visit_branches_iff (s : Statement) (id depth limit : Nat) :
    (∀ i d, .visit i d ∈ branches s id depth → d ≤ limit) ↔
      (s.hasOutgoingConnection = true → depth < limit) := by
  constructor
  · intro h hleads
    obtain ⟨connector, hmem, hconnected⟩ := List.any_eq_true.1 hleads
    obtain ⟨next, hnext⟩ := Option.isSome_iff_exists.1 hconnected
    exact h next (depth + 1) (List.mem_map.2 ⟨connector, hmem, by rw [hnext]⟩)
  · intro h i d hvisit
    obtain ⟨hleads, rfl⟩ := of_visit_mem_branches hvisit
    exact h hleads

/-- A statement leads on as it does without its marks. -/
lemma Layout.Marks.leadsOn_iff {l₀ l : Layout} {seen : List Nat} (h : l₀.Marks l seen) {id : Nat}
    {s : Statement} (hs : l.get? id = some s) :
    l₀.LeadsOn id ↔ s.hasOutgoingConnection = true := by
  obtain ⟨s₀, hs₀, hsame⟩ := Option.map_eq_some_iff.1
    ((h.map_get? Statement.hasOutgoingConnection (fun _ => rfl) id).symm.trans
      (by rw [hs, Option.map_some]))
  rw [Layout.LeadsOn, hs₀, Option.any_some, hsame]

/-- **Within a limit.** No task is too far from the start, and what is written stands nearer than
the limit if it leads on. -/
structure WithinLimit (l₀ : Layout) (limit : Nat) (tasks : List WalkTask)
    (log : List (Nat × Nat)) : Prop where
  tasks : ∀ id depth, .visit id depth ∈ tasks → depth ≤ limit
  log : ∀ id depth, (id, depth) ∈ log → l₀.LeadsOn id → depth < limit

/-- What a walk comes to with a limit, when without it comes to an end. -/
structure LimitedWalk (limit : Nat) (tasks : List WalkTask) (l : Layout) (c c' : Context)
    (within : Prop) : Prop where
  /-- Within the limit it comes to the same. -/
  same : within → walk tasks l (c.limited limit) = ((walk tasks l c).1, .ok (c'.limited limit))
  /-- Otherwise it goes too deep. -/
  deep : ¬ within → ∃ id, (walk tasks l (c.limited limit)).2 = .error (.chainTooDeep limit id)

section Limited

variable {l₀ l : Layout} {c c' : Context} {limit id depth : Nat} {rest : List WalkTask}
  {log : List (Nat × Nat)}

/-- A task that is too far from the start ends the walk, whatever there is to do at it. -/
lemma walk_deep (rest : List WalkTask) (hdeep : limit < depth) :
    walk (.visit id depth :: rest) l (c.limited limit) = (l, .error (.chainTooDeep limit id)) := by
  have hlimit : (c.limited limit).options.maxChainDepth < depth := hdeep
  rw [walk, if_pos hlimit]
  rfl

/-- It keeps no limit, and with the limit the walk goes too deep. -/
lemma LimitedWalk.of_deep (hdeep : limit < depth) :
    LimitedWalk limit (.visit id depth :: rest) l c c'
      (WithinLimit l₀ limit (.visit id depth :: rest) log) where
  same hw := absurd (hw.tasks id depth (.head _)) (Nat.not_le.2 hdeep)
  deep _ := ⟨id, by rw [walk_deep rest hdeep]⟩

/-- A walk that goes on as another one does so with a limit as well. -/
lemma LimitedWalk.congr {tasks tasks' : List WalkTask} {l' : Layout} {d : Context} {within : Prop}
    (ih : LimitedWalk limit tasks' l' d c' within) (h : walk tasks l c = walk tasks' l' d)
    (hlimited : walk tasks l (c.limited limit) = walk tasks' l' (d.limited limit)) :
    LimitedWalk limit tasks l c c' within where
  same hw := by rw [hlimited, h, ih.same hw]
  deep hw := by
    rw [hlimited]
    exact ih.deep hw

/-- A loose end is too far from nothing. -/
lemma withinLimit_dangle_iff :
    WithinLimit l₀ limit (.dangle id :: rest) log ↔ WithinLimit l₀ limit rest log :=
  ⟨fun hw => ⟨fun i d hi => hw.tasks i d (.tail _ hi), hw.log⟩,
    fun hw => ⟨fun i d hi => hw.tasks i d (by simpa using hi), hw.log⟩⟩

/-- A branch that ends keeps the limit if its end is not too far from the start. -/
lemma withinLimit_skip_iff (hlimit : depth ≤ limit) :
    WithinLimit l₀ limit (.visit id depth :: rest) log ↔ WithinLimit l₀ limit rest log := by
  constructor
  · exact fun hw => ⟨fun i d hi => hw.tasks i d (.tail _ hi), hw.log⟩
  · refine fun hw => ⟨fun i d hi => ?_, hw.log⟩
    rcases List.mem_cons.1 hi with heq | hi
    · obtain ⟨-, rfl⟩ := WalkTask.visit.inj heq
      exact hlimit
    · exact hw.tasks i d hi

/-- Where a branch ends it ends with a limit as well, unless this is too far from the start. -/
lemma LimitedWalk.skip (hdepth : depth ≤ c.options.maxChainDepth)
    (h : ∀ s, l.get? id = some s → s.kind.isParameter = true ∨ s.isCompiled = true)
    (ih : LimitedWalk limit rest l c c' (WithinLimit l₀ limit rest log)) :
    LimitedWalk limit (.visit id depth :: rest) l c c'
      (WithinLimit l₀ limit (.visit id depth :: rest) log) := by
  rcases Nat.lt_or_ge limit depth with hdeep | hlimit
  · exact .of_deep hdeep
  · rw [withinLimit_skip_iff hlimit]
    exact ih.congr (walk_skip rest hdepth h) (walk_skip rest (c := c.limited limit) hlimit h)

/-- A statement that is written keeps the limit exactly if it stands nearer or does not lead on, as
what there is to visit after it is one step farther. -/
lemma withinLimit_new_iff {s : Statement} (hdepth : depth ≤ limit)
    (hleads : l₀.LeadsOn id ↔ s.hasOutgoingConnection = true) :
    WithinLimit l₀ limit (.visit id depth :: rest) ((id, depth) :: log) ↔
      WithinLimit l₀ limit (branches s id depth ++ rest) log := by
  constructor
  · intro hw
    refine ⟨fun i d hi => ?_, fun i d hi => hw.log i d (.tail _ hi)⟩
    rcases List.mem_append.1 hi with hbranch | hrest
    · exact (forall_visit_branches_iff s id depth limit).2
        (fun hs => hw.log id depth (.head _) (hleads.2 hs)) i d hbranch
    · exact hw.tasks i d (.tail _ hrest)
  · intro hw
    constructor
    · intro i d hi
      rcases List.mem_cons.1 hi with heq | hrest
      · obtain ⟨-, rfl⟩ := WalkTask.visit.inj heq
        exact hdepth
      · exact hw.tasks i d (List.mem_append_right _ hrest)
    · intro i d hi hlead
      rcases List.mem_cons.1 hi with heq | hrest
      · obtain ⟨rfl, rfl⟩ := Prod.mk.inj heq
        exact (forall_visit_branches_iff s i d limit).1
          (fun j e hj => hw.tasks j e (List.mem_append_left _ hj)) (hleads.1 hlead)
      · exact hw.log i d hrest hlead

/-- Where a statement is written it is written with a limit as well, unless this is too far from the
start. -/
lemma LimitedWalk.new {s : Statement} (hdepth : depth ≤ c.options.maxChainDepth)
    (hid : l.get? id = some s) (hp : s.kind.isParameter = false) (hnew : s.isCompiled = false)
    (hleads : l₀.LeadsOn id ↔ s.hasOutgoingConnection = true)
    (ih : LimitedWalk limit (branches s id depth ++ rest) (emitStatement id (l.markCompiled id) c).1
      (emitStatement id (l.markCompiled id) c).2 c'
      (WithinLimit l₀ limit (branches s id depth ++ rest) log)) :
    LimitedWalk limit (.visit id depth :: rest) l c c'
      (WithinLimit l₀ limit (.visit id depth :: rest) ((id, depth) :: log)) := by
  rcases Nat.lt_or_ge limit depth with hdeep | hlimit
  · exact .of_deep hdeep
  · rw [withinLimit_new_iff hlimit hleads]
    refine ih.congr (walk_new rest hdepth hid hp hnew) ?_
    rw [walk_new rest (c := c.limited limit) hlimit hid hp hnew, emitStatement_limited]

end Limited

/-- **Walks with a limit.** A walk that comes to its end does the same with a limit that it keeps
within, and goes too deep with any other.

**Proof sketch.** Induction along the walk. A statement that is written adds to the tasks what is
one step farther, if it leads on at all; so the tasks after it are within the limit exactly if it
stands nearer or does not lead on. -/
theorem walk_limited (l₀ : Layout) (limit : Nat) (tasks : List WalkTask) (l : Layout)
    (c : Context) : ∀ seen, l₀.Marks l seen → ∀ c', (walk tasks l c).2 = .ok c' →
      LimitedWalk limit tasks l c c'
        (WithinLimit l₀ limit tasks (soundWalk tasks l c).2) := by
  induction tasks, l, c using walk_induction with
  | done l c =>
    intro seen _ c' h
    rw [walk] at h
    obtain rfl : c = c' := Except.ok.inj h
    constructor
    · intro _
      rw [walk, walk]
    · refine fun hnot => absurd ⟨by simp, ?_⟩ hnot
      rw [soundWalk]
      simp
  | lost l c id rest hid ih =>
    intro seen hm c' h
    rw [walk, hid] at h
    rw [soundWalk, hid, withinLimit_dangle_iff]
    exact (ih seen hm c' h).congr (by rw [walk, hid]) (by rw [walk, hid])
  | dangle l c id rest s hid ih =>
    intro seen hm c' h
    rw [walk, hid] at h
    rw [soundWalk, hid, withinLimit_dangle_iff]
    exact (ih seen (hm.markDangling id) c' h).congr (by rw [walk, hid]) (by rw [walk, hid]; rfl)
  | deep l c id depth rest hdeep =>
    intro seen _ c' h
    rw [walk, if_pos hdeep] at h
    exact absurd h (by simp)
  | skip l c id depth rest hdepth hskip ih =>
    intro seen hm c' h
    rw [walk_skip rest hdepth hskip] at h
    rw [soundWalk_skip rest hdepth hskip]
    exact (ih seen hm c' h).skip hdepth hskip
  | new l c id depth rest s hdepth hid hp hcompiled ih =>
    intro seen hm c' h
    rw [walk_new rest hdepth hid hp hcompiled] at h
    rw [soundWalk_new rest hdepth hid hp hcompiled]
    exact (ih (id :: seen) (hm.emitStatement hid c) c' h).new hdepth hid hp hcompiled
      (hm.leadsOn_iff hid)

/-! ### How far a walk goes -/

/-- What is written stands where it was to be visited, or one step behind something that is written
and leads on. -/
theorem of_mem_soundWalk (l₀ : Layout) (tasks : List WalkTask) (l : Layout) (c : Context) :
    ∀ seen, l₀.Marks l seen → ∀ id depth, (id, depth) ∈ (soundWalk tasks l c).2 →
      .visit id depth ∈ tasks ∨
        ∃ id' depth', (id', depth') ∈ (soundWalk tasks l c).2 ∧ l₀.LeadsOn id' ∧
          depth = depth' + 1 := by
  induction tasks, l, c using walk_induction with
  | done l c =>
    intro seen _ i d hi
    rw [soundWalk] at hi
    exact absurd hi List.not_mem_nil
  | lost l c id rest hid ih =>
    intro seen hm i d hi
    rw [soundWalk, hid] at hi ⊢
    exact (ih seen hm i d hi).imp_left (.tail _)
  | dangle l c id rest s hid ih =>
    intro seen hm i d hi
    rw [soundWalk, hid] at hi ⊢
    exact (ih seen (hm.markDangling id) i d hi).imp_left (.tail _)
  | deep l c id depth rest hdeep =>
    intro seen _ i d hi
    rw [soundWalk, if_pos hdeep] at hi
    exact absurd hi List.not_mem_nil
  | skip l c id depth rest hdepth hskip ih =>
    intro seen hm i d hi
    rw [soundWalk_skip rest hdepth hskip] at hi ⊢
    exact (ih seen hm i d hi).imp_left (.tail _)
  | new l c id depth rest s hdepth hid hp hcompiled ih =>
    intro seen hm i d hi
    rw [soundWalk_new rest hdepth hid hp hcompiled] at hi ⊢
    rcases List.mem_cons.1 hi with heq | hi
    · obtain ⟨rfl, rfl⟩ := Prod.mk.inj heq
      exact .inl (.head _)
    · rcases ih (id :: seen) (hm.emitStatement hid c) i d hi with htask | ⟨i', d', hi', hlead⟩
      · rcases List.mem_append.1 htask with hbranch | hrest
        · obtain ⟨hleads, rfl⟩ := of_visit_mem_branches hbranch
          exact .inr ⟨id, depth, .head _, (hm.leadsOn_iff hid).2 hleads, rfl⟩
        · exact .inl (.tail _ hrest)
      · exact .inr ⟨i', d', .tail _ hi', hlead⟩

/-- With a limit of at least so many steps the whole walk is within the limit exactly if this is not
reached by something that leads on. -/
lemma withinLimit_iff {l₀ : Layout} {limit start : Nat} {log : List (Nat × Nat)} :
    WithinLimit l₀ limit [.visit start 0] log ↔
      ¬ ∃ id depth, (id, depth) ∈ log ∧ l₀.LeadsOn id ∧ limit ≤ depth := by
  constructor
  · rintro hw ⟨id, depth, hmem, hlead, hle⟩
    exact absurd (hw.log id depth hmem hlead) (Nat.not_lt.2 hle)
  · intro hnot
    refine ⟨fun id depth hi => ?_, fun id depth hmem hlead => Nat.not_le.1 fun hle =>
      hnot ⟨id, depth, hmem, hlead, hle⟩⟩
    obtain ⟨-, rfl⟩ : id = start ∧ depth = 0 := by simpa using hi
    exact Nat.zero_le limit

/-- The options with another limit. -/
def GenerateOptions.withLimit (limit : Nat) (options : GenerateOptions) : GenerateOptions :=
  { options with maxChainDepth := limit }

section Soundings

variable {l : Layout} {start : Nat}

/-- The start is written, and it is at no distance from itself. The walk visits it first, at
distance zero, which no limit forbids, and as a start it is no parameter. -/
lemma start_mem_soundings (hstart : l.start? = some start) (options : GenerateOptions) :
    (start, 0) ∈ l.soundings options := by
  obtain ⟨s, hs, hkind⟩ := (Layout.start?_eq_some_iff.1 hstart).2
  have hclear : l.clearMarks.get? start = some s.clearMarks := by
    simp only [Layout.get?, Layout.clearMarks, List.getElem?_map]
    exact congrArg (Option.map Statement.clearMarks) hs
  have hp : s.clearMarks.kind.isParameter = false := by
    change s.kind.isParameter = false
    cases hk : s.kind with
    | parameter v =>
      rw [hk] at hkind
      exact absurd hkind Bool.false_ne_true
    | _ => rfl
  rw [Layout.soundings, hstart, Option.toList_some, List.map_singleton,
    soundWalk_new [] (Nat.zero_le _) hclear hp rfl]
  exact .head _

/-- Pages with a start go down to some depth. -/
lemma exists_isGreatest_soundings (hstart : l.start? = some start) (options : GenerateOptions) :
    ∃ deepest, IsGreatest {depth | ∃ id, (id, depth) ∈ l.soundings options} deepest := by
  have hmem : 0 ∈ (l.soundings options).map Prod.snd :=
    List.mem_map.2 ⟨_, start_mem_soundings hstart options, rfl⟩
  cases hmax : ((l.soundings options).map Prod.snd).max? with
  | none =>
    rw [List.max?_eq_none_iff] at hmax
    rw [hmax] at hmem
    exact absurd hmem List.not_mem_nil
  | some deepest =>
    obtain ⟨hin, hle⟩ := List.max?_eq_some_iff.1 hmax
    obtain ⟨⟨id, depth⟩, hlog, rfl⟩ := List.mem_map.1 hin
    refine ⟨depth, ⟨id, hlog⟩, ?_⟩
    rintro d ⟨i, hi⟩
    exact hle d (List.mem_map.2 ⟨_, hi, rfl⟩)

/-- Something that leads on reaches a limit exactly if the page goes deeper, or just as deep and
leads on there. -/
lemma exists_leadsOn_iff (hstart : l.start? = some start) (options : GenerateOptions)
    {deepest : Nat}
    (hdeepest : IsGreatest {depth | ∃ id, (id, depth) ∈ l.soundings options} deepest)
    (limit : Nat) :
    (∃ id depth, (id, depth) ∈ l.soundings options ∧ l.LeadsOn id ∧ limit ≤ depth) ↔
      limit < deepest ∨
        limit = deepest ∧ ∃ id, (id, deepest) ∈ l.soundings options ∧ l.LeadsOn id := by
  constructor
  · rintro ⟨id, depth, hmem, hlead, hle⟩
    have hbound : depth ≤ deepest := hdeepest.2 ⟨id, hmem⟩
    by_cases hlt : limit < deepest
    · exact .inl hlt
    · obtain rfl : depth = deepest := by omega
      exact .inr ⟨by omega, id, hmem, hlead⟩
  · rintro (hlt | ⟨rfl, id, hmem, hlead⟩)
    · obtain ⟨id, hmem⟩ := hdeepest.1
      have hmem' := hmem
      rw [Layout.soundings, hstart] at hmem'
      rcases of_mem_soundWalk l _ _ _ [] (Layout.Marks.clearMarks l) id deepest hmem' with
        htask | ⟨id', depth', hbefore, hlead, rfl⟩
      · obtain ⟨-, rfl⟩ : id = start ∧ deepest = 0 := by simpa using htask
        exact absurd hlt (Nat.not_lt_zero limit)
      · refine ⟨id', depth', ?_, hlead, Nat.le_of_lt_succ hlt⟩
        rw [Layout.soundings, hstart]
        exact hbefore
    · exact ⟨id, limit, hmem, hlead, Nat.le_refl limit⟩

end Soundings

/-- **The limit on chains** is a limit on the connectors that are followed. A page with one start
has a program if the limit is out of reach, and its statements go down to some depth. With any
other limit the chain is too deep exactly if the page goes deeper, or just as deep and something is
connected behind a statement there, even if this is written already or is a parameter. Otherwise
the program, what was found to be wrong and the marks are the same as without a limit. -/
theorem generate_limit {l : Layout} (hcount : l.startCount = 1) (options : GenerateOptions)
    {ample : Nat} (hample : l.size < ample) :
    ∃ deepest,
      IsGreatest {depth | ∃ id, (id, depth) ∈ l.soundings (options.withLimit ample)} deepest ∧
      (∃ g, (generate l (options.withLimit ample)).2 = .ok g) ∧
      ((∃ id, (generate l options).2 = .error (.chainTooDeep options.maxChainDepth id)) ↔
        options.maxChainDepth < deepest ∨ options.maxChainDepth = deepest ∧
          ∃ id, (id, deepest) ∈ l.soundings (options.withLimit ample) ∧ l.LeadsOn id) ∧
      ((¬ ∃ id, (generate l options).2 = .error (.chainTooDeep options.maxChainDepth id)) →
        generate l options = generate l (options.withLimit ample)) := by
  obtain ⟨start, hstart⟩ := Layout.exists_start? hcount
  obtain ⟨deepest, hdeepest⟩ := exists_isGreatest_soundings hstart (options.withLimit ample)
  obtain ⟨g, hg⟩ : ∃ g, (generate l (options.withLimit ample)).2 = .ok g :=
    generate_isOk hcount hample.le
  obtain ⟨_, c, hstart', rfl, hwalk⟩ := generate_eq_ok (Prod.ext rfl hg)
  obtain rfl := Option.some.inj (hstart.symm.trans hstart')
  -- The walk that is limited starts as the one that is not, but for the limit.
  have hlimited := walk_limited l options.maxChainDepth [.visit start 0] l.clearMarks
    (.start (options.withLimit ample)) [] (Layout.Marks.clearMarks l) c (by rw [hwalk])
  have hwithin : WithinLimit l options.maxChainDepth [.visit start 0]
        (soundWalk [.visit start 0] l.clearMarks (.start (options.withLimit ample))).2 ↔
      ¬ (options.maxChainDepth < deepest ∨ options.maxChainDepth = deepest ∧
          ∃ id, (id, deepest) ∈ l.soundings (options.withLimit ample) ∧ l.LeadsOn id) := by
    rw [withinLimit_iff, ← exists_leadsOn_iff hstart _ hdeepest, Layout.soundings, hstart]
    rfl
  rw [hwithin] at hlimited
  have hgenerate := generate_of_start? hstart options
  have hsame : ¬ (options.maxChainDepth < deepest ∨ options.maxChainDepth = deepest ∧
        ∃ id, (id, deepest) ∈ l.soundings (options.withLimit ample) ∧ l.LeadsOn id) →
      generate l options = generate l (options.withLimit ample) := by
    intro hnot
    have hwalk' : walk [.visit start 0] l.clearMarks (.start options) =
        ((generate l (options.withLimit ample)).1, .ok (c.limited options.maxChainDepth)) :=
      (hlimited.same hnot).trans (by rw [hwalk])
    rw [hgenerate, hwalk']
    exact Prod.ext rfl hg.symm
  have hdeep : (∃ id, (generate l options).2 = .error (.chainTooDeep options.maxChainDepth id)) ↔
      options.maxChainDepth < deepest ∨ options.maxChainDepth = deepest ∧
        ∃ id, (id, deepest) ∈ l.soundings (options.withLimit ample) ∧ l.LeadsOn id := by
    constructor
    · rintro ⟨id, herror⟩
      refine Classical.byContradiction fun hnot => ?_
      rw [hsame hnot, hg] at herror
      exact absurd herror (by simp)
    · intro htoo
      obtain ⟨id, herror⟩ := hlimited.deep (not_not.2 htoo)
      rcases hwalk' : walk [.visit start 0] l.clearMarks (.start options) with ⟨l', r⟩
      obtain rfl : r = .error (.chainTooDeep options.maxChainDepth id) := by
        rw [← herror]
        exact (congrArg Prod.snd hwalk').symm
      exact ⟨id, by rw [hgenerate, hwalk']⟩
  exact ⟨deepest, hdeepest, ⟨_, hg⟩, hdeep, fun hnot => hsame fun htoo => hnot (hdeep.2 htoo)⟩

/-- On the page that goes in a circle the statement farthest from the start leads back. So a limit
that it is within is not enough, and one more is. -/
theorem generate_limit_roundPage :
    (∃ id, (generate roundPage { maxChainDepth := 2 }).2 = .error (.chainTooDeep 2 id)) ∧
      generate roundPage { maxChainDepth := 3 } = generate roundPage { maxChainDepth := 7 } := by
  have hlog : ∀ limit,
      roundPage.soundings (GenerateOptions.withLimit 7 { maxChainDepth := limit }) =
        [(0, 0), (1, 1), (2, 2)] := fun limit => by cbv
  have hdeepest : ∀ {deepest : Nat}, IsGreatest {depth | ∃ id, (id, depth) ∈
      [((0 : Nat), (0 : Nat)), (1, 1), (2, 2)]} deepest → deepest = 2 := by
    intro deepest h
    obtain ⟨id, hid⟩ := h.1
    have hle : 2 ≤ deepest := h.2 ⟨2, by simp⟩
    simp at hid
    omega
  constructor
  · obtain ⟨deepest, hgreatest, -, hdeep, -⟩ := generate_limit (l := roundPage) (by decide)
      { maxChainDepth := 2 } (show roundPage.size < 7 by decide)
    rw [hlog] at hgreatest hdeep
    obtain rfl := hdeepest hgreatest
    exact hdeep.2 (.inr ⟨rfl, 2, by simp, by unfold Layout.LeadsOn; decide⟩)
  · obtain ⟨deepest, hgreatest, -, hdeep, hsame⟩ := generate_limit (l := roundPage) (by decide)
      { maxChainDepth := 3 } (show roundPage.size < 7 by decide)
    rw [hlog] at hgreatest hdeep
    obtain rfl := hdeepest hgreatest
    exact hsame fun htoo => absurd (hdeep.1 htoo) (by simp)

/-- A page with two stickers that lead to each other. -/
def backAndForth : Layout :=
  ⟨[stickerTo .start "Begin" (some 1) none, stickerTo (.action .walk) "Walk" (some 0) none]⟩

/-- **Links that add nothing** count: no statement of the page is farther from the start than the
limit, but the chain is too deep, as the last statement leads back to the first. -/
theorem limit_on_connectors :
    backAndForth.startCount = 1 ∧
      IsGreatest {depth | ∃ id, (id, depth) ∈ backAndForth.soundings { maxChainDepth := 3 }} 1 ∧
      (generate backAndForth { maxChainDepth := 1 }).2 = .error (.chainTooDeep 1 0) := by
  have hlog : backAndForth.soundings { maxChainDepth := 3 } = [(0, 0), (1, 1)] := by cbv
  refine ⟨by decide, ?_, by cbv⟩
  rw [hlog]
  refine ⟨⟨1, by simp⟩, ?_⟩
  rintro depth ⟨id, hid⟩
  simp at hid
  omega

end StickerBot
