import StickerBot.Proofs.GeneratedRun
import StickerBot.Proofs.Pieces
set_option autoImplicit false

/-!
# Remarks can be left out

A program may be written with remarks, which tell whoever watches a run from which sticker it is
running. They are remarks and nothing else: without them the same program is written for the same
page, with the same marks and the same diagnostics. And they tell the truth: the trace points are
numbered in the order of the program, and the trace map names for each the statement that has
written it.

## Main definitions

* `Context.plain`, `Program.plain`, `Generated.plain` — what is left without remarks.
* `Piece.points` — the trace points of a piece, each with the statement of the piece.
* `Layout.Traced` — the trace map of a program tells where its trace points come from.

## Main results

* `walk_plain` — a walk without remarks does what a walk with remarks does, but for the remarks.
* `Layout.traced_of_generate` — the trace map of a page tells where its trace points come from.
* `generate_traced` — generation with remarks and without.

## Design

Trace points have 32 bits. So have the numbers of statements on a page that a machine can hold,
and there is no more than one trace point for each.
-/

namespace StickerBot

/-! ### Without remarks -/

/-- Instructions without the remarks among them. -/
def plainCode (is : List Instruction) : List Instruction := is.filter fun i => !i.isRemark

/-- Remarks can be left out of instructions in a row part by part. -/
@[simp] lemma plainCode_append (is js : List Instruction) :
    plainCode (is ++ js) = plainCode is ++ plainCode js :=
  List.filter_append ..

/-- A program without its remarks. -/
def Program.plain (p : Program) : Program := ⟨plainCode p.instructions, .empty⟩

/-- Generated code without its remarks. -/
def Generated.plain (g : Generated) : Generated := ⟨g.program.plain, g.diagnostics⟩

/-- A context without its remarks, in which none are wanted. -/
def Context.plain (c : Context) : Context :=
  { c with
    options := { c.options with debug := false }
    instructions := plainCode c.instructions
    traceMap := .empty
    nextTrace := 0 }

/-- Remarks are no calls. -/
lemma callCount_plain (p : Program) : p.plain.callCount = p.callCount := by
  rw [Program.callCount, Program.plain, plainCode, List.countP_filter]
  refine List.countP_congr fun i _ => ?_
  cases i <;> simp [Instruction.isCall, Instruction.isRemark]

namespace Context

variable {c : Context}

/-- An instruction that is no remark is written with remarks and without them. -/
lemma plain_emit (c : Context) {i : Instruction} (h : i.isRemark = false) :
    (c.emit i).plain = c.plain.emit i := by
  simp [plain, emit, plainCode, h]

/-- Instructions among which there is no remark are written with remarks and without them. -/
lemma plain_emitAll (c : Context) {is : List Instruction} (h : plainCode is = is) :
    (c.emitAll is).plain = c.plain.emitAll is := by
  simp [plain, emitAll, h]

/-- A block is opened alike with remarks and without them, since nothing is written for it. -/
lemma plain_openBlock (c : Context) (b : OpenBlock) :
    (c.openBlock b).plain = c.plain.openBlock b := rfl

/-- Remarks leave nothing behind without remarks. -/
lemma plain_emitRemarks (id : Nat) (name : String) (c : Context) :
    (emitRemarks id name c).plain = c.plain := by
  unfold emitRemarks
  split
  · simp [plain, tracePoint, emitAll, plainCode, Instruction.isRemark]
  · rfl

/-- No remarks are written where none are wanted. -/
lemma emitRemarks_plain (id : Nat) (name : String) (c : Context) :
    emitRemarks id name c.plain = c.plain :=
  emitRemarks_eq rfl id name

/-- The end of a repeat is no remark. -/
lemma plain_emitLoopEnd (id : Nat) (name : String) (c : Context) :
    (emitLoopEnd id name c).plain = emitLoopEnd id name c.plain := by
  unfold emitLoopEnd closeBlock
  rw [show c.plain.openBlocks = c.openBlocks from rfl]
  cases c.openBlocks with
  | nil => rfl
  | cons b bs => exact plain_emit _ rfl

/-- What is reported at the end does not depend on remarks. -/
lemma plain_finish (c : Context) : c.plain.finish = c.finish.plain := by
  have hempty : c.plain.program.isEmpty = c.program.isEmpty := by
    rw [Program.isEmpty, Program.isEmpty, ← callCount_plain c.program]
    rfl
  unfold finish Generated.plain
  rw [hempty]
  rfl

end Context

/-- There are no remarks in the code of a wait. -/
lemma plainCode_waitCode (v : ParameterValue) (counter : String) :
    plainCode (waitCode v counter) = waitCode v counter := by
  cases v <;> rfl

/-- There are no remarks in the code of a repeat. -/
lemma plainCode_repeatCode (v : ParameterValue) (counter : String) :
    plainCode (repeatCode v counter) = repeatCode v counter := by
  cases v <;> rfl

/-- **A statement** without remarks is written as it is with remarks, but for the remarks. One case
for each kind. The remarks are dropped on both sides, and the variable of a loop is that of its
depth, on which remarks have no influence. -/
theorem emitStatement_plain (id : Nat) (l : Layout) (c : Context) :
    emitStatement id l c.plain = ((emitStatement id l c).1, (emitStatement id l c).2.plain) := by
  have hremarks : ∀ name, (emitRemarks id name c).plain = c.plain := c.plain_emitRemarks id
  have hnone : ∀ name, emitRemarks id name c.plain = c.plain := c.emitRemarks_plain id
  -- the variable depends on the open loops alone
  have hcounter : ∀ name, (emitRemarks id name c).counterName = c.plain.counterName := by
    intro name
    rw [← hremarks name]
    rfl
  unfold emitStatement
  cases l.get? id with
  | none => rfl
  | some s =>
    obtain ⟨kind, name, marker, connectors, compiled, dangling⟩ := s
    cases kind with
    | start => rfl
    | parameter v => rfl
    | action a =>
      dsimp only
      rw [Context.plain_emit _ (by rfl), hremarks, hnone]
    | wait =>
      dsimp only
      rw [Context.plain_emitAll _ (plainCode_waitCode ..), hremarks, hnone, hcounter]
    | loopBegin =>
      dsimp only
      rw [Context.plain_openBlock, Context.plain_emitAll _ (plainCode_repeatCode ..), hremarks,
        hnone, hcounter]
    | loopEnd =>
      dsimp only
      rw [Context.plain_emitLoopEnd]

/-- **Walks** without remarks do what walks with remarks do, but for the remarks.

**Proof sketch.** Induction along the walk. What it does next depends on the layout and on the
limit, and neither depends on remarks. -/
theorem walk_plain (tasks : List WalkTask) (l : Layout) (c : Context) :
    walk tasks l c.plain = ((walk tasks l c).1, (walk tasks l c).2.map Context.plain) := by
  induction tasks, l, c using walk_induction with
  | done l c =>
    rw [walk, walk]
    rfl
  | lost l c id rest hid ih =>
    rw [walk, walk, hid]
    exact ih
  | dangle l c id rest s hid ih =>
    rw [walk, walk, hid]
    exact ih
  | deep l c id depth rest hdeep =>
    have hplain : c.plain.options.maxChainDepth < depth := hdeep
    rw [walk, walk, if_pos hdeep, if_pos hplain]
    rfl
  | skip l c id depth rest hdepth hskip ih =>
    have hplain : depth ≤ c.plain.options.maxChainDepth := hdepth
    rw [walk_skip rest hdepth hskip, walk_skip rest hplain hskip]
    exact ih
  | new l c id depth rest s hdepth hid hp hcompiled ih =>
    have hplain : depth ≤ c.plain.options.maxChainDepth := hdepth
    rw [walk_new rest hdepth hid hp hcompiled, walk_new rest hplain hid hp hcompiled,
      emitStatement_plain]
    exact ih

/-- **Generation** without remarks gives what it gives with remarks, but for the remarks. -/
theorem generate_plain (l : Layout) (depth : Nat) :
    generate l ⟨false, depth⟩ =
      ((generate l ⟨true, depth⟩).1, (generate l ⟨true, depth⟩).2.map Generated.plain) := by
  cases hstart : l.start? with
  | none =>
    rw [generate_of_start?_eq_none hstart, generate_of_start?_eq_none hstart]
    rfl
  | some start =>
    rw [generate_of_start? hstart, generate_of_start? hstart]
    have hwalk := walk_plain [.visit start 0] l.clearMarks (.start ⟨true, depth⟩)
    rw [show (Context.start ⟨true, depth⟩).plain = .start ⟨false, depth⟩ from rfl] at hwalk
    rw [hwalk]
    rcases walk [.visit start 0] l.clearMarks (.start ⟨true, depth⟩) with ⟨l', e | c⟩
    · rfl
    · exact congrArg (fun g => (l', Except.ok g)) c.plain_finish

/-! ### Trace points -/

/-- The trace point that an instruction marks. -/
def Instruction.point? : Instruction → Option UInt32
  | .trace point => some point
  | _ => none

/-- The trace points of a piece, each with the statement of the piece. -/
def Piece.points (p : Piece) : List (UInt32 × Nat) :=
  (p.code.filterMap Instruction.point?).map fun point => (point, p.statement)

/-- Whether remarks, if they are wanted, go before a statement of a kind. -/
def StatementKind.isRemarked : StatementKind → Bool
  | .action _ | .wait | .loopBegin => true
  | .start | .parameter _ | .loopEnd => false

namespace Layout

/-- The statements on a list that remarks go before. -/
def remarked (l : Layout) (ids : List Nat) : List Nat :=
  ids.filter fun id => (l.get? id).any fun s => s.kind.isRemarked

/-- **Traced.** A program is made of the pieces of its page. Its trace points are numbered in the
order of the program, and the trace map holds them in this order, each with the statement in whose
piece it stands. These are the statements that remarks go before, each once and in the order in
which they are written. -/
structure Traced (l : Layout) (p : Program) : Prop where
  code : p.instructions = (l.written true).flatMap Piece.code
  points : (p.instructions.filterMap Instruction.point?).map UInt32.toNat =
    List.range p.traceMap.size
  entries : p.traceMap.entries = (l.written true).flatMap Piece.points
  values : p.traceMap.values = l.remarked ((l.written true).map Piece.statement)
  once : p.traceMap.values.Nodup

end Layout

namespace Layout

variable {l : Layout}

/-- Remarks go before the letters of some kinds. -/
lemma any_isRemarked_step? (l : Layout) (id : Nat) :
    (l.step? id).any Brace.isRemarked = (l.get? id).any fun s => s.kind.isRemarked := by
  unfold step?
  cases l.get? id with
  | none => rfl
  | some s =>
    rw [Option.bind_some, Option.any_some]
    cases s.kind <;> rfl

/-- There are no trace points in the code of a letter. -/
lemma filterMap_point?_code (depth : Nat) (x : Brace Sticker ParameterValue) :
    (x.code depth).filterMap Instruction.point? = [] := by
  cases x with
  | plain s =>
    cases s with
    | act a => rfl
    | wait v => cases v <;> rfl
  | opening v => cases v <;> rfl
  | closing => cases depth <;> rfl

/-- The trace point of a piece, if remarks go before its statement. -/
lemma points_code (l : Layout) (debug : Bool) (pen : Pen) (id : Nat) :
    Piece.points ⟨id, l.code debug pen id⟩ =
      if debug && (l.step? id).any Brace.isRemarked then [(pen.point, id)] else [] := by
  unfold Piece.points code
  cases hs : l.get? id with
  | none => simp [step?, hs]
  | some s =>
    cases l.step? id with
    | none => simp
    | some x =>
      dsimp only
      rw [List.filterMap_append, filterMap_point?_code, List.append_nil, Option.any_some]
      split <;> rfl

/-- The next trace point after a statement. -/
lemma point_penAfter (l : Layout) (debug : Bool) (pen : Pen) (id : Nat) :
    (l.penAfter debug pen id).point =
      if debug && (l.step? id).any Brace.isRemarked then pen.point + 1 else pen.point := by
  unfold penAfter
  cases l.step? id <;> simp

/-- Statements that remarks go before have trace points, each in its own piece. -/
lemma map_snd_points (l : Layout) (ids : List Nat) : ∀ pen : Pen,
    ((l.pieces true pen ids).flatMap Piece.points).map Prod.snd = l.remarked ids := by
  induction ids with
  | nil => exact fun _ => rfl
  | cons id ids ih =>
    intro pen
    rw [pieces, List.flatMap_cons, List.map_append, ih, points_code, any_isRemarked_step?]
    cases h : (l.get? id).any fun s => s.kind.isRemarked <;> simp [remarked, h]

/-- The trace points of pieces are numbered. By induction on the statements: each that is
remarked takes the next point, and the others take none. Points are counted modulo the size of
their words. -/
lemma map_fst_points (l : Layout) (ids : List Nat) : ∀ pen : Pen,
    ((l.pieces true pen ids).flatMap Piece.points).map Prod.fst =
      (List.range (l.remarked ids).length).map fun k => pen.point + UInt32.ofNat k := by
  induction ids with
  | nil => exact fun _ => rfl
  | cons id ids ih =>
    intro pen
    rw [pieces, List.flatMap_cons, List.map_append, ih, points_code, point_penAfter,
      any_isRemarked_step?]
    cases h : (l.get? id).any fun s => s.kind.isRemarked with
    | false => simp [remarked, h]
    | true =>
      have hnext : ∀ k, pen.point + 1 + UInt32.ofNat k = pen.point + UInt32.ofNat (k + 1) := by
        intro k
        rw [UInt32.ofNat_add, UInt32.add_assoc, UInt32.add_comm 1]
        rfl
      simp [remarked, h, List.range_succ_eq_map, hnext]

/-- On a page whose statements have numbers of 32 bits no trace point comes twice. -/
lemma length_remarked_chain_le (l : Layout) (todo : List Nat) :
    (l.remarked (l.chain [] todo)).length ≤ l.size := by
  have hsub : l.chain [] todo ⊆ List.range l.size := by
    intro id hid
    obtain ⟨⟨s, hs, -⟩, -⟩ := of_mem_chain l [] todo id hid
    exact List.mem_range.2 (List.getElem?_eq_some_iff.1 hs).1
  have hle := ((nodup_chain l [] todo).subperm hsub).length_le
  rw [List.length_range] at hle
  exact Nat.le_trans (List.length_filter_le _ _) hle

end Layout

/-! ### The trace map -/

/-- What remarks add to the trace map. -/
lemma traceMap_emitRemarks (id : Nat) (name : String) (c : Context) :
    (emitRemarks id name c).traceMap =
      if c.options.debug then c.traceMap.insert c.nextTrace id else c.traceMap := by
  unfold emitRemarks
  split <;> rfl

/-- The end of a repeat adds nothing to the trace map. -/
lemma traceMap_emitLoopEnd (id : Nat) (name : String) (c : Context) :
    (emitLoopEnd id name c).traceMap = c.traceMap := by
  unfold emitLoopEnd Context.closeBlock
  cases c.openBlocks <;> rfl

/-- **What a statement adds** to the trace map are the trace points of its piece. One case for each
kind: those that are remarked have one trace point, if remarks are wanted at all, and the others
have none. -/
lemma traceMap_emitStatement {l₀ l : Layout} {seen : List Nat} (hm : l₀.Marks l seen) (id : Nat)
    {c : Context} {pen : Pen} (hpen : pen.Holds c) :
    (emitStatement id l c).2.traceMap =
      (Piece.points ⟨id, l₀.code c.options.debug pen id⟩).foldl (fun t e => t.insert e.1 e.2)
        c.traceMap := by
  have hkind := hm.map_get? Statement.kind (fun _ => rfl) id
  have hremarks := fun name => traceMap_emitRemarks id name c
  rw [Layout.points_code, Layout.any_isRemarked_step?, ← hpen.point]
  unfold emitStatement
  rcases hl : l.get? id with _ | s <;> rw [hl] at hkind
  · obtain hl₀ : l₀.get? id = none := by simpa using hkind.symm
    simp [hl₀]
  · obtain ⟨s₀, hl₀, hs₀⟩ := Option.map_eq_some_iff.1 hkind.symm
    rw [hl₀, Option.any_some, hs₀]
    dsimp only
    cases s.kind with
    | start => simp [StatementKind.isRemarked]
    | parameter v => simp [StatementKind.isRemarked]
    | loopEnd => simp [StatementKind.isRemarked, traceMap_emitLoopEnd]
    | _ =>
      dsimp only [Context.emit, Context.emitAll, Context.openBlock]
      rw [hremarks, StatementKind.isRemarked, Bool.and_true]
      split <;> rfl

/-- **The trace map** of a walk holds the trace points of what was visited. -/
theorem walkKeeps_traceMap (l₀ : Layout) (options : GenerateOptions) :
    WalkKeeps fun seen _ l c => (l₀.Marks l seen ∧ l₀.Written options seen c) ∧
      c.traceMap =
        Table.ofList ((l₀.pieces options.debug .start seen.reverse).flatMap Piece.points) where
  lost _ h := h
  dangle hs h :=
    ⟨@WalkKeeps.dangle _ (walkKeeps_written l₀ options) _ _ [] _ _ _ hs h.1, h.2⟩
  skip _ h := h
  new := by
    rintro seen id depth rest l c s hs hp hcompiled ⟨⟨hm, hwritten⟩, htrace⟩
    refine ⟨@WalkKeeps.new _ (walkKeeps_written l₀ options) seen id depth rest l c s hs hp
      hcompiled ⟨hm, hwritten⟩, ?_⟩
    rw [traceMap_emitStatement (hm.markCompiled id) id hwritten.pen, hwritten.settings, htrace,
      List.reverse_cons, Layout.pieces_append, List.flatMap_append, Layout.pieces, Layout.pieces,
      List.flatMap_singleton, Table.ofList, Table.ofList, List.foldl_append]

/-- The trace points of pieces are marked in their order. -/
lemma filterMap_point?_flatMap (ps : List Piece) :
    (ps.flatMap Piece.code).filterMap Instruction.point? =
      (ps.flatMap Piece.points).map Prod.fst := by
  rw [List.filterMap_flatMap, List.map_flatMap]
  refine List.flatMap_congr fun p _ => ?_
  simp [Piece.points, Function.comp_def]

/-- **The trace map of a page** tells where its trace points come from.

**Proof sketch.** The points of the pieces are numbered as the pieces are written; there are no
more of them than statements, so none comes twice, and the trace map is filled in their order. -/
theorem Layout.traced_of_generate {l l' : Layout} {depth : Nat} {g : Generated}
    (hg : generate l ⟨true, depth⟩ = (l', .ok g)) (hsize : l.size ≤ UInt32.size) :
    l.Traced g.program := by
  have hwritten : l.Written ⟨true, depth⟩ [] (.start ⟨true, depth⟩) := ⟨rfl, rfl, rfl, rfl⟩
  obtain ⟨c, seen, rfl, hseen, ⟨-, hwritten⟩, htrace⟩ :=
    (walkKeeps_traceMap l ⟨true, depth⟩).generate hg fun start =>
      ⟨⟨.clearMarks l, hwritten⟩, rfl⟩
  have hcode : c.instructions = (l.written true).flatMap Piece.code := by
    rw [hwritten.code, hseen]
    rfl
  rw [hseen] at htrace
  obtain ⟨n, hn⟩ : ∃ n, (l.remarked (l.chain [] l.start?.toList)).length = n := ⟨_, rfl⟩
  have hle : n ≤ UInt32.size := hn ▸ Nat.le_trans (Layout.length_remarked_chain_le l _) hsize
  -- the trace points are the numbers from zero on
  have hpoints : ((l.written true).flatMap Piece.points).map (fun e => e.1.toNat) =
      List.range n := by
    have hfst := congrArg (List.map UInt32.toNat)
      (Layout.map_fst_points l (l.chain [] l.start?.toList) .start)
    rw [List.map_map, List.map_map, hn] at hfst
    refine hfst.trans ((List.map_congr_left fun k hk => ?_).trans (List.map_id _))
    have hk : k < UInt32.size := Nat.lt_of_lt_of_le (List.mem_range.1 hk) hle
    simp [Pen.start, Nat.mod_eq_of_lt hk]
  have hsorted : ((l.written true).flatMap Piece.points).Pairwise
      (fun a b => compare a.1 b.1 = .lt) := by
    have hlt := hpoints ▸ List.pairwise_lt_range
    refine (List.pairwise_map.1 hlt).imp fun hab => ?_
    exact Std.compare_eq_lt.2 (UInt32.lt_iff_toNat_lt.2 hab)
  have hentries : c.traceMap.entries = (l.written true).flatMap Piece.points := by
    rw [htrace]
    exact Table.entries_ofList hsorted
  have hvalues : c.traceMap.values = l.remarked (l.chain [] l.start?.toList) := by
    rw [Table.values, hentries]
    exact Layout.map_snd_points l _ .start
  refine ⟨hcode, ?_, hentries, ?_, ?_⟩
  · have hsize : c.traceMap.size = n := by
      rw [Table.size, hentries, ← List.length_map (fun e : UInt32 × Nat => e.1.toNat), hpoints,
        List.length_range]
    change (c.instructions.filterMap Instruction.point?).map UInt32.toNat = _
    rw [hcode, filterMap_point?_flatMap, List.map_map]
    exact hpoints.trans (congrArg List.range hsize.symm)
  · rw [Layout.map_statement_written]
    exact hvalues
  · change c.traceMap.values.Nodup
    rw [hvalues]
    exact (Layout.nodup_chain l [] _).filter _

/-- **Remarks.** Without remarks everything is generated as it is with remarks: the same marks and
diagnostics, the same error if there is one, and the same instructions but for the remarks, with
no trace points. With remarks, on a page whose statements have numbers of 32 bits, the trace map
tells where each trace point comes from.

**Proof sketch.** The walks with and without remarks go the same way, for what a walk does next
depends on the marks alone. -/
theorem generate_traced (l : Layout) (depth : Nat) :
    generate l ⟨false, depth⟩ =
        ((generate l ⟨true, depth⟩).1, (generate l ⟨true, depth⟩).2.map Generated.plain) ∧
      ∀ g, (generate l ⟨true, depth⟩).2 = .ok g → l.size ≤ UInt32.size → l.Traced g.program := by
  refine ⟨generate_plain l depth, fun g hg hsize => ?_⟩
  obtain ⟨l', hl'⟩ : ∃ l', generate l ⟨true, depth⟩ = (l', .ok g) := ⟨_, Prod.ext rfl hg⟩
  exact Layout.traced_of_generate hl' hsize

/-- What is written with remarks for the page that repeats until a tap. -/
def tapRemarks : Generated where
  program :=
    ⟨[.trace 0, .print "Begin Repeat", .whileNotRaised .touchSensor, .wait 100, .trace 1,
        .print "Wait", .native .wait [2], .wait 1000, .assign "b" 0, .whileBelow "b" 2, .wait 1000,
        .increment "b" 1, .close, .trace 2, .print "Dance", .native .dance [], .close],
      .ofList [(0, 2), (1, 3), (2, 4)]⟩
  diagnostics := .ofList [unmatchedLoopEnd 1 "End Repeat"]

/-- The remarks on a page with nested loops are true and can be left out. -/
theorem generate_traced_tapPage :
    (generate tapPage ⟨true, 256⟩).2 = .ok tapRemarks ∧ tapPage.size ≤ UInt32.size ∧
      tapPage.Traced tapRemarks.program ∧
      (generate tapPage ⟨false, 256⟩).2 = .ok tapRemarks.plain := by
  have hg : (generate tapPage ⟨true, 256⟩).2 = .ok tapRemarks := by cbv
  have hsize : tapPage.size ≤ UInt32.size := by decide
  obtain ⟨hplain, htraced⟩ := generate_traced tapPage 256
  refine ⟨hg, hsize, htraced tapRemarks hg hsize, ?_⟩
  rw [hplain, hg]
  rfl

example : tapRemarks.plain = tapCode := by decide

end StickerBot
