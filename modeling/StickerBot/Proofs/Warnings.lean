import StickerBot.Compilation
import StickerBot.Proofs.Pieces
set_option autoImplicit false

/-!
# What a page is warned about

A program is written even where its page is not in order, and every flaw of the page is reported
as a warning. Loose ends and ends of repeats are reported during the walk, markers without a sticker
before it, and repeats left open after it. Put together, these are warnings about the pieces of the
program, one piece after the other, and a few about the whole.

## Main definitions

* `DiagnosticLog.Warns` — what a log holds, in some order, if it holds warnings alone.
* `Layout.pieceWarnings` — what is reported about a piece of a program.
* `Layout.warnings` — what is reported about a page.

## Main results

* `emitStatement_diagnostics` — what a statement reports when it is written.
* `walkKeeps_warnings` — all along a walk the warnings about what was visited are reported, or are
  still to come.
* `generate_warns`, `compileBy_warns` — what is reported about a page, and about its markers.
-/

namespace StickerBot

/-! ### Logs of warnings -/

namespace DiagnosticLog

/-- **Warning.** A log holds these warnings, in some order, and nothing else. -/
structure Warns (log : DiagnosticLog) (ds : List Diagnostic) : Prop where
  errors : log.errors = []
  totalErrors : log.totalErrors = 0
  warnings : log.warnings.Perm ds
  totalWarnings : log.totalWarnings = ds.length
  severity : ∀ d ∈ ds, d.severity = .warning

section Warns

variable {log other : DiagnosticLog} {ds es : List Diagnostic}

/-- Nothing is reported of an empty context. -/
lemma warns_empty : empty.Warns [] :=
  ⟨rfl, rfl, .refl [], rfl, fun _ h => absurd h List.not_mem_nil⟩

/-- The order does not count. -/
lemma Warns.of_perm (h : log.Warns ds) (hperm : ds.Perm es) : log.Warns es where
  errors := h.errors
  totalErrors := h.totalErrors
  warnings := h.warnings.trans hperm
  totalWarnings := h.totalWarnings.trans hperm.length_eq
  severity d hd := h.severity d (hperm.mem_iff.2 hd)

/-- One more warning. -/
lemma Warns.push (h : log.Warns ds) {d : Diagnostic} (hd : d.severity = .warning) :
    (log.push d).Warns (ds ++ [d]) := by
  have hpush : log.push d =
      { log with warnings := log.warnings ++ [d], totalWarnings := log.totalWarnings + 1 } := by
    simp [DiagnosticLog.push, hd]
  rw [hpush]
  refine ⟨h.errors, h.totalErrors, h.warnings.append_right [d], ?_, ?_⟩
  · simp [h.totalWarnings]
  · simpa [or_imp, forall_and, hd] using h.severity

/-- More warnings. -/
lemma Warns.pushAll (es : List Diagnostic) : ∀ {log : DiagnosticLog} {ds : List Diagnostic},
    log.Warns ds → (∀ d ∈ es, d.severity = .warning) → (log.pushAll es).Warns (ds ++ es) := by
  induction es with
  | nil => intro log ds h _; simpa [DiagnosticLog.pushAll] using h
  | cons e es ih =>
    intro log ds h hes
    obtain ⟨he, hes⟩ := List.forall_mem_cons.1 hes
    have hall := ih (h.push he) hes
    rwa [List.append_assoc] at hall

/-- The warnings of two logs. -/
lemma Warns.extend (h : log.Warns ds) (h' : other.Warns es) :
    (log.extend other).Warns (ds ++ es) := by
  have hstored : other.stored = other.warnings := by rw [stored, h'.errors, List.nil_append]
  have hall := h.pushAll other.warnings fun d hd => h'.severity d (h'.warnings.mem_iff.1 hd)
  rw [DiagnosticLog.extend, hstored]
  exact hall.of_perm (h'.warnings.append_left ds)

/-- All that a log of warnings stores are its warnings. -/
lemma Warns.stored_perm (h : log.Warns ds) : log.stored.Perm ds := by
  rw [stored, h.errors, List.nil_append]
  exact h.warnings

/-- The warnings of one code. -/
lemma Warns.withCode_perm (h : log.Warns ds) (code : Code) :
    (log.withCode code).Perm (ds.filter fun d => d.code = code) :=
  h.stored_perm.filter _

end Warns

end DiagnosticLog

/-! ### Warnings about pieces -/

/-- How many outgoing connectors of a statement lead nowhere. -/
def Statement.looseEnds (s : Statement) : Nat := s.outgoing.countP fun c => c.target.isNone

namespace Layout

/-- The warnings about the loose ends of a statement, one for each. -/
def looseWarnings (l : Layout) (id : Nat) : List Diagnostic :=
  match l.get? id with
  | some s => List.replicate s.looseEnds (danglingBranch id s.name)
  | none => []

/-- The warning about the end of a repeat that has nothing to close, and so has written nothing. -/
def endWarning? (l : Layout) (p : Piece) : Option Diagnostic :=
  (l.get? p.statement).bind fun s =>
    if s.kind = .loopEnd ∧ p.code = [] then some (unmatchedLoopEnd p.statement s.name) else none

/-- **Warnings about a piece**: that there is nothing for it to close, and its loose ends. -/
def pieceWarnings (l : Layout) (p : Piece) : List Diagnostic :=
  (l.endWarning? p).toList ++ l.looseWarnings p.statement

/-- The warning that a task has still to report. -/
def pendingWarning? (l : Layout) : WalkTask → Option Diagnostic
  | .visit _ _ => none
  | .dangle id => (l.get? id).map fun s => danglingBranch id s.name

/-- **Warnings about a page**: those about the pieces of its program, those about the repeats left
open, from the outermost, and the one about a program that never acts. -/
def warnings (l : Layout) (debug : Bool) : List Diagnostic :=
  (l.written debug).flatMap l.pieceWarnings ++
    (l.lastPen debug).opened.reverse.map (fun id => unclosedLoop ⟨id, none⟩) ++
      if ((l.written debug).flatMap Piece.code).countP Instruction.isCall = 0 then [emptyProgram]
      else []

/-- The tasks after a statement report its loose ends. -/
lemma filterMap_pendingWarning?_branches {l : Layout} {id : Nat} {s s₀ : Statement}
    (hs₀ : l.get? id = some s₀) (houtgoing : s.outgoing = s₀.outgoing) (depth : Nat) :
    (branches s id depth).filterMap l.pendingWarning? = l.looseWarnings id := by
  simp only [branches, looseWarnings, Statement.looseEnds, hs₀, houtgoing]
  induction s₀.outgoing with
  | nil => rfl
  | cons c cs ih =>
    rw [List.map_cons, List.countP_cons]
    cases hc : c.target with
    | none => simp [pendingWarning?, hs₀, ih, List.replicate_succ]
    | some next =>
      have hvisit : l.pendingWarning? (.visit next (depth + 1)) = none := rfl
      simp [List.filterMap_cons_none hvisit, ih]

end Layout

/-! ### A walk reports its warnings -/

/-- **Reporting.** When a statement is written, what is reported is that its piece closes nothing,
if it is to close something. -/
theorem emitStatement_diagnostics {l₀ l : Layout} {seen : List Nat} (hm : l₀.Marks l seen)
    (id : Nat) {c : Context} {pen : Pen} (hpen : pen.Holds c) :
    (emitStatement id l c).2.diagnostics = c.diagnostics.pushAll
      (l₀.endWarning? ⟨id, l₀.code c.options.debug pen id⟩).toList := by
  have hkind := hm.map_get? Statement.kind (fun _ => rfl) id
  have hname := hm.map_get? Statement.name (fun _ => rfl) id
  have hremarks : ∀ name, (emitRemarks id name c).diagnostics = c.diagnostics := fun name => by
    unfold emitRemarks
    split <;> rfl
  unfold emitStatement Layout.endWarning? Layout.code Layout.step?
  rcases hl : l.get? id with _ | s <;> rw [hl] at hkind hname
  · obtain hl₀ : l₀.get? id = none := by simpa using hkind.symm
    rw [hl₀]
    rfl
  · obtain ⟨s₀, hl₀, hs₀⟩ := Option.map_eq_some_iff.1 hkind.symm
    rw [hl₀, Option.map_some, Option.map_some, Option.some.injEq] at hname
    rw [hl₀, Option.bind_some, Option.bind_some, hs₀]
    dsimp only
    cases s.kind with
    | start | parameter v => rfl
    | action a => exact hremarks s.name
    | wait => exact hremarks s.name
    | loopBegin => exact hremarks s.name
    | loopEnd =>
      have hdepth : c.openBlocks.length = pen.opened.length := by
        rw [← hpen.opened, List.length_map]
      simp only [emitLoopEnd, Context.closeBlock, Brace.isRemarked, Brace.code]
      cases hopen : c.openBlocks with
      | nil =>
        rw [hopen] at hdepth
        simp [← hdepth, Context.report, DiagnosticLog.pushAll, hname]
      | cons b bs =>
        rw [hopen] at hdepth
        simp [← hdepth, Context.emit, DiagnosticLog.pushAll]

/-- **A walk reports its warnings.** What is reported and what is still to come are the warnings
about the pieces of what was visited. -/
theorem walkKeeps_warnings (l₀ : Layout) (options : GenerateOptions) :
    WalkKeeps fun seen tasks l c => (l₀.Marks l seen ∧ l₀.Written options seen c) ∧
      ∃ ds, c.diagnostics.Warns ds ∧ (ds ++ tasks.filterMap l₀.pendingWarning?).Perm
        ((l₀.pieces options.debug .start seen.reverse).flatMap l₀.pieceWarnings) where
  lost := by
    rintro seen id rest l c hid ⟨hwritten, ds, hds, hperm⟩
    have hnone : l₀.pendingWarning? (.dangle id) = none := by
      have hsame := hwritten.1.same id
      rw [hid, Option.map_none] at hsame
      simp [Layout.pendingWarning?, Option.map_eq_none_iff.1 hsame.symm]
    rw [List.filterMap_cons_none hnone] at hperm
    exact ⟨hwritten, ds, hds, hperm⟩
  dangle := by
    rintro seen id rest l c s hid ⟨hwritten, ds, hds, hperm⟩
    have hname := hwritten.1.map_get? Statement.name (fun _ => rfl) id
    obtain ⟨s₀, hs₀, hname⟩ := Option.map_eq_some_iff.1 (hname.symm.trans (by rw [hid]; rfl))
    have hsome : l₀.pendingWarning? (.dangle id) = some (danglingBranch id s.name) := by
      simp [Layout.pendingWarning?, hs₀, hname]
    rw [List.filterMap_cons_some hsome] at hperm
    have hseverity : (danglingBranch id s.name).severity = .warning := rfl
    refine ⟨@WalkKeeps.dangle _ (walkKeeps_written l₀ options) seen id rest l c s hid hwritten, _,
      hds.push hseverity, ?_⟩
    rwa [List.append_assoc]
  skip := by
    rintro seen id depth rest l c hskip ⟨hwritten, ds, hds, hperm⟩
    exact ⟨hwritten, ds, hds, hperm⟩
  new := by
    rintro seen id depth rest l c s hs hp hcompiled ⟨hwritten, ds, hds, hperm⟩
    have hnext := @WalkKeeps.new _ (walkKeeps_written l₀ options) seen id depth rest l c s hs hp
      hcompiled hwritten
    obtain ⟨s₀, hs₀, -, houtgoing⟩ := hwritten.1.get?_eq_some hs
    have hreport := emitStatement_diagnostics (hwritten.1.markCompiled id) id hwritten.2.pen
    rw [hwritten.2.settings] at hreport
    generalize hpiece : (⟨id, l₀.code options.debug (seen.reverse.foldl
      (l₀.penAfter options.debug) .start) id⟩ : Piece) = piece at hreport
    have hsevere : ∀ d ∈ (l₀.endWarning? piece).toList, d.severity = .warning := fun d hd => by
      obtain ⟨s, -, hd⟩ := Option.bind_eq_some_iff.1 (Option.mem_toList.1 hd)
      split at hd
      · rw [← Option.some.inj hd]
        rfl
      · exact absurd hd (by simp)
    refine ⟨hnext, _, hreport ▸ hds.pushAll _ hsevere, ?_⟩
    have hpieces : l₀.pieces options.debug .start (id :: seen).reverse =
        l₀.pieces options.debug .start seen.reverse ++ [piece] := by
      rw [List.reverse_cons, Layout.pieces_append, ← hpiece]
      rfl
    have hloose : (branches s id depth).filterMap l₀.pendingWarning? =
        l₀.looseWarnings piece.statement := by
      rw [← hpiece]
      exact Layout.filterMap_pendingWarning?_branches hs₀ houtgoing.symm depth
    rw [hpieces, List.flatMap_append, List.flatMap_singleton, List.filterMap_append, hloose,
      Layout.pieceWarnings, List.append_assoc, ← List.append_assoc (l₀.endWarning? piece).toList]
    -- what was still to come goes behind what this statement reports
    refine (List.perm_append_comm.append_left ds).trans ?_
    rw [← List.append_assoc]
    exact hperm.append_right _

/-! ### What is reported about a page -/

/-- **Pages** are warned about their pieces, about the repeats left open and about a program that
never acts.

**Proof sketch.** The walk has reported what its pieces are warned about, in some order. At the end
come the repeats that are still open, which the pen knows too, and the warning that there is no call
if the code has none. -/
theorem generate_warns {l l' : Layout} {options : GenerateOptions} {g : Generated}
    (h : generate l options = (l', .ok g)) : g.diagnostics.Warns (l.warnings options.debug) := by
  obtain ⟨c, seen, rfl, hseen, ⟨-, hwritten⟩, ds, hds, hperm⟩ :=
    (walkKeeps_warnings l options).generate h fun start =>
      ⟨⟨.clearMarks l, rfl, rfl, rfl, rfl⟩, [], DiagnosticLog.warns_empty, .refl _⟩
  have hcode := hwritten.code
  have hopened := hwritten.pen.opened
  rw [hseen] at hperm hcode hopened
  rw [List.filterMap_nil, List.append_nil] at hperm
  have hblocks : c.openBlocks.reverse.map unclosedLoop =
      (l.lastPen options.debug).opened.reverse.map fun id => unclosedLoop ⟨id, none⟩ := by
    rw [Layout.lastPen, ← hopened, ← List.map_reverse, List.map_map]
    rfl
  have hwalk : (c.diagnostics.pushAll (c.openBlocks.reverse.map unclosedLoop)).Warns
      ((l.written options.debug).flatMap l.pieceWarnings ++
        (l.lastPen options.debug).opened.reverse.map fun id => unclosedLoop ⟨id, none⟩) := by
    rw [hblocks]
    refine (hds.of_perm hperm).pushAll _ fun d hd => ?_
    obtain ⟨id, -, rfl⟩ := List.mem_map.1 hd
    rfl
  have hempty : c.program.isEmpty = decide
      (((l.written options.debug).flatMap Piece.code).countP Instruction.isCall = 0) := by
    rw [Program.isEmpty, Program.callCount, Context.program, hcode]
    rfl
  unfold Context.finish Layout.warnings
  dsimp only
  rw [hempty]
  by_cases hnone : ((l.written options.debug).flatMap Piece.code).countP Instruction.isCall = 0
  · simpa [hnone] using hwalk.push rfl
  · simpa [hnone] using hwalk

section Compiling

variable {δ : Type} {distances : δ → δ → Ordering} {overlap : Zone → Zone → Option δ}
  {catalog : Catalog} {options : GenerateOptions} {ms : List Marker} {c : Compilation}

/-- A compilation is what is generated from the connected page. -/
lemma exists_generate_of_compileBy (h : compileBy distances overlap catalog options ms = .ok c) :
    ∃ g, generate ((Layout.ofMarkers catalog ms).1.connectBy distances overlap).1 options =
        (c.layout, .ok g) ∧
      c.program = g.program ∧
      c.diagnostics = (Layout.ofMarkers catalog ms).2.extend g.diagnostics := by
  unfold compileBy at h
  dsimp only at h
  rcases hg : generate ((Layout.ofMarkers catalog ms).1.connectBy distances overlap).1 options
    with ⟨l', e | g⟩
  · rw [hg] at h
    exact nomatch h
  · rw [hg] at h
    obtain rfl := Except.ok.inj h
    exact ⟨g, rfl, rfl, rfl⟩

/-- **Pages of markers** are also warned about the markers that nobody knows. -/
theorem compileBy_warns (h : compileBy distances overlap catalog options ms = .ok c) :
    c.diagnostics.Warns
      (((ms.filter fun m => (catalog.get? m.code).isNone).map Layout.unknownMarker) ++
        ((Layout.ofMarkers catalog ms).1.connectBy distances overlap).1.warnings
          options.debug) := by
  obtain ⟨g, hg, -, hlog⟩ := exists_generate_of_compileBy h
  rw [hlog]
  refine DiagnosticLog.Warns.extend ?_ (generate_warns hg)
  refine DiagnosticLog.warns_empty.pushAll _ fun d hd => ?_
  obtain ⟨m, -, rfl⟩ := List.mem_map.1 hd
  rfl

end Compiling

end StickerBot
