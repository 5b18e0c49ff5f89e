import Mathlib
import StickerBot.Proofs.Chain
import StickerBot.Proofs.StructuredRun
set_option autoImplicit false

/-!
# Generated programs do what the page asks for

From a page a program is written, and a machine runs it. What the robot is told, what the sensor
is asked and how long is waited is what the routine of the page tells, in the same order, and
nothing else. The routine is read from the stickers alone: it knows of no counters, no places
and no jumps.

## Main definitions

* `Performs` — runs of a machine do what is told, all of it and nothing else.

## Main results

* `generate_code` — a program is the code of the chain of its page.
* `generated_run` — a generated program whose loops are all closed performs the routine of its
  page.
-/

namespace StickerBot

/-! ### Programs of pages -/

/-- **Generated code.** A program without remarks is the code of the chain of its page. The walk
writes the letters of the chain one after the other, from no instructions and no open loops, and
what is done at its end adds no instructions. -/
theorem generate_code {l : Layout} {options : GenerateOptions} {g : Generated}
    (hdebug : options.debug = false) (hg : (generate l options).2 = .ok g) :
    g.program.instructions = Brace.codeFrom 0 l.steps := by
  unfold generate at hg
  split at hg
  · exact absurd hg (by simp)
  · exact absurd hg (by simp)
  · rename_i start _ hstart
    rcases hwalk : walk [.visit start 0] l.clearMarks (.start options) with ⟨l', e | c⟩
    · simp [hwalk] at hg
    · have hwrites := walk_writes [.visit start 0] l.clearMarks (.start options) []
        (Layout.Marks.clearMarks l) hdebug c (by rw [hwalk])
      obtain rfl : c.finish = g := by simpa [hwalk] using hg
      simpa [Layout.steps, hstart, Context.finish, Context.program, Context.start, Context.depth]
        using hwrites.instructions
  · exact absurd hg (by simp)

/-- The steps of a page whose program closes all loops are those of its routine, and its program
is that of the block of the routine. -/
lemma instructions_routine {l : Layout} {options : GenerateOptions} {g : Generated}
    (hdebug : options.debug = false) (hg : (generate l options).2 = .ok g)
    (hb : g.program.balance.isBalanced = true) :
    l.routine.flatten = Brace.settle 0 l.steps ∧
      (l.routine.block 0).instructions = g.program.instructions := by
  have hcode := generate_code hdebug hg
  have hbalance := (BlockBalance.isBalanced_foldl_iff g.program.instructions 0).1 hb
  rw [hcode, openAfter?_codeFrom] at hbalance
  have hflatten : l.routine.flatten = Brace.settle 0 l.steps := Nest.flatten_read hbalance
  refine ⟨hflatten, ?_⟩
  have hblock := codeFrom_flatten l.routine 0 []
  rw [List.append_nil, hflatten, Brace.codeFrom_settle] at hblock
  rw [hcode, hblock, Brace.codeFrom, List.append_nil]

/-! ### Performing -/

variable {σ : Type}

/-- The run has left no process. -/
def Watch.IsOver (v : Watch σ) : Prop := v.machine.process = none

/-- The last step of the run found the end of the program. -/
def Watch.HasFinished (v : Watch σ) : Prop :=
  v.moments.getLast?.map Moment.outcome = some .finished

/-- **Performing.** The runs of a machine whose sensor answers as a sequence says do what is told
with more and more patience: whatever is told is done by some run, which is over exactly if all
was told; and whatever a run does was told, and if the run is over then it is at the end of the
program and has done all there was to do. -/
structure Performs (a : Actuator σ) (m : Machine σ) (answers : Nat → Bool)
    (told : (patience : Nat) → Telling) : Prop where
  all : ∀ patience, ∃ taps : List Bool, Heeds answers 0 (m.watch a taps).moments ∧
    deedsOf (m.watch a taps).moments = (told patience).1 ∧
    ((m.watch a taps).IsOver ↔ (told patience).2.isSome)
  only : ∀ taps : List Bool, Heeds answers 0 (m.watch a taps).moments → ∃ patience,
    deedsOf (m.watch a taps).moments <+: (told patience).1 ∧
    ((m.watch a taps).IsOver → (m.watch a taps).HasFinished ∧ (told patience).2.isSome ∧
      deedsOf (m.watch a taps).moments = (told patience).1)

/-- The block of a routine reports what the routine tells, in as many steps as wanted if there is
patience for so many.

**Proof sketch.** A script that was given up has taken a step for each pass there was patience
for; one that was not has its end reported at any later step. -/
lemma exists_report (r : Routine) (w : Setting σ) (robot : σ) {least patience : Nat}
    (h : least ≤ patience) :
    ∃ n, least ≤ n ∧
      deedsOf ((r.block 0).report w robot n).moments =
        (r.script w.config w.answers patience 0).1 ∧
      (((r.block 0).report w robot n).values = none ↔
        (r.script w.config w.answers patience 0).2.isSome) ∧
      (((r.block 0).report w robot n).values = none →
        ((r.block 0).report w robot n).moments.getLast?.map Moment.outcome = some .finished) := by
  have hfollows : Follows w patience 0 (r.block 0) (r.script w.config w.answers patience) :=
    follows_block r 0
  have hshows := hfollows 0 ⟨robot, .empty, 0⟩
  unfold Nest.report
  rcases hx : r.script w.config w.answers patience 0 with ⟨ds, _ | asked⟩ <;> rw [hx] at hshows
  · obtain ⟨k, ms, s', rfl, hk, hrun⟩ := hshows
    refine ⟨k, Nat.le_trans h hk, ?_⟩
    simp [hrun]
  · obtain ⟨k, ms, s', rfl, -, -, hrun⟩ := hshows
    refine ⟨k + (least + 1), by omega, ?_⟩
    simp [hrun, Setting.finishMoment, Setting.stopped, Moment.deeds, Signal.deed?,
      StepOutcome.waits]

/-- A machine that has started the program of the block of a routine performs the routine.

**Proof sketch.** A run of any length is the beginning of a run that is long enough to show what
is told with as much patience. -/
lemma performs_started (a : Actuator σ) (m : Machine σ) {p : Program} {r : Routine}
    (hp : (r.block 0).instructions = p.instructions) (answers : Nat → Bool) :
    Performs a (m.started a p) answers fun patience =>
      r.script m.config answers patience 0 := by
  have hover : ∀ taps : List Bool, ((m.started a p).watch a taps).IsOver ↔
      ((m.started a p).watch a taps).report.values = none := fun taps => by
    simp [Watch.IsOver, Watch.report]
  constructor
  · intro patience
    obtain ⟨n, -, hdeeds, hvalues, -⟩ := exists_report r (m.setting a p answers)
      (m.started a p).robot (Nat.zero_le patience)
    obtain ⟨taps, rfl, hh⟩ := exists_taps_started a m p answers n
    have hreport := report_started a m hp hh
    refine ⟨taps, hh, ?_, ?_⟩
    · rw [show ((m.started a p).watch a taps).moments = _ from congrArg Report.moments hreport]
      exact hdeeds
    · rw [hover, hreport]
      exact hvalues
  · intro taps hh
    obtain ⟨n, hle, hdeeds, hvalues, hfinished⟩ := exists_report r (m.setting a p answers)
      (m.started a p).robot (Nat.le_refl taps.length)
    obtain ⟨longer, rfl, hlonger⟩ := exists_taps_started a m p answers n
    have hprefix := Machine.watch_take_prefix a longer taps.length (m.started a p)
    have hreport := report_started a m hp hlonger
    -- the run is the beginning of the longer one
    have hsame : ((m.started a p).watch a taps).report =
        ((m.started a p).watch a (longer.take taps.length)).report := by
      rw [report_started a m hp hh, report_started a m hp (hlonger.of_prefix hprefix),
        List.length_take, Nat.min_eq_left hle]
    have hmoments : ((m.started a p).watch a taps).moments =
        ((m.started a p).watch a (longer.take taps.length)).moments :=
      congrArg Report.moments hsame
    rw [← hreport] at hdeeds hvalues hfinished
    refine ⟨taps.length, ?_, fun hend => ?_⟩
    · obtain ⟨rest, hrest⟩ := hprefix
      refine ⟨deedsOf rest, Eq.trans ?_ hdeeds⟩
      rw [hmoments, ← deedsOf_append, hrest]
      rfl
    · rw [hover, hsame, ← hover] at hend
      have hstarted : (m.started a p).process.isSome := by
        rw [(m.stands_started a p answers).1.process]
        rfl
      have heq := Machine.watch_of_take_over a longer taps.length _ hstarted hend
      rw [← heq] at hmoments hsame hend
      have hnone := (hover longer).1 hend
      refine ⟨?_, hvalues.1 hnone, ?_⟩
      · rw [Watch.HasFinished, hmoments]
        exact hfinished hnone
      · rw [hmoments]
        exact hdeeds

/-- **Generated runs.** The program that is written without remarks from a page, if all its loops
are closed, performs the routine of the page on a machine in any state, whatever the robot does
and whatever the sensor answers. The routine is the tree of the stickers reached, without the
ends of repeats that never began. -/
theorem generated_run (l : Layout) (options : GenerateOptions) (g : Generated)
    (hdebug : options.debug = false) (hg : (generate l options).2 = .ok g)
    (hb : g.program.balance.isBalanced = true) :
    l.routine.flatten = Brace.settle 0 l.steps ∧
      ∀ (a : Actuator σ) (m : Machine σ),
        ((m.load a g.program).machine.startProcess a).value = .ok () ∧
        ∀ answers : Nat → Bool, Performs a (m.started a g.program) answers fun patience =>
          l.routine.script m.config answers patience 0 := by
  obtain ⟨hflatten, hinstructions⟩ := instructions_routine hdebug hg hb
  exact ⟨hflatten, fun a m =>
    ⟨(m.started_eq_launch a g.program).1, performs_started a m hinstructions⟩⟩

/-- A sticker without a place, and what its flow and its plug lead to. -/
def stickerTo (kind : StatementKind) (name : String) (next plugged : Option Nat) : Statement where
  kind := kind
  name := name
  marker := default
  connectors :=
    [⟨"next", .outgoing, default, next⟩, ⟨"parameter", .parameter, default, plugged⟩]

/-- A page on which the robot waits and dances until a tap. The end of a repeat stands before it
as well as after it, and the latter leads back. -/
def tapPage : Layout :=
  ⟨[stickerTo .start "Begin" (some 1) none,
    stickerTo .loopEnd "End Repeat" (some 2) none,
    stickerTo .loopBegin "Begin Repeat" (some 3) (some 6),
    stickerTo .wait "Wait" (some 4) (some 7),
    stickerTo (.action .dance) "Dance" (some 5) none,
    stickerTo .loopEnd "End Repeat" (some 1) none,
    stickerTo (.parameter .tap) "Tap" none none,
    stickerTo (.parameter (.count 2)) "2" none none]⟩

/-- What is written for the page: its program, and a warning about the first end of a repeat. -/
def tapCode : Generated where
  program := .ofInstructions
    [.whileNotRaised .touchSensor, .wait 100, .native .wait [2], .wait 1000, .assign "b" 0,
      .whileBelow "b" 2, .wait 1000, .increment "b" 1, .close, .native .dance [], .close]
  diagnostics := .ofList [unmatchedLoopEnd 1 "End Repeat"]

/-- The program of a page with nested loops performs the routine of the page. -/
theorem generated_run_tapPage :
    (generate tapPage {}).2 = .ok tapCode ∧ tapCode.program.balance.isBalanced = true ∧
      tapPage.routine.flatten = Brace.settle 0 tapPage.steps ∧
      ∀ answers : Nat → Bool,
        Performs .still ((Machine.start {} ()).started .still tapCode.program) answers
          fun patience => tapPage.routine.script {} answers patience 0 := by
  have hg : (generate tapPage {}).2 = .ok tapCode := by cbv
  have hb : tapCode.program.balance.isBalanced = true := by decide
  obtain ⟨hflatten, hrun⟩ := generated_run tapPage {} tapCode rfl hg hb
  exact ⟨hg, hb, hflatten, (hrun Actuator.still (.start {} ())).2⟩

example : tapPage.routine =
    .loop .tap (.plain (.wait (.count 2)) (.plain (.act .dance) .empty)) .empty := by cbv

end StickerBot
