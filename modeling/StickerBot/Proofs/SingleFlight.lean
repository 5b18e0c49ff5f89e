import Mathlib.Tactic.Lemma
import StickerBot.Worker
set_option autoImplicit false

/-!
# One job at a time

Whatever is submitted to a worker and however its jobs go on, between the steps of each other, the
jobs come one after the other: the flag is won by a job, lowered by the guard of the same job, and
only then won by the next. So there is never more than one guard, no guard lowers the flag of
another job, and every job that is accepted has lowered the flag before its outcome is there.

## Main definitions

* `WorkerStep`, `Worker.take`, `Worker.takeAll` — all that can happen to a worker.
* `FlagDeed`, `Worker.deed?`, `Worker.deeds` — who raises the flag and who lowers it.
* `Worker.Taken` — all that a step can come to.
* `Worker.InTurn` — the jobs of a worker had the flag one after the other.
* `Worker.Accepts` — what it is to accept a job.
* `Worker.FliesSingly` — what is promised of a worker.

## Main results

* `Worker.taken_take` — what a step can come to.
* `Worker.InTurn.takeAll` — whatever happens, jobs have the flag one after the other.
* `Worker.accepts_submit` — a submission is accepted by raising the flag for one more job, which
  has its guard.
* `Worker.Accepts.finish` — a job that is left alone ends with its own outcome and the flag down.
* `Worker.reaches_takeAll` — a job whose steps all come has its outcome at the end.
* `single_flight` — a worker runs one job at a time.

## Design

Handles of a worker share its flag and its jobs, so it does not matter through which of them a job
is submitted. Winning the flag is one step, for it is tested and raised at once; before the guard
of the job is made anybody else may come.
-/

namespace StickerBot

/-! ### Steps -/

/-- **Steps.** All that can happen to a worker. A release is the end of a job that runs, whether it
has an outcome, fails or breaks down, or the end of one that is given up before it runs. -/
inductive WorkerStep where
  /-- A submission tries to win the flag. -/
  | acquire (hasRuntime : Bool) (job : CompileJob)
  | arm (ticket : Nat)
  | begin (ticket : Nat)
  | release (ticket : Nat)
  | resolve (ticket : Nat)

/-- **Deeds.** What is done to the flag, and by which job. -/
inductive FlagDeed where
  | raised (ticket : Nat)
  | lowered (ticket : Nat)
deriving DecidableEq, Repr

/-- Whose deed it is. -/
def FlagDeed.ticket : FlagDeed → Nat
  | .raised ticket | .lowered ticket => ticket

namespace JobPhase

/-- How many of the steps that it cannot do without a job has behind it. -/
def stage : JobPhase → Nat
  | .acquired _ => 0
  | .queued _ | .running _ => 1
  | .released _ => 2
  | .ready _ => 3

/-- A guard holds the flag. -/
lemma holdsFlag_of_hasGuard {phase : JobPhase} (h : phase.hasGuard = true) :
    phase.holdsFlag = true := by
  cases phase with
  | queued | running => rfl
  | acquired | released | ready => exact absurd h Bool.false_ne_true

/-- No job has more than three such steps behind it. -/
lemma stage_le (phase : JobPhase) : phase.stage ≤ 3 := by
  cases phase <;> simp [stage]

/-- A guard goes before the job is over. -/
lemma stage_le_of_hasGuard {phase : JobPhase} (h : phase.hasGuard = true) : phase.stage ≤ 2 := by
  cases phase with
  | queued | running => exact Nat.le_of_ble_eq_true rfl
  | acquired | released | ready => exact absurd h Bool.false_ne_true

end JobPhase

namespace Worker

/-- **Taking a step.** A submission that is refused, and a step that no job can take, do
nothing. -/
def take (w : Worker) : WorkerStep → Worker
  | .acquire hasRuntime job =>
    match w.acquire hasRuntime job with
    | .ok (_, w') => w'
    | .error _ => w
  | .arm ticket => w.arm ticket
  | .begin ticket => w.begin ticket
  | .release ticket => w.release ticket
  | .resolve ticket => w.resolve ticket

/-- Takes steps in order. -/
def takeAll (w : Worker) (steps : List WorkerStep) : Worker := steps.foldl take w

/-- The deed of a step: a job that is accepted raises the flag, and a guard that goes lowers it. -/
def deed? (w : Worker) : WorkerStep → Option FlagDeed
  | .acquire hasRuntime job =>
    match w.acquire hasRuntime job with
    | .ok (ticket, _) => some (.raised ticket)
    | .error _ => none
  | .release ticket =>
    if (w.jobs[ticket]?).any JobPhase.hasGuard then some (.lowered ticket) else none
  | .arm _ | .begin _ | .resolve _ => none

/-- The deeds of steps in order. -/
def deeds (w : Worker) : List WorkerStep → List FlagDeed
  | [] => []
  | step :: steps => (w.deed? step).toList ++ deeds (w.take step) steps

/-- There is a guard for a job. -/
def HasGuard (w : Worker) (ticket : Nat) : Prop :=
  ∃ phase, w.jobs[ticket]? = some phase ∧ phase.hasGuard = true

/-- The guard of a job is about to be made: its submission has won the flag. -/
def IsArming (w : Worker) (ticket : Nat) : Prop :=
  ∃ job, w.jobs[ticket]? = some (.acquired job)

/-- The flag is held for a job, with a guard or about to have one. -/
def Holds (w : Worker) (ticket : Nat) : Prop :=
  ∃ phase, w.jobs[ticket]? = some phase ∧ phase.holdsFlag = true

/-- A job has come to a stage, or further. -/
def Reaches (w : Worker) (ticket stage : Nat) : Prop :=
  ∃ phase, w.jobs[ticket]? = some phase ∧ stage ≤ phase.stage

/-- **Taken steps.** All that a step of a worker can come to, and its deed. -/
inductive Taken (w : Worker) : Worker → Option FlagDeed → Prop where
  /-- Nothing happens. -/
  | idle : Taken w w none
  /-- A job is accepted. -/
  | raised (job : CompileJob) (hfree : w.isBusy = false) :
    Taken w { w with isBusy := true, jobs := w.jobs ++ [.acquired job] }
      (some (.raised w.jobs.length))
  /-- A job goes on, and the flag with it. -/
  | moved (ticket : Nat) (phase phase' : JobPhase) (hphase : w.jobs[ticket]? = some phase)
    (hflag : phase'.holdsFlag = phase.holdsFlag) (hstage : phase.stage ≤ phase'.stage) :
    Taken w (w.setPhase ticket phase') none
  /-- The guard of a job goes. -/
  | lowered (ticket : Nat) (phase : JobPhase) (hphase : w.jobs[ticket]? = some phase)
    (hguard : phase.hasGuard = true) (outcome : CompileOutcome) :
    Taken w { w.setPhase ticket (.released outcome) with isBusy := false }
      (some (.lowered ticket))

section Steps

variable (w : Worker) (ticket : Nat)

/-- Trying to win the flag accepts a job if the flag is down and there is a runtime, and does
nothing otherwise. -/
lemma taken_acquire (hasRuntime : Bool) (job : CompileJob) :
    w.Taken (w.take (.acquire hasRuntime job)) (w.deed? (.acquire hasRuntime job)) := by
  unfold take deed? acquire
  cases hasRuntime with
  | false => exact .idle
  | true =>
    cases hbusy : w.isBusy with
    | true => exact .idle
    | false => exact .raised job hbusy

/-- Making the guard leaves the flag as it is: the job held it before and holds it with its
guard. -/
lemma taken_arm : w.Taken (w.arm ticket) none := by
  unfold arm
  split
  · rename_i job hjob
    exact .moved ticket _ _ hjob rfl (by simp [JobPhase.stage])
  · exact .idle

/-- Beginning leaves the flag as it is: the guard goes into the running job. -/
lemma taken_begin : w.Taken (w.begin ticket) none := by
  unfold begin
  split
  · rename_i job hjob
    exact .moved ticket _ _ hjob rfl (by simp [JobPhase.stage])
  · exact .idle

/-- Releasing lowers the flag if the job has its guard, running or not, and does nothing
otherwise. -/
lemma taken_release : w.Taken (w.release ticket) (w.deed? (.release ticket)) := by
  simp only [release, deed?]
  cases hphase : w.jobs[ticket]? with
  | none => exact .idle
  | some phase =>
    cases phase with
    | queued job => exact .lowered ticket _ hphase rfl _
    | running job => exact .lowered ticket _ hphase rfl _
    | _ => exact .idle

/-- The outcome arrives when the guard is gone, so this has nothing to do with the flag. -/
lemma taken_resolve : w.Taken (w.resolve ticket) none := by
  unfold resolve
  split
  · rename_i outcome houtcome
    exact .moved ticket _ _ houtcome rfl (by simp [JobPhase.stage])
  · exact .idle

/-- **One step** comes to one of these. -/
theorem taken_take (step : WorkerStep) : w.Taken (w.take step) (w.deed? step) := by
  cases step with
  | acquire hasRuntime job => exact w.taken_acquire hasRuntime job
  | arm ticket => exact w.taken_arm ticket
  | begin ticket => exact w.taken_begin ticket
  | release ticket => exact w.taken_release ticket
  | resolve ticket => exact w.taken_resolve ticket

end Steps

/-! ### The flag goes from job to job -/

/-- The deeds of jobs that had the flag and gave it back, one after the other. -/
def rounds (n : Nat) : List FlagDeed :=
  (List.range n).flatMap fun ticket => [.raised ticket, .lowered ticket]

/-- **In turn.** The jobs of a worker had the flag one after the other, in the order in which they
were accepted: each has given it back, but for the last one while the flag is raised. -/
inductive InTurn (w : Worker) : List FlagDeed → Prop where
  | free (hfree : w.isBusy = false) (hover : ∀ ticket, ¬ w.Holds ticket) :
    InTurn w (rounds w.jobs.length)
  | busy (n : Nat) (hbusy : w.isBusy = true) (hlength : w.jobs.length = n + 1)
    (hholds : ∀ ticket, w.Holds ticket ↔ ticket = n) : InTurn w (rounds n ++ [.raised n])

section InTurn

variable {w w' : Worker} {ds : List FlagDeed} {d : Option FlagDeed}

/-- One round more: the next job raises the flag and lowers it. -/
lemma rounds_succ (n : Nat) : rounds (n + 1) = rounds n ++ [.raised n] ++ [.lowered n] := by
  rw [rounds, List.range_succ, List.flatMap_append, List.flatMap_singleton, List.append_assoc]
  rfl

/-- Who holds the flag after a job has gone on. -/
lemma holds_setPhase {ticket : Nat} {phase : JobPhase} (hphase : w.jobs[ticket]? = some phase)
    (phase' : JobPhase) (other : Nat) : (w.setPhase ticket phase').Holds other ↔
      if other = ticket then phase'.holdsFlag = true else w.Holds other := by
  have hlt : ticket < w.jobs.length := (List.getElem?_eq_some_iff.1 hphase).1
  unfold Holds setPhase
  split
  · rename_i heq
    simp [heq, hlt]
  · rename_i hne
    simp [List.getElem?_set_ne (Ne.symm hne)]

/-- A job that has won the flag holds it, beside those before it. -/
lemma holds_raised (job : CompileJob) (other : Nat) :
    Holds { w with isBusy := true, jobs := w.jobs ++ [.acquired job] } other ↔
      w.Holds other ∨ other = w.jobs.length := by
  unfold Holds
  rcases Nat.lt_trichotomy other w.jobs.length with hlt | heq | hgt
  · simp [List.getElem?_append_left hlt, Nat.ne_of_lt hlt]
  · simp [heq, JobPhase.holdsFlag]
  · have hle := Nat.le_of_lt hgt
    have hnone : w.jobs[other]? = none := List.getElem?_eq_none hle
    have hpast : (w.jobs ++ [.acquired job])[other]? = none :=
      List.getElem?_eq_none (by simp only [List.length_append, List.length_singleton]; omega)
    simp [hnone, hpast, Nat.ne_of_gt hgt]

/-- **One step** keeps the turns of the jobs.

**Proof sketch.** One case for each step. Raising the flag begins the turn of the last job, since
the flag was down; only the job that holds the flag can lower it, and that ends the turn; other
steps leave every holder what it was. -/
lemma InTurn.taken (h : w.InTurn ds) (hstep : w.Taken w' d) : w'.InTurn (ds ++ d.toList) := by
  cases hstep with
  | idle => simpa using h
  | raised job hfree =>
    cases h with
    | free _ hover =>
      refine .busy _ rfl (by simp) fun ticket => ?_
      rw [holds_raised]
      simp [hover ticket]
    | busy n hbusy => exact absurd (hfree.symm.trans hbusy) (by simp)
  | moved ticket phase phase' hphase hflag =>
    have hsame : ∀ other, (w.setPhase ticket phase').Holds other ↔ w.Holds other := by
      intro other
      rw [holds_setPhase hphase]
      split
      · rename_i heq
        simp [heq, Holds, hphase, hflag]
      · rfl
    have hlength : (w.setPhase ticket phase').jobs.length = w.jobs.length := List.length_set ..
    rw [Option.toList_none, List.append_nil]
    cases h with
    | free hfree hover =>
      rw [← hlength]
      exact .free hfree fun other => by rw [hsame]; exact hover other
    | busy n hbusy hlast hholds =>
      exact .busy n hbusy (hlength.trans hlast) fun other => (hsame other).trans (hholds other)
  | lowered ticket phase hphase hguard outcome =>
    have hold : w.Holds ticket := ⟨phase, hphase, JobPhase.holdsFlag_of_hasGuard hguard⟩
    cases h with
    | free _ hover => exact absurd hold (hover ticket)
    | busy n hbusy hlast hholds =>
      obtain rfl := (hholds ticket).1 hold
      have hlength : (w.setPhase ticket (.released outcome)).jobs.length = ticket + 1 :=
        (List.length_set ..).trans hlast
      rw [Option.toList_some, ← rounds_succ, ← hlength]
      refine .free rfl fun other hother => ?_
      have hother : (w.setPhase ticket (.released outcome)).Holds other := hother
      rw [holds_setPhase hphase] at hother
      split at hother
      · exact absurd hother (by simp [JobPhase.holdsFlag])
      · rename_i hne
        exact hne ((hholds other).1 hother)

/-- **Whatever happens,** jobs have the flag one after the other. -/
theorem InTurn.takeAll (steps : List WorkerStep) : ∀ {w : Worker} {ds : List FlagDeed},
    w.InTurn ds → (w.takeAll steps).InTurn (ds ++ w.deeds steps) := by
  induction steps with
  | nil => intro w ds h; simpa [deeds, Worker.takeAll] using h
  | cons step steps ih =>
    intro w ds h
    have hnext := ih (h.taken (w.taken_take step))
    rwa [List.append_assoc] at hnext

/-- A worker that has done nothing has no jobs and its flag down, so there was no round yet. -/
lemma inTurn_start (catalog : Catalog) (options : GenerateOptions) :
    (start catalog options).InTurn [] :=
  .free rfl fun ticket => by simp [Holds, start]

/-- In rounds every job has raised the flag once and lowered it once. -/
lemma count_rounds (n : Nat) (deed : FlagDeed) :
    (rounds n).count deed = if deed.ticket < n then 1 else 0 := by
  induction n with
  | zero => rfl
  | succ n ih =>
    rw [rounds_succ, List.count_append, List.count_append, ih]
    rcases Nat.lt_trichotomy deed.ticket n with hlt | heq | hgt
    · have hother : FlagDeed.raised n ≠ deed ∧ FlagDeed.lowered n ≠ deed := by
        constructor <;> rintro rfl <;> exact Nat.lt_irrefl n hlt
      simp [hlt, Nat.lt_succ_of_lt hlt, hother]
    · cases deed <;> simp [FlagDeed.ticket] at heq <;> simp [FlagDeed.ticket, heq]
    · have hother : FlagDeed.raised n ≠ deed ∧ FlagDeed.lowered n ≠ deed := by
        constructor <;> rintro rfl <;> exact Nat.lt_irrefl n hgt
      have hpast : ¬ deed.ticket < n + 1 := by omega
      simp [Nat.not_lt_of_lt hgt, hpast, hother]

/-- **Once.** A job that was accepted has lowered the flag once, if it holds the flag no more. -/
lemma InTurn.count_lowered (h : w.InTurn ds) {ticket : Nat} {phase : JobPhase}
    (hphase : w.jobs[ticket]? = some phase) :
    ds.count (.lowered ticket) = if phase.holdsFlag = true then 0 else 1 := by
  have hlt : ticket < w.jobs.length := (List.getElem?_eq_some_iff.1 hphase).1
  have hholds : w.Holds ticket ↔ phase.holdsFlag = true := by simp [Holds, hphase]
  cases h with
  | free _ hover =>
    have hflag : ¬ phase.holdsFlag = true := fun h => hover _ (hholds.2 h)
    simp [count_rounds, FlagDeed.ticket, hlt, hflag]
  | busy n _ hlength hlast =>
    have hflag : phase.holdsFlag = true ↔ ticket = n := hholds.symm.trans (hlast ticket)
    rw [List.count_append, count_rounds]
    rcases Nat.lt_or_eq_of_le (Nat.lt_succ_iff.1 (hlength ▸ hlt)) with hlt | heq
    · simp [FlagDeed.ticket, hlt, hflag, Nat.ne_of_lt hlt]
    · simp [FlagDeed.ticket, heq, hflag]

/-- The flag is raised exactly if it is held for a job. -/
lemma InTurn.isBusy_iff (h : w.InTurn ds) : w.isBusy = true ↔ ∃ ticket, w.Holds ticket := by
  cases h with
  | free hfree hover => simp [hfree, hover]
  | busy n hbusy _ hholds => simp [hbusy, hholds]

/-- The flag is held for one job at most. -/
lemma InTurn.holds_unique (h : w.InTurn ds) {ticket other : Nat} (hticket : w.Holds ticket)
    (hother : w.Holds other) : other = ticket := by
  cases h with
  | free _ hover => exact absurd hticket (hover ticket)
  | busy n _ _ hholds => exact ((hholds other).1 hother).trans ((hholds ticket).1 hticket).symm

/-- A guard holds the flag. -/
lemma HasGuard.holds {ticket : Nat} (h : w.HasGuard ticket) : w.Holds ticket := by
  obtain ⟨phase, hphase, hguard⟩ := h
  exact ⟨phase, hphase, JobPhase.holdsFlag_of_hasGuard hguard⟩

/-- Only a guard lowers the flag, its own: the flag was raised, and it is lowered now. -/
lemma Taken.of_lowered {ticket : Nat} (h : w.Taken w' (some (.lowered ticket))) :
    w.HasGuard ticket ∧ w'.isBusy = false := by
  cases h with
  | lowered _ phase hphase hguard outcome => exact ⟨⟨phase, hphase, hguard⟩, rfl⟩

/-- The flag is lowered by the release of a job and by nothing else. -/
lemma eq_release_of_lowered {step : WorkerStep} {ticket : Nat}
    (h : w.deed? step = some (.lowered ticket)) : step = .release ticket := by
  cases step with
  | acquire hasRuntime job =>
    simp only [deed?] at h
    split at h <;> simp at h
  | release other =>
    simp only [deed?] at h
    split at h
    · rw [FlagDeed.lowered.inj (Option.some.inj h)]
    · exact nomatch h
  | arm | begin | resolve => exact nomatch h

/-- Without such a deed a raised flag stays raised. -/
lemma Taken.isBusy_eq_true (h : w.Taken w' d) (hbusy : w.isBusy = true)
    (hd : ∀ ticket, d ≠ some (.lowered ticket)) : w'.isBusy = true := by
  cases h with
  | idle => exact hbusy
  | raised => rfl
  | moved => exact hbusy
  | lowered ticket => exact absurd rfl (hd ticket)

/-- Without such a deed a flag that is down stays down. -/
lemma Taken.isBusy_eq_false (h : w.Taken w' d) (hfree : w.isBusy = false)
    (hd : ∀ ticket, d ≠ some (.raised ticket)) : w'.isBusy = false := by
  cases h with
  | idle => exact hfree
  | raised => exact absurd rfl (hd _)
  | moved => exact hfree
  | lowered => rfl

end InTurn

/-! ### Every job comes to its end -/

section Ends

variable {w w' : Worker} {d : Option FlagDeed} {ticket stage : Nat}

/-- No step takes a job back. One case for each step: a job that is moved or ended comes to a later
stage, a new job stands behind the others, and all other jobs keep their phases. -/
lemma Taken.reaches (h : w.Taken w' d) (hreach : w.Reaches ticket stage) :
    w'.Reaches ticket stage := by
  obtain ⟨phase, hphase, hstage⟩ := hreach
  have hlt : ticket < w.jobs.length := (List.getElem?_eq_some_iff.1 hphase).1
  have hset : ∀ (other : Nat) (old new : JobPhase), w.jobs[other]? = some old →
      old.stage ≤ new.stage → (w.setPhase other new).Reaches ticket stage := by
    intro other old new hold hle
    unfold Reaches setPhase
    by_cases heq : other = ticket
    · subst heq
      obtain rfl := Option.some.inj (hphase.symm.trans hold)
      exact ⟨new, by simp [hlt], Nat.le_trans hstage hle⟩
    · exact ⟨phase, by simpa [List.getElem?_set_ne heq] using hphase, hstage⟩
  cases h with
  | idle => exact ⟨phase, hphase, hstage⟩
  | raised job => exact ⟨phase, by simpa [List.getElem?_append_left hlt] using hphase, hstage⟩
  | moved other old new hold _ hle => exact hset other old new hold hle
  | lowered other old hold hguard outcome =>
    exact hset other old (.released outcome) hold (JobPhase.stage_le_of_hasGuard hguard)

/-- The steps that a job cannot do without, in order. It need not run: if it is given up before,
its guard goes too. -/
def ownSteps (ticket : Nat) : List WorkerStep := [.arm ticket, .release ticket, .resolve ticket]

/-- Each of these brings a job to the next stage, if it is not there yet. If the job is further
already it stays so, because no step takes it back. Otherwise its phase tells which of the steps
this is, and this step is what the phase allows. -/
lemma reaches_own {step : WorkerStep} (hstep : (ownSteps ticket)[stage]? = some step)
    (hreach : w.Reaches ticket stage) : (w.take step).Reaches ticket (stage + 1) := by
  obtain ⟨phase, hphase, hstage⟩ := hreach
  rcases Nat.eq_or_lt_of_le hstage with rfl | hpast
  · have hlt : ticket < w.jobs.length := (List.getElem?_eq_some_iff.1 hphase).1
    have hset : ∀ (new : JobPhase) (w' : Worker), w'.jobs = w.jobs.set ticket new →
        phase.stage + 1 ≤ new.stage → w'.Reaches ticket (phase.stage + 1) :=
      fun new w' hjobs hle => ⟨new, by simp [hjobs, hlt], hle⟩
    cases phase with
    | acquired job =>
      obtain rfl : WorkerStep.arm ticket = step := Option.some.inj hstep
      exact hset (.queued job) _ (by simp [take, arm, hphase, setPhase]) Nat.le.refl
    | queued job =>
      obtain rfl : WorkerStep.release ticket = step := Option.some.inj hstep
      exact hset (.released (.error (.aborted "the job was given up"))) _
        (by simp only [take, release, hphase, setPhase]) Nat.le.refl
    | running job =>
      obtain rfl : WorkerStep.release ticket = step := Option.some.inj hstep
      exact hset (.released (w.outcome job)) _
        (by simp only [take, release, hphase, setPhase]) Nat.le.refl
    | released outcome =>
      obtain rfl : WorkerStep.resolve ticket = step := Option.some.inj hstep
      exact hset (.ready outcome) _ (by simp [take, resolve, hphase, setPhase]) Nat.le.refl
    | ready outcome => exact absurd hstep (by simp [ownSteps, JobPhase.stage])
  · exact (w.taken_take step).reaches ⟨phase, hphase, hpast⟩

/-- **Every job comes to its end,** if only the steps come that it cannot do without, whatever comes
between them. -/
theorem reaches_takeAll (later : List WorkerStep) : ∀ {w : Worker} {stage : Nat}, stage ≤ 3 →
    w.Reaches ticket stage → ((ownSteps ticket).drop stage).Sublist later →
    (w.takeAll later).Reaches ticket 3 := by
  induction later with
  | nil =>
    intro w stage hle hreach hsub
    have hover : stage = 3 := Nat.le_antisymm hle (by simpa [ownSteps] using hsub)
    exact hover ▸ hreach
  | cons step later ih =>
    intro w stage hle hreach hsub
    rcases List.sublist_cons_iff.1 hsub with hsub | ⟨rest, hrest, hsub⟩
    · exact ih hle ((w.taken_take step).reaches hreach) hsub
    · have hstep : (ownSteps ticket)[stage]? = some step := by
        have := congrArg (·[0]?) hrest
        simpa [List.getElem?_drop] using this
      have hlt : stage < 3 := (List.getElem?_eq_some_iff.1 hstep).1
      refine ih hlt (reaches_own hstep hreach) ?_
      rwa [← List.tail_drop, hrest]

/-- A job that has all its steps behind it has its outcome. -/
lemma Reaches.outcome? (h : w.Reaches ticket 3) : (w.outcome? ticket).isSome = true := by
  obtain ⟨phase, hphase, hstage⟩ := h
  cases phase with
  | ready outcome => simp [Worker.outcome?, hphase]
  | _ => exact absurd hstage (by simp [JobPhase.stage])

end Ends

/-! ### Accepting a job -/

/-- **Acceptance.** A job was accepted: the flag was down and is raised, one job is recorded behind
all others, in this phase and under its ticket, and nothing else has changed. -/
structure Accepts (w : Worker) (phase : JobPhase) (ticket : Nat) (w' : Worker) : Prop where
  free : w.isBusy = false
  raised : w'.isBusy = true
  ticket_eq : ticket = w.jobs.length
  jobs_eq : w'.jobs = w.jobs ++ [phase]
  catalog_eq : w'.catalog = w.catalog
  options_eq : w'.options = w.options

section Accepts

variable {w w' : Worker} {ticket : Nat} {phase : JobPhase} {job : CompileJob} {hasRuntime : Bool}

/-- The job that was accepted is found under its ticket. -/
lemma Accepts.getElem?_jobs (h : w.Accepts phase ticket w') : w'.jobs[ticket]? = some phase := by
  rw [h.jobs_eq, h.ticket_eq]
  exact List.getElem?_concat_length

/-- What comes out of a job depends on the catalog and the options, and acceptance leaves them as
they are. -/
lemma Accepts.outcome_eq (h : w.Accepts phase ticket w') (job : CompileJob) :
    w'.outcome job = w.outcome job := by
  cases job with
  | page page => rw [outcome, outcome, h.catalog_eq, h.options_eq]
  | breakdown => rfl

/-- **Winning the flag** accepts a job that has no guard yet. There is no other way for the flag to
be won: it was down, and the job is the only one that is recorded. -/
lemma accepts_acquire (h : w.acquire hasRuntime job = .ok (ticket, w')) :
    w.Accepts (.acquired job) ticket w' := by
  unfold acquire at h
  cases hasRuntime with
  | false => exact nomatch h
  | true =>
    cases hfree : w.isBusy with
    | true => simp [hfree] at h
    | false =>
      simp only [hfree] at h
      obtain ⟨rfl, rfl⟩ := Prod.mk.inj (Except.ok.inj h)
      exact ⟨hfree, rfl, rfl, rfl, rfl, rfl⟩

/-- The guard of a job that has won the flag is made, and the job waits to run. -/
lemma arm_of_acquired (hjob : w.jobs[ticket]? = some (.acquired job)) :
    w.arm ticket = w.setPhase ticket (.queued job) := by
  rw [arm, hjob]

/-- **Making the guard** of a job that has just been accepted leaves it accepted, with its guard. -/
lemma Accepts.arm (h : w.Accepts (.acquired job) ticket w') :
    w.Accepts (.queued job) ticket (w'.arm ticket) := by
  rw [arm_of_acquired h.getElem?_jobs]
  refine ⟨h.free, h.raised, h.ticket_eq, ?_, h.catalog_eq, h.options_eq⟩
  rw [setPhase, h.jobs_eq, h.ticket_eq, List.set_append_right _ _ Nat.le.refl, Nat.sub_self]
  rfl

/-- **Submitting** accepts a job by winning the flag for it and making its guard, if nobody comes
between the two. -/
theorem accepts_submit (h : w.submit hasRuntime job = .ok (ticket, w')) :
    w.Accepts (.queued job) ticket w' ∧
      w' = w.takeAll [.acquire hasRuntime job, .arm ticket] ∧
      w.deeds [.acquire hasRuntime job, .arm ticket] = [.raised ticket] := by
  unfold submit at h
  cases hwon : w.acquire hasRuntime job with
  | error e =>
    rw [hwon] at h
    exact nomatch h
  | ok won =>
    obtain ⟨first, next⟩ := won
    rw [hwon] at h
    obtain ⟨rfl, rfl⟩ := Prod.mk.inj (Except.ok.inj h)
    exact ⟨(accepts_acquire hwon).arm, by simp [takeAll, take, hwon], by simp [deeds, deed?, hwon]⟩

/-- **Left alone,** a job with its guard runs to its end: its outcome is there, and its guard has
lowered the flag. -/
lemma Accepts.finish (h : w.Accepts (.queued job) ticket w') :
    (w'.finish ticket).outcome? ticket = some (w.outcome job) ∧
      (w'.finish ticket).isBusy = false := by
  have hlt : ticket < w'.jobs.length := (List.getElem?_eq_some_iff.1 h.getElem?_jobs).1
  have hbegin : w'.begin ticket = w'.setPhase ticket (.running job) := by
    rw [begin, h.getElem?_jobs]
  have hrelease : (w'.begin ticket).release ticket =
      { w'.setPhase ticket (.released (w.outcome job)) with isBusy := false } := by
    have hphase : (w'.begin ticket).jobs[ticket]? = some (.running job) := by
      simp [hbegin, setPhase, hlt]
    rw [release, hphase]
    simp only [hbegin, setPhase, List.set_set, ← h.outcome_eq job]
    rfl
  have hphase : ((w'.begin ticket).release ticket).jobs[ticket]? =
      some (.released (w.outcome job)) := by
    simp [hrelease, setPhase, hlt]
  have hfinish : w'.finish ticket =
      ((w'.begin ticket).release ticket).setPhase ticket (.ready (w.outcome job)) := by
    rw [Worker.finish, resolve, hphase]
  constructor
  · simp [hfinish, hrelease, Worker.outcome?, setPhase, hlt]
  · rw [hfinish, hrelease]
    rfl

/-- The flag is raised by a submission that wins it, for the job that is accepted by it. -/
lemma accepts_of_raised {step : WorkerStep} (h : w.deed? step = some (.raised ticket)) :
    ∃ hasRuntime job, step = .acquire hasRuntime job ∧
      w.Accepts (.acquired job) ticket (w.take step) := by
  cases step with
  | acquire hasRuntime job =>
    cases hwon : w.acquire hasRuntime job with
    | error e => simp [deed?, hwon] at h
    | ok won =>
      obtain ⟨first, next⟩ := won
      obtain rfl : first = ticket := by simpa [deed?, hwon] using h
      have htake : w.take (.acquire hasRuntime job) = next := by simp [take, hwon]
      exact ⟨hasRuntime, job, rfl, htake ▸ accepts_acquire hwon⟩
  | release other =>
    simp only [deed?] at h
    split at h
    · exact nomatch h
    · exact nomatch h
  | arm | begin | resolve => exact nomatch h

/-- Where a guard is about to be made it is made by the next step for the job. -/
lemma IsArming.hasGuard (h : w.IsArming ticket) : (w.take (.arm ticket)).HasGuard ticket := by
  obtain ⟨job, hjob⟩ := h
  have hlt : ticket < w.jobs.length := (List.getElem?_eq_some_iff.1 hjob).1
  rw [take, arm_of_acquired hjob]
  exact ⟨.queued job, by simp [setPhase, hlt], rfl⟩

end Accepts

/-! ### What is promised -/

/-- **One job at a time.** What is promised of a worker that has come so far, with these deeds. -/
structure FliesSingly (w : Worker) (ds : List FlagDeed) : Prop where
  /-- There is one guard at most. -/
  one_guard : ∀ {ticket other : Nat}, w.HasGuard ticket → w.HasGuard other → other = ticket
  /-- The flag is raised exactly while there is a guard or one is about to be made. -/
  busy : w.isBusy = true ↔ (∃ ticket, w.HasGuard ticket) ∨ ∃ ticket, w.IsArming ticket
  /-- A submission is refused as busy exactly if the flag is raised, -/
  refused_busy : ∀ (hasRuntime : Bool) (job : CompileJob),
    w.submit hasRuntime job = .error .busy ↔ hasRuntime = true ∧ w.isBusy = true
  /-- it is refused for want of a runtime exactly if there is none, -/
  refused_noRuntime : ∀ (hasRuntime : Bool) (job : CompileJob),
    w.submit hasRuntime job = .error .noRuntime ↔ hasRuntime = false
  /-- and a refusal changes nothing. -/
  unchanged : ∀ (hasRuntime : Bool) (job : CompileJob) (e : WorkerRefusal),
    w.submit hasRuntime job = .error e →
      w.take (.acquire hasRuntime job) = w ∧ w.deed? (.acquire hasRuntime job) = none
  /-- A submission that wins the flag found it down and has raised it for one job more, which is
  recorded under its ticket, -/
  won : ∀ (hasRuntime : Bool) (job : CompileJob) (ticket : Nat) (w' : Worker),
    w.acquire hasRuntime job = .ok (ticket, w') →
      w.Accepts (.acquired job) ticket w' ∧ w.take (.acquire hasRuntime job) = w' ∧
        w.deed? (.acquire hasRuntime job) = some (.raised ticket)
  /-- and whose guard it makes next, whoever comes between. -/
  armed : ∀ ticket, w.IsArming ticket →
    (w.take (.arm ticket)).HasGuard ticket ∧ (w.take (.arm ticket)).isBusy = true
  /-- If nobody comes between, then the job that is accepted has its guard at once, -/
  accepted : ∀ (hasRuntime : Bool) (job : CompileJob) (ticket : Nat) (w' : Worker),
    w.submit hasRuntime job = .ok (ticket, w') →
      w.Accepts (.queued job) ticket w' ∧ w'.HasGuard ticket ∧
        w' = w.takeAll [.acquire hasRuntime job, .arm ticket] ∧
        w.deeds [.acquire hasRuntime job, .arm ticket] = [.raised ticket]
  /-- and left alone it has its own outcome at the end, with the flag down. -/
  finished : ∀ (hasRuntime : Bool) (job : CompileJob) (ticket : Nat) (w' : Worker),
    w.submit hasRuntime job = .ok (ticket, w') →
      (w'.finish ticket).outcome? ticket = some (w.outcome job) ∧
        (w'.finish ticket).isBusy = false
  /-- The jobs had the flag one after the other. -/
  turns : w.InTurn ds
  /-- Only jobs that were accepted have raised the flag or lowered it. -/
  recorded : ∀ deed ∈ ds, deed.ticket < w.jobs.length
  /-- Every job that was accepted has raised the flag once. -/
  raised : ∀ ticket < w.jobs.length, ds.count (.raised ticket) = 1
  /-- It has lowered the flag once if it holds it no more, and not yet if it does; -/
  lowered : ∀ (ticket : Nat) (phase : JobPhase), w.jobs[ticket]? = some phase →
    ds.count (.lowered ticket) = if phase.holdsFlag = true then 0 else 1
  /-- so it has lowered it once its outcome is there. -/
  concluded : ∀ (ticket : Nat) (outcome : CompileOutcome), w.outcome? ticket = some outcome →
    ds.count (.lowered ticket) = 1
  /-- Who raises the flag is a submission that wins it. -/
  raises : ∀ (step : WorkerStep) (ticket : Nat), w.deed? step = some (.raised ticket) →
    ∃ hasRuntime job, step = .acquire hasRuntime job ∧
      w.Accepts (.acquired job) ticket (w.take step)
  /-- Nothing else that happens raises the flag. -/
  free : ∀ step : WorkerStep, w.isBusy = false → (∀ ticket, w.deed? step ≠ some (.raised ticket)) →
    (w.take step).isBusy = false
  /-- Who lowers the flag lets go its own guard, and holds the flag alone. -/
  own : ∀ (step : WorkerStep) (ticket : Nat), w.deed? step = some (.lowered ticket) →
    step = .release ticket ∧ w.HasGuard ticket ∧ (∀ other, w.Holds other → other = ticket) ∧
      (w.take step).isBusy = false
  /-- Nothing else that happens lowers the flag. -/
  kept : ∀ step : WorkerStep, w.isBusy = true → (∀ ticket, w.deed? step ≠ some (.lowered ticket)) →
    (w.take step).isBusy = true
  /-- A job that was accepted has its outcome, and has lowered the flag once, when all has happened
  that it cannot do without. -/
  ends : ∀ (ticket : Nat) (phase : JobPhase), w.jobs[ticket]? = some phase →
    ∀ later : List WorkerStep, ((ownSteps ticket).drop phase.stage).Sublist later →
      ((w.takeAll later).outcome? ticket).isSome = true ∧
        (ds ++ w.deeds later).count (.lowered ticket) = 1

section FliesSingly

variable {w : Worker} {ds : List FlagDeed}

/-- The flag is held with a guard or without one. -/
lemma holds_iff (ticket : Nat) : w.Holds ticket ↔ w.HasGuard ticket ∨ w.IsArming ticket := by
  constructor
  · rintro ⟨phase, hphase, hflag⟩
    cases phase with
    | acquired job => exact .inr ⟨job, hphase⟩
    | queued | running => exact .inl ⟨_, hphase, rfl⟩
    | released | ready => exact absurd hflag Bool.false_ne_true
  · rintro (hguard | ⟨job, hjob⟩)
    · exact hguard.holds
    · exact ⟨_, hjob, rfl⟩

/-- A submission is refused as its first step is. -/
lemma submit_eq_error (hasRuntime : Bool) (job : CompileJob) (e : WorkerRefusal) :
    w.submit hasRuntime job = .error e ↔ w.acquire hasRuntime job = .error e := by
  unfold submit
  cases w.acquire hasRuntime job with
  | error e' => rfl
  | ok won => exact ⟨fun h => (nomatch h), fun h => (nomatch h)⟩

/-- A job whose outcome is there is ready. -/
lemma ready_of_outcome? {ticket : Nat} {outcome : CompileOutcome}
    (h : w.outcome? ticket = some outcome) : w.jobs[ticket]? = some (.ready outcome) := by
  unfold Worker.outcome? at h
  split at h
  · rename_i hready
    rw [hready, Option.some.inj h]
  · exact nomatch h

/-- What a submission is refused for. -/
lemma acquire_eq_error (hasRuntime : Bool) (job : CompileJob) (e : WorkerRefusal) :
    w.acquire hasRuntime job = .error e ↔
      if hasRuntime = false then e = .noRuntime else w.isBusy = true ∧ e = .busy := by
  unfold acquire
  cases hasRuntime with
  | false => simp [eq_comm]
  | true => cases hbusy : w.isBusy <;> simp [eq_comm]

/-- **Only jobs that were accepted** have deeds: in rounds there are none of later jobs, and the
last job that was accepted is the one that holds a raised flag. -/
lemma InTurn.ticket_lt (h : w.InTurn ds) {deed : FlagDeed} (hdeed : deed ∈ ds) :
    deed.ticket < w.jobs.length := by
  have hrounds : ∀ {n}, deed ∈ rounds n → deed.ticket < n := by
    intro n hmem
    have hpos := List.count_pos_iff.2 hmem
    rw [count_rounds] at hpos
    split at hpos
    · assumption
    · exact absurd hpos (Nat.lt_irrefl 0)
  cases h with
  | free => exact hrounds hdeed
  | busy n _ hlength =>
    rw [hlength]
    rcases List.mem_append.1 hdeed with hpast | hlast
    · exact Nat.lt_succ_of_lt (hrounds hpast)
    · rw [List.mem_singleton.1 hlast]
      exact Nat.lt_succ_self n

/-- **Once.** A job that was accepted has raised the flag once. -/
lemma InTurn.count_raised (h : w.InTurn ds) {ticket : Nat} (hlt : ticket < w.jobs.length) :
    ds.count (.raised ticket) = 1 := by
  cases h with
  | free => simp [count_rounds, FlagDeed.ticket, hlt]
  | busy n _ hlength =>
    rw [List.count_append, count_rounds]
    rcases Nat.lt_or_eq_of_le (Nat.lt_succ_iff.1 (hlength ▸ hlt)) with hlt | rfl
    · simp [FlagDeed.ticket, hlt, (Nat.ne_of_lt hlt).symm]
    · simp [FlagDeed.ticket]

/-- **Once.** When all has happened that a job cannot do without, its outcome is there, and it has
lowered the flag once: it has come to its last phase, in which it holds the flag no more. -/
lemma InTurn.ends (h : w.InTurn ds) {ticket : Nat} {phase : JobPhase}
    (hphase : w.jobs[ticket]? = some phase) {later : List WorkerStep}
    (hsub : ((ownSteps ticket).drop phase.stage).Sublist later) :
    ((w.takeAll later).outcome? ticket).isSome = true ∧
      (ds ++ w.deeds later).count (.lowered ticket) = 1 := by
  obtain ⟨phase', hphase', hstage⟩ :=
    reaches_takeAll later phase.stage_le ⟨phase, hphase, Nat.le.refl⟩ hsub
  refine ⟨Reaches.outcome? ⟨phase', hphase', hstage⟩, ?_⟩
  rw [(h.takeAll later).count_lowered hphase', if_neg]
  cases phase' with
  | ready outcome => exact Bool.false_ne_true
  | _ => exact absurd hstage (by simp [JobPhase.stage])

end FliesSingly

end Worker

/-- **One job at a time.** Whatever is submitted to a worker, through whichever of its handles, and
however the steps of its jobs come between each other: there is one guard at most, and the flag is
raised exactly while there is one or a submission that has won the flag is about to make one. A
submission that is refused changes nothing, and only a raised flag makes it busy. One that is
accepted found the flag down, has raised it, and has recorded one job more, which gets the only
guard. Every job that is accepted raises the flag once and lowers it once, when its own guard goes,
before its outcome is there; it comes to its outcome if its steps come at all. Nobody else raises
the flag or lowers it, and nobody lowers it while another job holds it.

**Proof sketch.** A step does nothing, accepts a job while the flag is down, takes a job on with
what it holds, or lets a guard go. Each of these keeps the jobs in turn: all have raised and lowered
the flag, one after the other, but the last while the flag is raised. So the deeds of any run are
known, and with them how often each job raised and lowered the flag. -/
theorem single_flight (catalog : Catalog) (options : GenerateOptions) (steps : List WorkerStep) :
    ((Worker.start catalog options).takeAll steps).FliesSingly
      ((Worker.start catalog options).deeds steps) := by
  have hturn := (Worker.inTurn_start catalog options).takeAll steps
  rw [List.nil_append] at hturn
  generalize (Worker.start catalog options).takeAll steps = w at hturn
  generalize (Worker.start catalog options).deeds steps = ds at hturn
  have hbusy : ∀ ticket, w.Holds ticket → w.isBusy = true := fun ticket h =>
    hturn.isBusy_iff.2 ⟨ticket, h⟩
  exact
    { one_guard := fun hticket hother => hturn.holds_unique hticket.holds hother.holds
      busy := by
        rw [hturn.isBusy_iff]
        simp only [Worker.holds_iff, exists_or]
      refused_busy := fun hasRuntime job => by
        rw [Worker.submit_eq_error, Worker.acquire_eq_error]
        cases hasRuntime <;> simp
      refused_noRuntime := fun hasRuntime job => by
        rw [Worker.submit_eq_error, Worker.acquire_eq_error]
        cases hasRuntime <;> simp
      unchanged := fun hasRuntime job e he => by
        have hrefused := (Worker.submit_eq_error hasRuntime job e).1 he
        simp [Worker.take, Worker.deed?, hrefused]
      won := fun hasRuntime job ticket w' hwon =>
        ⟨Worker.accepts_acquire hwon, by simp [Worker.take, hwon], by simp [Worker.deed?, hwon]⟩
      armed := fun ticket harming => by
        have hheld := hbusy ticket ((Worker.holds_iff ticket).2 (.inr harming))
        exact ⟨harming.hasGuard, (w.taken_arm ticket).isBusy_eq_true hheld (by simp)⟩
      accepted := fun hasRuntime job ticket w' hsubmit => by
        obtain ⟨haccepts, hsteps, hdeeds⟩ := Worker.accepts_submit hsubmit
        exact ⟨haccepts, ⟨_, haccepts.getElem?_jobs, rfl⟩, hsteps, hdeeds⟩
      finished := fun hasRuntime job ticket w' hsubmit =>
        (Worker.accepts_submit hsubmit).1.finish
      turns := hturn
      recorded := fun deed hdeed => hturn.ticket_lt hdeed
      raised := fun ticket hlt => hturn.count_raised hlt
      lowered := fun ticket phase hphase => hturn.count_lowered hphase
      concluded := fun ticket outcome houtcome =>
        hturn.count_lowered (Worker.ready_of_outcome? houtcome)
      raises := fun step ticket hdeed => Worker.accepts_of_raised hdeed
      free := fun step hfree hdeed => (w.taken_take step).isBusy_eq_false hfree hdeed
      own := fun step ticket hdeed => by
        have htaken := w.taken_take step
        rw [hdeed] at htaken
        obtain ⟨hguard, hfree⟩ := htaken.of_lowered
        exact ⟨Worker.eq_release_of_lowered hdeed, hguard,
          fun other hother => hturn.holds_unique hguard.holds hother, hfree⟩
      kept := fun step hheld hdeed => (w.taken_take step).isBusy_eq_true hheld hdeed
      ends := fun ticket phase hphase later hsub => hturn.ends hphase hsub }

end StickerBot
