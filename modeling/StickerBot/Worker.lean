import StickerBot.Compilation
set_option autoImplicit false

/-!
# One compile at a time

A worker compiles pages in the background, at most one at a time. A flag is raised when a job
is accepted and lowered when the job has ended, however it ends. A submission while the flag is
raised is refused, not queued.

## Main definitions

* `CompileJob`, `JobPhase` — a job, and how far it has come.
* `Worker` — the flag and the accepted jobs.
* `Worker.acquire`, `Worker.arm`, `Worker.begin`, `Worker.release`, `Worker.resolve` — the
  single steps of a job.
* `Worker.submit`, `Worker.finish` — accepting a job, and letting it run to its end.

## Design

Submissions may come from many sides and jobs run beside them, so each step that others can
see is one function. The flag is won first; the guard that will lower it is made in a second
step and goes with the job. `submit` and `finish` are what happens when no one comes between.
-/

namespace StickerBot

/-- **Jobs.** A page to compile, or one on which reading breaks down. -/
inductive CompileJob where
  | page (page : Except String (List Marker))
  | breakdown

/-- **Refusals.** Why a job is not accepted. -/
inductive WorkerRefusal where
  | busy
  /-- There is nothing to run a job on. -/
  | noRuntime
deriving DecidableEq, Repr

/-- The message of a refusal. -/
def WorkerRefusal.message : WorkerRefusal → String
  | .busy => "a compile is already in flight"
  | .noRuntime => "compile worker needs a running Tokio runtime"

/-- The outcome of a job. -/
abbrev CompileOutcome := Except CompileError Compilation

/-- **Phases of an accepted job.** -/
inductive JobPhase where
  /-- The flag is won, and the guard is not made yet. -/
  | acquired (job : CompileJob)
  /-- The guard is made, and the job waits to run. -/
  | queued (job : CompileJob)
  /-- The job runs. -/
  | running (job : CompileJob)
  /-- The guard is gone, and the outcome is on its way. -/
  | released (outcome : CompileOutcome)
  /-- The outcome is there. -/
  | ready (outcome : CompileOutcome)

namespace JobPhase

/-- Whether a guard exists for the job. -/
def hasGuard : JobPhase → Bool
  | .queued _ | .running _ => true
  | .acquired _ | .released _ | .ready _ => false

/-- Whether the job holds the flag, with a guard or about to have one. -/
def holdsFlag : JobPhase → Bool
  | .acquired _ | .queued _ | .running _ => true
  | .released _ | .ready _ => false

end JobPhase

/-- **Worker.** Its flag, and the accepted jobs in the order of their acceptance. A job is
named by its place in this order. -/
structure Worker where
  catalog : Catalog
  options : GenerateOptions
  /-- The flag. -/
  isBusy : Bool
  jobs : List JobPhase

namespace Worker

/-- A worker that has done nothing yet. -/
def start (catalog : Catalog) (options : GenerateOptions) : Worker :=
  ⟨catalog, options, false, []⟩

/-- Moves a job to another phase. -/
def setPhase (w : Worker) (ticket : Nat) (phase : JobPhase) : Worker :=
  { w with jobs := w.jobs.set ticket phase }

/-- **Acquiring.** Wins the flag for a job, if it is not raised. -/
def acquire (w : Worker) (hasRuntime : Bool) (job : CompileJob) :
    Except WorkerRefusal (Nat × Worker) :=
  if !hasRuntime then .error .noRuntime
  else if w.isBusy then .error .busy
  else .ok (w.jobs.length, { w with isBusy := true, jobs := w.jobs ++ [.acquired job] })

/-- **Arming.** Makes the guard of a job and queues it. -/
def arm (w : Worker) (ticket : Nat) : Worker :=
  match w.jobs[ticket]? with
  | some (.acquired job) => w.setPhase ticket (.queued job)
  | _ => w

/-- **Beginning.** A queued job runs. -/
def begin (w : Worker) (ticket : Nat) : Worker :=
  match w.jobs[ticket]? with
  | some (.queued job) => w.setPhase ticket (.running job)
  | _ => w

/-- The outcome of a job that runs to its end. -/
def outcome (w : Worker) : CompileJob → CompileOutcome
  | .page page => compilePage w.catalog w.options page
  | .breakdown => .error (.aborted "the job broke down")

/-- **Releasing.** The guard of a job goes and lowers the flag: at the end of the job, or
before it runs if it is given up. -/
def release (w : Worker) (ticket : Nat) : Worker :=
  match w.jobs[ticket]? with
  | some (.running job) =>
    { w.setPhase ticket (.released (w.outcome job)) with isBusy := false }
  | some (.queued _) =>
    { w.setPhase ticket (.released (.error (.aborted "the job was given up"))) with
      isBusy := false }
  | _ => w

/-- **Resolving.** The outcome of a job arrives. -/
def resolve (w : Worker) (ticket : Nat) : Worker :=
  match w.jobs[ticket]? with
  | some (.released outcome) => w.setPhase ticket (.ready outcome)
  | _ => w

/-- **Submitting.** Accepts a job, or refuses it. -/
def submit (w : Worker) (hasRuntime : Bool) (job : CompileJob) :
    Except WorkerRefusal (Nat × Worker) :=
  match w.acquire hasRuntime job with
  | .error e => .error e
  | .ok (ticket, w) => .ok (ticket, w.arm ticket)

/-- The outcome of a job, once it is there. -/
def outcome? (w : Worker) (ticket : Nat) : Option CompileOutcome :=
  match w.jobs[ticket]? with
  | some (.ready outcome) => some outcome
  | _ => none

/-- **Finishing.** Lets a job run to its end. -/
def finish (w : Worker) (ticket : Nat) : Worker :=
  ((w.begin ticket).release ticket).resolve ticket

end Worker

end StickerBot
