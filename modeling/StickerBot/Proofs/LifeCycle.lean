import StickerBot.Proofs.Stepping
set_option autoImplicit false

/-!
# The life of a process

Whatever is done with a machine, in whatever order, what the outside sees are processes one after
the other, numbered from one. Each is reported when it starts and when it stops, and whatever else
is reported or done in between belongs to it. A command that ends a process halts the robot right
before; a process that ends by itself, at the end of its program or by a fault, is ended without
that.

## Main definitions

* `Operation`, `Machine.operate` — all that can be done with a machine.
* `Machine.entry`, `Machine.record`, `Machine.seen` — what is seen of one operation, and of
  several.
* `Machine.Operated` — all that an operation can do to the machine.
* `Stage`, `Stage.after?` — the protocol: where the log of a machine stands, and what may come
  next.

## Main results

* `Machine.operated_operate` — what each operation does to the machine.
* `Machine.operate_spec` — what each operation adds to the log.
* `life_cycle` — the log of a machine follows the protocol.

## Design

The protocol is a machine of its own that reads the log. It is either between processes, and
knows the number of the next one, or inside one, or between the halt of the robot and the end of
the process that the halt announces.
-/

namespace StickerBot

variable {σ : Type}

/-! ### Operations and their log -/

/-- **Operations.** All that can be done with a machine: commands, steps and taps. -/
inductive Operation where
  | load (p : Program)
  | loadListing (text : String)
  | start
  | restart
  | pause (remaining : Option Nat)
  | resume
  | stop
  | clear
  | connect (address : String)
  | shutdown
  | step
  | tap
deriving DecidableEq

/-- The same effect with another value. -/
def Effect.withValue {α β : Type} (e : Effect σ α) (b : β) : Effect σ β :=
  ⟨b, e.machine, e.signals⟩

namespace Machine

/-- **Operating.** What a step came to is kept; what a command answers is not. -/
def operate (a : Actuator σ) (m : Machine σ) : Operation → Effect σ (Option StepOutcome)
  | .load p => (m.load a p).withValue none
  | .loadListing text => (m.loadListing a text).withValue none
  | .start => (m.startProcess a).withValue none
  | .restart => (m.restart a).withValue none
  | .pause remaining => (m.pause remaining).withValue none
  | .resume => m.resume.withValue none
  | .stop => (m.stop a).withValue none
  | .clear => (m.clear a).withValue none
  | .connect address => (m.connect a address).withValue none
  | .shutdown => (m.shutdown a).withValue none
  | .step => (m.step a).withValue (some (m.step a).value)
  | .tap => ⟨none, m.raise, []⟩

end Machine

/-- **Entries of a log.** An operation, the status it found, what it came to if it was a step, and
what was seen of it. -/
structure Entry where
  operation : Operation
  status : Status
  outcome : Option StepOutcome
  signals : List Signal

namespace Machine

/-- The entry of an operation. -/
def entry (a : Actuator σ) (m : Machine σ) (op : Operation) : Entry :=
  ⟨op, m.status, (m.operate a op).value, (m.operate a op).signals⟩

/-- **The log** of operations one after the other. -/
def record (a : Actuator σ) (m : Machine σ) : List Operation → List Entry
  | [] => []
  | op :: ops => m.entry a op :: record a (m.operate a op).machine ops

/-- What is seen of operations one after the other. -/
def seen (a : Actuator σ) (m : Machine σ) (ops : List Operation) : List Signal :=
  (m.record a ops).flatMap Entry.signals

/-- The machine after operations. -/
def operateAll (a : Actuator σ) (m : Machine σ) : List Operation → Machine σ
  | [] => m
  | op :: ops => operateAll a (m.operate a op).machine ops

end Machine

/-! ### What an operation does -/

namespace Machine

/-- **Operated.** The machines that an operation can leave. -/
inductive Operated (a : Actuator σ) (m : Machine σ) : Operation → Machine σ → Prop where
  /-- The operation is refused, or is about the robot or the sensor only. -/
  | kept {op : Operation} (robot : σ) (tapped : Bool) :
    Operated a m op { m with robot := robot, tapped := tapped }
  /-- The process ends, if there is one. -/
  | halted {op : Operation} (robot : σ) :
    Operated a m op { m with robot := robot, process := none, status := .stopped }
  /-- So it does, and the program is replaced. -/
  | loaded {op : Operation} (robot : σ) (p : Program) : Operated a m op
    { m with
      robot := robot, process := none, status := .stopped
      program := some p, jumps := linkBlocks p.instructions }
  /-- So it does, and the program is forgotten. -/
  | cleared {op : Operation} (robot : σ) : Operated a m op
    { m with
      robot := robot, process := none, status := .stopped, program := none, jumps := [] }
  /-- A process begins. -/
  | launched {op : Operation} (robot : σ) (hprogram : m.program.isSome) : Operated a m op
    { m with
      robot := robot, tapped := false, nextPid := m.nextPid + 1
      process := some (.start m.nextPid), status := .running }
  /-- The process is paused. -/
  | paused (rest : Option Nat) (hs : m.status = .running) : Operated a m (.pause rest)
    { m with
      process := m.process.map fun p => { p with pendingWait := rest }, status := .paused }
  /-- The process is resumed. -/
  | resumed (hs : m.status = .paused) : Operated a m .resume
    { m with
      process := m.process.map fun p => { p with pendingWait := none }, status := .running }
  /-- The process executes an instruction, or what a step does else. -/
  | stepped : Operated a m .step (m.step a).machine

/-- **Operations** leave one of these machines. One case for each operation. What a stop leaves is
named first, because loading, clearing, restarting and shutting down all begin with one. -/
theorem operated_operate (a : Actuator σ) (m : Machine σ) (op : Operation) :
    m.Operated a op (m.operate a op).machine := by
  obtain ⟨halted, hstop⟩ := exists_stop_machine a m
  have hload : ∀ {op : Operation} (p : Program), m.Operated a op (m.load a p).machine := fun p => by
    simp only [load, hstop]
    exact .loaded halted p
  cases op with
  | load p => exact hload p
  | loadListing text =>
    simp only [operate, loadListing]
    split
    · exact .kept m.robot m.tapped
    · exact hload _
  | start =>
    simp only [operate, startProcess]
    split
    · exact .kept m.robot m.tapped
    · split
      · exact .kept m.robot m.tapped
      · rename_i hsome
        exact .launched _ (by simpa [Option.isSome_iff_ne_none] using hsome)
  | restart =>
    simp only [operate, restart]
    split
    · exact .kept m.robot m.tapped
    · rename_i hsome
      rw [hstop]
      exact .launched _ (by simpa [Option.isSome_iff_ne_none] using hsome)
  | pause rest =>
    simp only [operate, pause]
    split
    · exact .kept m.robot m.tapped
    · rename_i hs
      exact .paused rest (by simpa using hs)
  | resume =>
    simp only [operate, resume]
    split
    · exact .kept m.robot m.tapped
    · rename_i hs
      exact .resumed (by simpa using hs)
  | stop =>
    simp only [operate, Effect.withValue, hstop]
    exact .halted halted
  | clear =>
    simp only [operate, Effect.withValue, clear, hstop]
    exact .cleared halted
  | connect address => exact .kept _ m.tapped
  | shutdown =>
    simp only [operate, shutdown]
    split
    · simp only [Effect.withValue, hstop]
      exact .halted _
    · simp only [Effect.withValue, hstop]
      exact .halted halted
  | step => exact .stepped
  | tap => exact .kept m.robot true

end Machine

/-! ### The protocol -/

/-- Whether a call changes the connection to the robot, and nothing the robot does. -/
def RobotCall.changesConnection : RobotCall → Bool
  | .setAddress _ | .openConnection | .closeConnection => true
  | .perform _ _ | .allStop => false

/-- **Notes.** One signal of a log, whether it was a step that gave it, and the status that the
operation found. -/
structure Note where
  byStep : Bool
  status : Status
  signal : Signal

/-- The notes of an entry. -/
def Entry.notes (e : Entry) : List Note :=
  e.signals.map fun x => ⟨decide (e.operation = .step), e.status, x⟩

/-- **Stages** of a log. -/
inductive Stage where
  /-- No process lives; the next one has this number. -/
  | outside (next : Nat)
  /-- The process of this number lives. -/
  | inside (pid : Nat)
  /-- The robot was halted, and the process of this number ends next. -/
  | halting (pid : Nat)
deriving DecidableEq, Repr

/-- **The protocol.** The stage after one more note, if the note may come there.

A process starts only outside, under the next number. Traces, texts and errors come only inside,
with the number of the process and as those of a running one; actions and questions to the sensor
come only inside and not while the process is paused. A step may end the process; a command may
end it too, but must halt the robot right before. The connection may be changed outside and
inside. -/
def Stage.after? (s : Stage) (n : Note) : Option Stage :=
  match s, n.signal with
  | .outside next, .event (.processStarted info) =>
    if info.pid = next then some (.inside next) else none
  | .inside pid, .event (.trace info _ _) | .inside pid, .event (.print info _)
  | .inside pid, .event (.error info _) =>
    if info.pid = pid ∧ info.status = .running then some s else none
  | .inside _, .robot (.perform _ _) | .inside _, .poll _ =>
    if n.status = .paused then none else some s
  | .inside pid, .event (.processStopped info) =>
    if n.byStep = true ∧ info.pid = pid then some (.outside (pid + 1)) else none
  | .inside pid, .robot .allStop => if n.byStep = true then none else some (.halting pid)
  | .halting pid, .event (.processStopped info) =>
    if n.byStep = false ∧ info.pid = pid then some (.outside (pid + 1)) else none
  | .outside _, .robot (.setAddress _) | .inside _, .robot (.setAddress _)
  | .outside _, .robot .openConnection | .inside _, .robot .openConnection
  | .outside _, .robot .closeConnection | .inside _, .robot .closeConnection => some s
  | _, _ => none

/-- The stage after several notes, if they may come there. -/
def Stage.afterAll? (s : Stage) (notes : List Note) : Option Stage := notes.foldlM after? s

/-- **How steps end processes.** A step that comes to a fault has reported it last but for the end
of the process, and the fault is one that ends processes; and if a step ends the process, it has
found the end of the program or such a fault. -/
structure Entry.EndsWell (e : Entry) : Prop where
  faulted : ∀ f, e.outcome = some (.faulted f) → f.isFatal = true ∧
    ∃ earlier running stopped, e.signals =
      earlier ++ [.event (.error running f.message), .event (.processStopped stopped)]
  stopped : e.operation = .step → ∀ info, .event (.processStopped info) ∈ e.signals →
    e.outcome = some .finished ∨ ∃ f, e.outcome = some (.faulted f) ∧ f.isFatal = true

/-! ### The invariant -/

namespace Machine

/-- The stage that a machine is in. -/
def stage (m : Machine σ) : Stage :=
  match m.process with
  | none => .outside m.nextPid
  | some p => .inside p.pid

/-- **Order.** There is a process exactly if the machine is not stopped, and it has the last number
that was given. -/
def Orderly (m : Machine σ) : Prop :=
  match m.process with
  | none => m.status = .stopped
  | some p => m.status ≠ .stopped ∧ m.nextPid = p.pid + 1

/-- Without a process a machine is outside of any, and the next process gets the next number. -/
lemma stage_of_none {m : Machine σ} (h : m.process = none) : m.stage = .outside m.nextPid := by
  simp only [stage, h]

/-- With a process a machine is inside of it. -/
lemma stage_of_some {m : Machine σ} {p : Process} (h : m.process = some p) :
    m.stage = .inside p.pid := by
  simp only [stage, h]

/-- A process that lives is not stopped and has the last number. -/
lemma Orderly.of_some {m : Machine σ} (h : m.Orderly) {p : Process} (hp : m.process = some p) :
    m.status ≠ .stopped ∧ m.nextPid = p.pid + 1 := by
  simpa only [Orderly, hp] using h

/-- A stopped machine has no process. -/
lemma Orderly.process_eq_none {m : Machine σ} (h : m.Orderly) (hs : m.status = .stopped) :
    m.process = none := by
  cases hp : m.process with
  | none => rfl
  | some p => exact absurd hs (h.of_some hp).1

/-- A machine that is not stopped has a process. -/
lemma Orderly.exists_process {m : Machine σ} (h : m.Orderly) (hs : m.status ≠ .stopped) :
    ∃ p, m.process = some p := by
  cases hp : m.process with
  | none => exact absurd (by simpa only [Orderly, hp] using h) hs
  | some p => exact ⟨p, rfl⟩

/-- **Leading.** Signals of an operation that found some status lead from the stage of a machine
to that of an orderly machine. -/
structure Leads (byStep : Bool) (status : Status) (m : Machine σ) (signals : List Signal)
    (m' : Machine σ) : Prop where
  stage : m.stage.afterAll? (signals.map fun x => ⟨byStep, status, x⟩) = some m'.stage
  orderly : m'.Orderly

namespace Leads

variable {byStep : Bool} {status : Status} {m m' m'' : Machine σ} {signals later : List Signal}

/-- No signals lead an orderly machine to itself. -/
lemma refl (h : m.Orderly) : Leads byStep status m [] m := ⟨rfl, h⟩

/-- Signals after signals lead from the first machine to the last. -/
lemma trans (h : Leads byStep status m signals m') (h' : Leads byStep status m' later m'') :
    Leads byStep status m (signals ++ later) m'' := by
  refine ⟨?_, h'.orderly⟩
  have hfirst := h.stage
  have hlater := h'.stage
  unfold Stage.afterAll? at hfirst hlater ⊢
  rw [List.map_append, List.foldlM_append, hfirst, Option.bind_eq_bind, Option.bind_some, hlater]

/-- Only the process, the status and the numbering matter. -/
lemma to_same (h : Leads byStep status m signals m') (hprocess : m''.process = m'.process)
    (hstatus : m''.status = m'.status) (hnext : m''.nextPid = m'.nextPid) :
    Leads byStep status m signals m'' := by
  obtain ⟨hstage, horderly⟩ := h
  refine ⟨?_, ?_⟩
  · rw [hstage]
    simp only [Machine.stage, hprocess, hnext]
  · simpa only [Orderly, hprocess, hstatus, hnext] using horderly

end Leads

section Operate

variable {a : Actuator σ} {m : Machine σ}

/-- **Stopping** halts the robot and ends the process, or does nothing if there is none. -/
lemma leads_stop (h : m.Orderly) :
    Leads false m.status m (m.stop a).signals (m.stop a).machine ∧
      (m.stop a).machine.process = none := by
  unfold stop
  split
  · rename_i p hp
    have hnext := (h.of_some hp).2
    refine ⟨⟨?_, rfl⟩, rfl⟩
    rw [stage_of_some hp]
    simp [Stage.afterAll?, stage, Effect.after, endProcess, Stage.after?, hnext]
  · rename_i hp
    refine ⟨⟨?_, by simp [Orderly, hp]⟩, hp⟩
    rw [stage_of_none hp]
    simp [Stage.afterAll?, stage, hp]

/-- **Launching** begins the next process, if there is none. -/
lemma leads_launch (hp : m.process = none) (status : Status) :
    Leads false status m (m.launch a).signals (m.launch a).machine := by
  refine ⟨?_, by simp [launch, Orderly, Process.start]⟩
  rw [stage_of_none hp]
  unfold launch
  cases a.isConnected m.robot <;>
    simp [Stage.afterAll?, stage, Stage.after?, Process.start]

/-- Nothing is seen if the process stays and is not stopped. -/
lemma leads_quiet (h : m.Orderly) {m' : Machine σ} (hs : m.status ≠ .stopped)
    (hpid : m'.process.map Process.pid = m.process.map Process.pid) (hs' : m'.status ≠ .stopped)
    (hnext : m'.nextPid = m.nextPid) (byStep : Bool) (status : Status) :
    Leads byStep status m [] m' := by
  obtain ⟨p, hp⟩ := h.exists_process hs
  obtain ⟨p', hp', hpp'⟩ := Option.map_eq_some_iff.1 (hpid.trans (by rw [hp]; rfl))
  refine ⟨?_, ?_⟩
  · rw [stage_of_some hp, stage_of_some hp', hpp']
    rfl
  · simpa only [Orderly, hp', hnext, hpp'] using ⟨hs', (h.of_some hp).2⟩

/-- The connection may be changed at any time. -/
lemma leads_connection (h : m.Orderly) {c : RobotCall} (hc : c.changesConnection = true)
    (byStep : Bool) (status : Status) : Leads byStep status m [.robot c] m := by
  refine ⟨?_, h⟩
  cases hp : m.process with
  | none =>
    rw [stage_of_none hp]
    cases c <;> first | rfl | exact absurd hc (by simp [RobotCall.changesConnection])
  | some p =>
    rw [stage_of_some hp]
    cases c <;> first | rfl | exact absurd hc (by simp [RobotCall.changesConnection])

/-- Signals from inside a running process keep a log inside it. -/
lemma afterAll?_inside {pid : Nat} {signals : List Signal} (h : ∀ x ∈ signals, x.Inside pid) :
    (Stage.inside pid).afterAll? (signals.map fun x => ⟨true, .running, x⟩) =
      some (.inside pid) := by
  induction signals with
  | nil => rfl
  | cons x signals ih =>
    obtain ⟨hx, hsignals⟩ := List.forall_mem_cons.1 h
    have hafter : (Stage.inside pid).after? ⟨true, .running, x⟩ = some (.inside pid) := by
      unfold Signal.Inside at hx
      unfold Stage.after?
      split at hx <;> simp_all
    have hrest := ih hsignals
    unfold Stage.afterAll? at hrest ⊢
    rw [List.map_cons, List.foldlM_cons, hafter]
    exact hrest

/-- **Stepping** goes on inside the process, or ends it without a halt. What is seen of an
instruction is seen inside of the process; after a fatal fault, or where there is no instruction
left, comes the stop, which leaves the stage of the process. -/
lemma leads_step (h : m.Orderly) :
    Leads true m.status m (m.step a).signals (m.step a).machine := by
  have hstep := m.stepped_step a
  generalize m.step a = stepped at hstep
  cases hstep with
  | idle => exact .refl h
  | finished p hs hp =>
    have hboth := h.of_some hp
    exact ⟨by simp [Stage.afterAll?, Stage.after?, stage, hp, hboth.2], rfl⟩
  | moved p hs hp outcome ho robot tapped values pc signals hsignals =>
    have hboth := h.of_some hp
    refine ⟨?_, hboth⟩
    rw [hs]
    simpa [stage, hp] using afterAll?_inside hsignals
  | faulted p hs hp f hf robot tapped signals hsignals =>
    have hboth := h.of_some hp
    refine ⟨?_, rfl⟩
    have hinside := afterAll?_inside hsignals
    unfold Stage.afterAll? at hinside ⊢
    rw [hs, List.map_append, List.foldlM_append]
    simp [stage, hp, hinside, Stage.after?, hboth.2]

/-- **Operations.** What an operation on an orderly machine adds to the log follows the protocol,
and leaves an orderly machine. -/
theorem operate_spec (h : m.Orderly) (op : Operation) :
    Leads (decide (op = .step)) m.status m (m.operate a op).signals (m.operate a op).machine := by
  obtain ⟨hstop, hnone⟩ := leads_stop (a := a) h
  cases op with
  | load p => exact hstop.to_same rfl rfl rfl
  | loadListing text =>
    simp only [operate, loadListing]
    split
    · exact .refl h
    · exact hstop.to_same rfl rfl rfl
  | start =>
    simp only [operate, startProcess]
    split
    · exact .refl h
    · split
      · exact .refl h
      · rename_i hs _
        exact leads_launch (h.process_eq_none (by simpa using hs)) m.status
  | restart =>
    simp only [operate, restart]
    split
    · exact .refl h
    · exact hstop.trans (leads_launch hnone m.status)
  | pause remaining =>
    simp only [operate, pause]
    split
    · exact .refl h
    · rename_i hs
      have hrunning : m.status ≠ .stopped := by simp_all
      refine leads_quiet h hrunning ?_ (by simp [Effect.withValue]) (by rfl) _ _
      simp [Effect.withValue, Function.comp_def]
  | resume =>
    simp only [operate, resume]
    split
    · exact .refl h
    · rename_i hs
      have hpaused : m.status ≠ .stopped := by simp_all
      refine leads_quiet h hpaused ?_ (by simp [Effect.withValue]) (by rfl) _ _
      simp [Effect.withValue, Function.comp_def]
  | stop => exact hstop
  | clear => exact hstop.to_same rfl rfl rfl
  | connect address =>
    have haddress := leads_connection h (c := .setAddress address) rfl false m.status
    have hopen := leads_connection h (c := .openConnection) rfl false m.status
    exact (haddress.trans hopen).to_same rfl rfl rfl
  | shutdown =>
    simp only [operate, shutdown]
    split
    · have hclose := leads_connection hstop.orderly (c := .closeConnection) rfl false m.status
      exact (hstop.trans hclose).to_same rfl rfl rfl
    · exact hstop
  | step => exact leads_step h
  | tap => exact (Leads.refl h).to_same rfl rfl rfl

/-- What is seen inside a process is not its end. -/
lemma not_inside_stopped (pid : Nat) (info : ProcessInfo) :
    ¬ (Signal.event (.processStopped info)).Inside pid := by
  simp [Signal.Inside]

/-- **Ends.** An operation ends a process only as it may. Only a step has an outcome, and it ends
the process when there is no instruction left or when the fault is fatal, which it then reports
right before the stop. -/
theorem entry_endsWell (a : Actuator σ) (m : Machine σ) (op : Operation) :
    (m.entry a op).EndsWell := by
  by_cases hop : op = .step
  · subst hop
    have hstep := m.stepped_step a
    unfold entry operate
    dsimp only [Effect.withValue]
    generalize m.step a = stepped at hstep
    cases hstep with
    | idle => exact ⟨by simp [answer], by simp [answer]⟩
    | finished p hs hp => exact ⟨by simp, fun _ _ _ => .inl rfl⟩
    | moved p hs hp outcome ho robot tapped values pc signals hsignals =>
      constructor
      · intro f hf
        obtain rfl : outcome = .faulted f := by simpa using hf
        exact absurd ho (by simp [StepOutcome.goesOn])
      · intro _ info hinfo
        exact absurd (hsignals _ hinfo) (not_inside_stopped p.pid info)
    | faulted p hs hp f hf robot tapped signals hsignals =>
      constructor
      · intro f' hf'
        obtain rfl : f = f' := by simpa using hf'
        exact ⟨hf, signals, _, _, rfl⟩
      · exact fun _ _ _ => .inr ⟨f, rfl, hf⟩
  · have houtcome : (m.entry a op).outcome = none := by
      cases op <;> first | rfl | exact absurd rfl hop
    constructor
    · intro f hf
      rw [houtcome] at hf
      exact absurd hf (by simp)
    · exact fun h => absurd h hop

/-- The log of operations on an orderly machine follows the protocol from the stage of the machine
to that of the machine after them. -/
lemma afterAll?_record (a : Actuator σ) (ops : List Operation) : ∀ m : Machine σ, m.Orderly →
    m.stage.afterAll? ((m.record a ops).flatMap Entry.notes) = some (m.operateAll a ops).stage := by
  induction ops with
  | nil => intro m _; rfl
  | cons op ops ih =>
    intro m hm
    obtain ⟨hstage, horderly⟩ := operate_spec (a := a) hm op
    have hrest := ih (m.operate a op).machine horderly
    unfold Stage.afterAll? at hstage hrest ⊢
    rw [record, List.flatMap_cons, List.foldlM_append, Entry.notes, entry, hstage]
    exact hrest

/-- Every entry of a log ends its process, if it does, as it may. -/
lemma endsWell_of_mem_record (a : Actuator σ) (ops : List Operation) : ∀ m : Machine σ,
    ∀ e ∈ m.record a ops, e.EndsWell := by
  induction ops with
  | nil => intro m e he; simp [record] at he
  | cons op ops ih =>
    intro m e he
    rcases List.mem_cons.1 he with rfl | he
    · exact m.entry_endsWell a op
    · exact ih _ e he

end Operate

end Machine

/-- **Life cycle.** Whatever is done with a new machine, in whatever order, the log of it follows
the protocol: processes are reported to start and stop one after the other, numbered from one,
and all else that is reported or done by a program lies inside of one. At the end the log stands
where the machine does, and every step that ended a process has ended it well. -/
theorem life_cycle (a : Actuator σ) (config : MachineConfig) (robot : σ) (ops : List Operation) :
    (Stage.outside 1).afterAll? (((Machine.start config robot).record a ops).flatMap Entry.notes) =
        some ((Machine.start config robot).operateAll a ops).stage ∧
      ∀ e ∈ (Machine.start config robot).record a ops, e.EndsWell :=
  ⟨Machine.afterAll?_record a ops (.start config robot) rfl,
    Machine.endsWell_of_mem_record a ops (.start config robot)⟩

end StickerBot
