import Mathlib.Tactic.Lemma
import StickerBot.Machine.Step
set_option autoImplicit false

/-!
# What a step can do

An instruction changes the robot, the sensor and the process, and nothing else of the machine. A
step executes one instruction and moves the process on, or ends it. A stop ends it too.

## Main definitions

* `Signal.Inside` — what is seen of a process while it runs.
* `Machine.Stepped` — all that a step can come to.

## Main results

* `Machine.execute_spec` — what an instruction can do.
* `Machine.stepped_step` — what a step can do.
-/

namespace StickerBot

/-- **Inside.** What is seen of a running process of a number: actions, questions to the sensor,
and events that name the process and say that it runs. -/
def Signal.Inside (pid : Nat) : Signal → Prop
  | .event (.trace info _ _) | .event (.print info _) | .event (.error info _) =>
    info.pid = pid ∧ info.status = .running
  | .robot (.perform _ _) | .poll _ => True
  | _ => False

namespace Machine

variable {σ : Type}

/-- What executing an instruction of a running process comes to: the machine with another robot,
sensor and variables, and signals from inside the process; a fault is one that ends it. -/
structure Executed (m : Machine σ) (p : Process) {α : Type} (e : Effect σ (Except Fault α)) :
    Prop where
  machine : ∃ robot tapped values, e.machine =
    { m with robot := robot, tapped := tapped, process := some { p with values := values } }
  signals : ∀ x ∈ e.signals, x.Inside p.pid
  fatal : ∀ f, e.value = .error f → f.isFatal = true

section Execute

variable {m : Machine σ} {p : Process}

/-- What an instruction does that changes only the robot and the sensor. -/
lemma executed_of_quiet (hp : m.process = some p) {α : Type} {e : Effect σ (Except Fault α)}
    {robot : σ} {tapped : Bool} (hm : e.machine = { m with robot := robot, tapped := tapped })
    (hsignals : ∀ x ∈ e.signals, x.Inside p.pid)
    (hfatal : ∀ f, e.value = .error f → f.isFatal = true) : Executed m p e :=
  ⟨⟨robot, tapped, p.values, by rw [hm, ← hp]⟩, hsignals, hfatal⟩

/-- Reading a variable is seen inside the process, if at all. -/
lemma inside_read (hs : m.status = .running) (p : Process) (x : String) :
    ∀ s ∈ (m.read p x).2, s.Inside p.pid := by
  unfold read
  split
  · simp
  · simp [Signal.Inside, info, hs]

/-- A condition asks the sensor or reads a variable. -/
lemma executed_holds (hs : m.status = .running) (hp : m.process = some p) (c : Condition) :
    Executed m p (m.holds p c) := by
  cases c with
  | below x limit => exact executed_of_quiet hp rfl (inside_read hs p x) (by simp [holds])
  | sensorNotRaised sensor =>
    simp only [holds]
    split
    · exact executed_of_quiet hp rfl (by simp [answer]) (by simp [answer, Fault.isFatal])
    · split
      · exact executed_of_quiet hp rfl (by simp [Signal.Inside]) (by simp)
      · exact executed_of_quiet hp rfl (by simp [answer]) (by simp [answer, Fault.isFatal])

/-- A call asks the sensor or lets the robot act. A status is reported and ends nothing. -/
lemma executed_callNative (a : Actuator σ) (hs : m.status = .running) (hp : m.process = some p)
    (name : String) (arguments : List Int32) :
    Executed m p (m.callNative a p name arguments) := by
  unfold callNative
  split
  · exact executed_of_quiet hp rfl (by simp [answer]) (by simp [answer, Fault.isFatal])
  · split
    · exact executed_of_quiet hp rfl (by simp [Signal.Inside, info, hs]) (by simp)
    · refine executed_of_quiet hp rfl ?_ (by simp)
      dsimp only
      split <;> simp [Signal.Inside, info, hs]

/-- **Instructions.** What an instruction of a running process can do. One case for each
instruction: it changes the robot, the sensor and the counters alone, is seen inside of its process,
and if it fails so that the process ends, the fault is a fatal one. -/
theorem execute_spec (a : Actuator σ) (hs : m.status = .running) (hp : m.process = some p)
    (i : Instruction) : Executed m p (m.execute a p i) := by
  cases i with
  | call name arguments => exact executed_callNative a hs hp name arguments
  | wait units =>
    exact executed_of_quiet hp rfl (by simp [execute, answer]) (by simp [execute, answer])
  | assign x n => exact ⟨⟨m.robot, m.tapped, _, rfl⟩, by simp [execute], by simp [execute]⟩
  | increment x n =>
    exact ⟨⟨m.robot, m.tapped, _, rfl⟩, inside_read hs p x, by simp [execute]⟩
  | loop c =>
    have h := executed_holds hs hp c
    rcases hh : m.holds p c with ⟨f | _ | _, m', signals⟩ <;> rw [hh] at h <;>
      simp only [execute, hh]
    · exact ⟨h.machine, h.signals, fun f hf => h.fatal f (by simpa using hf)⟩
    · split
      · exact ⟨h.machine, h.signals, by simp⟩
      · exact ⟨h.machine, h.signals, by simp [Fault.isFatal]⟩
    · exact ⟨h.machine, h.signals, by simp⟩
  | close =>
    simp only [execute]
    split
    · exact executed_of_quiet hp rfl (by simp [answer]) (by simp [answer])
    · exact executed_of_quiet hp rfl (by simp [answer]) (by simp [answer, Fault.isFatal])
  | trace point =>
    exact executed_of_quiet hp rfl (by simp [execute, Signal.Inside, info, hs]) (by simp [execute])
  | print text =>
    exact executed_of_quiet hp rfl (by simp [execute, Signal.Inside, info, hs]) (by simp [execute])

end Execute

/-- **Stopping** leaves no process, and it may have halted the robot. -/
lemma exists_stop_machine (a : Actuator σ) (m : Machine σ) : ∃ robot, (m.stop a).machine =
    { m with robot := robot, process := none, status := .stopped } := by
  unfold stop
  cases hp : m.process with
  | none => exact ⟨m.robot, rfl⟩
  | some p => exact ⟨a.allStop m.robot, rfl⟩

/-- A step does nothing while no process runs. -/
lemma step_of_idle (a : Actuator σ) {m : Machine σ} (h : m.status = .running → m.process = none) :
    m.step a = m.answer .idle := by
  unfold step
  split
  · rename_i p hs hp
    exact absurd (h hs) (by simp [hp])
  · rfl

/-- A step ends a process that is at the end of its program. -/
lemma step_of_end (a : Actuator σ) {m : Machine σ} {p : Process} (hs : m.status = .running)
    (hp : m.process = some p) (hi : m.instruction? p.pc = none) :
    m.step a = ⟨.finished, (m.endProcess p).machine, (m.endProcess p).signals⟩ := by
  rw [step, hs, hp]
  simp only [hi]

/-- **Steps.** All that a step of a machine can come to. -/
inductive Stepped (m : Machine σ) : Effect σ StepOutcome → Prop where
  /-- No process runs, and nothing happens. -/
  | idle (h : m.status = .running → m.process = none) : Stepped m (m.answer .idle)
  /-- The process is at the end of its program and ends. -/
  | finished (p : Process) (hs : m.status = .running) (hp : m.process = some p) :
    Stepped m ⟨.finished, { m with status := .stopped, process := none },
      [.event (.processStopped ⟨p.pid, p.pc, .stopped⟩)]⟩
  /-- The process goes on. -/
  | moved (p : Process) (hs : m.status = .running) (hp : m.process = some p)
    (outcome : StepOutcome) (ho : StepOutcome.goesOn outcome = true) (robot : σ) (tapped : Bool)
    (values : Variables) (pc : Nat) (signals : List Signal)
    (hsignals : ∀ x ∈ signals, x.Inside p.pid) :
    Stepped m ⟨outcome, { m with
      robot := robot, tapped := tapped, process := some { p with values := values, pc := pc } },
      signals⟩
  /-- A fault ends the process. -/
  | faulted (p : Process) (hs : m.status = .running) (hp : m.process = some p) (f : Fault)
    (hf : f.isFatal = true) (robot : σ) (tapped : Bool) (signals : List Signal)
    (hsignals : ∀ x ∈ signals, x.Inside p.pid) :
    Stepped m ⟨.faulted f,
      { m with robot := robot, tapped := tapped, status := .stopped, process := none },
      signals ++ [.event (.error ⟨p.pid, p.pc, .running⟩ f.message),
        .event (.processStopped ⟨p.pid, p.pc, .stopped⟩)]⟩

/-- **One step** comes to one of these. The cases are those of the step: nothing runs, no
instruction is left, or one is executed and comes to a fault, to the next place, to a jump or to a
wait. -/
theorem stepped_step (a : Actuator σ) (m : Machine σ) : m.Stepped (m.step a) := by
  unfold step
  split
  · rename_i p hs hp
    split
    · exact .finished p hs hp
    · rename_i i _
      obtain ⟨⟨robot, tapped, values, hm⟩, hsignals, hfatal⟩ := execute_spec a hs hp i
      rcases hx : m.execute a p i with ⟨value, m', signals⟩
      rw [hx] at hm hsignals hfatal
      dsimp only at hm
      subst hm
      rcases value with f | _ | target | ms
      · have hstep := Stepped.faulted p hs hp f (hfatal f rfl) robot tapped signals hsignals
        simpa [endProcess, info, hs] using hstep
      · exact .moved p hs hp .continue rfl robot tapped values (p.pc + 1) signals hsignals
      · exact .moved p hs hp .continue rfl robot tapped values target signals hsignals
      · exact .moved p hs hp (.wait ms) rfl robot tapped values (p.pc + 1) signals hsignals
  · rename_i h
    refine .idle fun hs => ?_
    cases hp : m.process with
    | none => rfl
    | some p => exact absurd hp (h p hs)

end Machine

end StickerBot
