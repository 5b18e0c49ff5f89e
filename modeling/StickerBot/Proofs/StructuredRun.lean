import StickerBot.Proofs.Structured
set_option autoImplicit false

/-!
# The machine runs programs as trees

The machine keeps a place in a list of instructions and jumps along links found before the run.
Seen from outside it runs the tree of the program: step by step it shows the same moments and
keeps the same variables.

## Main definitions

* `Machine.Stands` — the machine is at a place of a program, in a scene.
* `Accords` — what is watched is what a block shows.

## Main results

* `Machine.step_perform`, `Machine.step_ask`, `Machine.step_close` — one step at a plain
  instruction, at a loop header and at a closing brace.
* `watch_block` — the machine, standing before a block, shows what the block shows and then
  stands behind it.
* `structured_run` — a freshly started machine with a balanced program shows what the tree of
  the program shows, for every number of steps.
-/

namespace StickerBot

variable {σ : Type}

/-- **Standing.** The machine runs a program and is at a place, in a scene. Whether the sensor
was tapped is left open. -/
structure Machine.Stands (m : Machine σ) (w : Setting σ) (p : Program) (place : Nat)
    (s : Scene σ) : Prop where
  config : m.config = w.config
  robot : m.robot = s.robot
  program : m.program = some p
  traceMap : p.traceMap = w.traceMap
  jumps : m.jumps = linkBlocks p.instructions
  process : m.process = some ⟨w.pid, place, s.values, none⟩
  status : m.status = .running

namespace Machine

/-- A tap does not move the machine. -/
lemma Stands.sense {m : Machine σ} {w : Setting σ} {p : Program} {place : Nat} {s : Scene σ}
    (h : m.Stands w p place s) (tap : Bool) : (m.sense tap).Stands w p place s := by
  rw [sense_eq]
  exact ⟨h.config, h.robot, h.program, h.traceMap, h.jumps, h.process, h.status⟩

/-- What a step comes to whose instruction has this effect. -/
def conclude (p : Process) (e : Effect σ (Except Fault Flow)) : Effect σ StepOutcome :=
  match e.value with
  | .ok .next => ⟨.continue, e.machine.goto (p.pc + 1), e.signals⟩
  | .ok (.jump target) => ⟨.continue, e.machine.goto target, e.signals⟩
  | .ok (.wait ms) => ⟨.wait ms, e.machine.goto (p.pc + 1), e.signals⟩
  | .error fault =>
    ⟨.faulted fault, (e.machine.endProcess p).machine,
      e.signals ++ .event (.error (e.machine.info p) fault.message) ::
        (e.machine.endProcess p).signals⟩

/-- An instruction that says to go on moves the process to the next place. -/
@[simp] lemma conclude_next (p : Process) (m : Machine σ) (signals : List Signal) :
    conclude p ⟨.ok .next, m, signals⟩ = ⟨.continue, m.goto (p.pc + 1), signals⟩ := rfl

/-- An instruction that jumps moves the process to the target. -/
@[simp] lemma conclude_jump (p : Process) (m : Machine σ) (signals : List Signal)
    (target : Nat) :
    conclude p ⟨.ok (.jump target), m, signals⟩ = ⟨.continue, m.goto target, signals⟩ := rfl

/-- An instruction that waits moves the process to the next place, and the step comes to the
wait. -/
@[simp] lemma conclude_wait (p : Process) (m : Machine σ) (signals : List Signal) (ms : Nat) :
    conclude p ⟨.ok (.wait ms), m, signals⟩ = ⟨.wait ms, m.goto (p.pc + 1), signals⟩ := rfl

/-- An instruction that fails shows what it has done, the fault, and the end of the process. -/
@[simp] lemma conclude_error (p : Process) (m : Machine σ) (signals : List Signal)
    (f : Fault) :
    conclude p ⟨.error f, m, signals⟩ =
      ⟨.faulted f, (m.endProcess p).machine,
        signals ++ .event (.error (m.info p) f.message) :: (m.endProcess p).signals⟩ := rfl

/-- A step executes the instruction at the place of the process. -/
lemma step_eq_conclude (a : Actuator σ) {m : Machine σ} {p : Process} {i : Instruction}
    (hs : m.status = .running) (hp : m.process = some p) (hi : m.instruction? p.pc = some i) :
    m.step a = conclude p (m.execute a p i) := by
  rw [step, hs, hp]
  simp only [hi]
  rcases m.execute a p i with ⟨_ | _ | _ | _, m', signals⟩ <;> rfl

/-- **Advancing.** What a step does, by what stands at the place of the process. -/
inductive Advances (a : Actuator σ) (m : Machine σ) : Effect σ StepOutcome → Prop where
  /-- No process runs. -/
  | idle (h : m.status = .running → m.process = none) : Advances a m (m.answer .idle)
  /-- The process is at the end of its program. -/
  | ended {p : Process} (hs : m.status = .running) (hp : m.process = some p)
    (hi : m.instruction? p.pc = none) :
    Advances a m ⟨.finished, (m.endProcess p).machine, (m.endProcess p).signals⟩
  /-- There is an instruction, which is executed. -/
  | concluded {p : Process} {i : Instruction} (hs : m.status = .running)
    (hp : m.process = some p) (hi : m.instruction? p.pc = some i) :
    Advances a m (conclude p (m.execute a p i))

/-- **A step** does one of these. -/
theorem advances_step (a : Actuator σ) (m : Machine σ) : m.Advances a (m.step a) := by
  by_cases hrun : m.status = .running ∧ ∃ p, m.process = some p
  · obtain ⟨hs, p, hp⟩ := hrun
    cases hi : m.instruction? p.pc with
    | none =>
      rw [step_of_end a hs hp hi]
      exact .ended hs hp hi
    | some i =>
      rw [step_eq_conclude a hs hp hi]
      exact .concluded hs hp hi
  · have hidle : m.status = .running → m.process = none := fun hs =>
      Option.eq_none_iff_forall_ne_some.2 fun p hp => hrun ⟨hs, p, hp⟩
    rw [step_of_idle a hidle]
    exact .idle hidle

section Step

variable {m : Machine σ} {w : Setting σ} {p : Program} {place : Nat} {s : Scene σ}

/-- A machine that stands at an instruction executes it. -/
lemma Stands.step_eq (h : m.Stands w p place s) {i : Instruction}
    (hi : p.instructions[place]? = some i) :
    m.step w.actuator = conclude ⟨w.pid, place, s.values, none⟩
      (m.execute w.actuator ⟨w.pid, place, s.values, none⟩ i) :=
  step_eq_conclude w.actuator h.status h.process (by simp [instruction?, h.program, hi])

/-- Events tell the same of a machine's process and of the setting. -/
lemma Stands.info_eq (h : m.Stands w p place s) :
    m.info ⟨w.pid, place, s.values, none⟩ = w.info place := by
  simp [info, Setting.info, h.status]

/-- A variable has the same value in the machine and in the scene. -/
lemma Stands.read_eq (h : m.Stands w p place s) (x : String) :
    m.read ⟨w.pid, place, s.values, none⟩ x = w.value place s x := by
  simp only [read, Setting.value, h.info_eq]
  rfl

/-- Writing a variable and going to a place leads to this place and to the changed scene. -/
lemma Stands.write (h : m.Stands w p place s) (x : String) (n : Int32) (target : Nat) :
    ((m.write ⟨w.pid, place, s.values, none⟩ x n).goto target).Stands w p target
      (s.assign x n) :=
  ⟨h.config, h.robot, h.program, h.traceMap, h.jumps, rfl, h.status⟩

/-- Going to a place changes nothing else. -/
lemma Stands.goto (h : m.Stands w p place s) (target : Nat) :
    (m.goto target).Stands w p target s :=
  ⟨h.config, h.robot, h.program, h.traceMap, h.jumps, by simp [Machine.goto, h.process], h.status⟩

/-- Asking the sensor is the next question of the scene. -/
lemma Stands.resetSensor (h : m.Stands w p place s) :
    m.resetSensor.Stands w p place s.afterQuestion :=
  ⟨h.config, h.robot, h.program, h.traceMap, h.jumps, h.process, h.status⟩

/-- A fault is seen with the end of the process and ends the process. -/
lemma moment_of_fault {a : Actuator σ} {f : Fault} (h : m.Stands w p place s)
    (hstep : m.step a = conclude ⟨w.pid, place, s.values, none⟩ (m.answer (.error f))) :
    m.moment a = w.faultMoment place f ∧ (m.step a).machine.process = none := by
  constructor
  · simp [moment, hstep, answer, endProcess, Setting.faultMoment, Setting.reportFault,
      Setting.stopped, h.info_eq]
  · simp [hstep, answer, endProcess]

/-- A step at a call. An action that is unknown is a fault. The sensor is asked with the next of the
given answers, and the robot answers with a status that is reported unless it is zero. -/
lemma step_call (h : m.Stands w p place s) {name : String} {arguments : List Int32}
    (hi : p.instructions[place]? = some (.call name arguments))
    (hh : Heeds w.answers s.asked [m.moment w.actuator]) :
    match w.call place s name arguments with
    | .error f =>
      m.moment w.actuator = w.faultMoment place f ∧
        (m.step w.actuator).machine.process = none
    | .ok (moment, s') =>
      m.moment w.actuator = moment ∧ StepOutcome.goesOn moment.outcome = true ∧
        (m.step w.actuator).machine.Stands w p (place + 1) s' ∧
        s'.asked = s.asked + (answersOf moment.signals).length := by
  have hstep := h.step_eq hi
  simp only [execute, callNative, h.info_eq] at hstep
  unfold Setting.call
  cases hn : NativeAction.ofName? name with
  | none =>
    rw [hn] at hstep
    exact moment_of_fault h hstep
  | some action =>
    cases hsensor : action.isSensor with
    | true =>
      simp only [hn, hsensor, poll, if_true] at hstep ⊢
      have hanswer : m.tapped = w.answers s.asked := by
        refine hh 0 _ ?_
        simp [Moment.answersAll, moment, hstep]
      refine ⟨?_, rfl, ?_, rfl⟩
      · simp [moment, hstep, hanswer]
      · rw [hstep]
        exact h.resetSensor.goto _
    | false =>
      simp only [hn, hsensor, h.robot] at hstep ⊢
      refine ⟨?_, rfl, ?_, ?_⟩
      · by_cases hz : (w.actuator.perform action arguments s.robot).1 = 0 <;>
          simp [moment, hstep, hz, Setting.info, h.status, Setting.reportFault]
      · rw [hstep]
        exact ⟨h.config, rfl, h.program, h.traceMap, h.jumps,
          by simp [Machine.goto, h.process], h.status⟩
      · dsimp only
        split <;> rfl

/-- **A step at a plain instruction.** One case for each of the instructions: what the machine does
is computed, and it is what the reference does in the same scene; the machine then stands before the
next place. -/
theorem step_perform (h : m.Stands w p place s) {i : Plain}
    (hi : p.instructions[place]? = some i.instruction)
    (hh : Heeds w.answers s.asked [m.moment w.actuator]) :
    match w.perform place s i with
    | .error f =>
      m.moment w.actuator = w.faultMoment place f ∧
        (m.step w.actuator).machine.process = none
    | .ok (moment, s') =>
      m.moment w.actuator = moment ∧ StepOutcome.goesOn moment.outcome = true ∧
        (m.step w.actuator).machine.Stands w p (place + 1) s' ∧
        s'.asked = s.asked + (answersOf moment.signals).length := by
  have hstep := h.step_eq hi
  cases i with
  | call name arguments => exact step_call h hi hh
  | wait units =>
    refine ⟨?_, rfl, ?_, rfl⟩
    · simp [moment, hstep, Plain.instruction, execute, answer, h.config]
    · rw [hstep]
      exact h.goto _
  | assign x n =>
    refine ⟨?_, rfl, ?_, rfl⟩
    · simp [moment, hstep, Plain.instruction, execute]
    · rw [hstep]
      exact h.write x n _
  | increment x n =>
    have hquiet := m.answersOf_read ⟨w.pid, place, s.values, none⟩ x
    simp only [Plain.instruction, execute, h.read_eq] at hstep hquiet
    rcases hv : w.value place s x with ⟨old, report⟩
    rw [hv] at hstep hquiet
    simp only [Setting.perform, hv]
    refine ⟨?_, rfl, ?_, by rw [hquiet]; rfl⟩
    · simp [moment, hstep]
    · rw [hstep]
      exact h.write x _ _
  | trace point =>
    refine ⟨?_, rfl, ?_, rfl⟩
    · simp [moment, hstep, Plain.instruction, execute, h.info_eq, h.program,
        h.traceMap]
    · rw [hstep]
      exact h.goto _
  | print text =>
    refine ⟨?_, rfl, ?_, rfl⟩
    · simp [moment, hstep, Plain.instruction, execute, h.info_eq]
    · rw [hstep]
      exact h.goto _

/-- **A step at a loop header** whose closing brace is at `closing`. A counter is compared with its
limit, or the sensor is asked with the next of the given answers. Depending on this the machine
stands before the body or behind the closing brace. -/
theorem step_ask (h : m.Stands w p place s) {c : Condition} {closing : Nat}
    (hi : p.instructions[place]? = some (.loop c))
    (hlink : (linkBlocks p.instructions)[place]? = some (some closing))
    (hh : Heeds w.answers s.asked [m.moment w.actuator]) :
    match w.ask place s c with
    | .error f =>
      m.moment w.actuator = w.faultMoment place f ∧
        (m.step w.actuator).machine.process = none
    | .ok (moment, goesRound, s') =>
      m.moment w.actuator = moment ∧ StepOutcome.goesOn moment.outcome = true ∧
        (m.step w.actuator).machine.Stands w p
          (if goesRound then place + 1 else closing + 1) s' ∧
        s'.asked = s.asked + (answersOf moment.signals).length := by
  have hstep := h.step_eq hi
  have hpartner : ∀ m' : Machine σ, m'.jumps = m.jumps → m'.partner? place = some closing := by
    intro m' hm'
    simp [partner?, hm', h.jumps, hlink]
  cases c with
  | below x limit =>
    have hquiet := m.answersOf_read ⟨w.pid, place, s.values, none⟩ x
    simp only [execute, holds, h.read_eq] at hstep hquiet
    rcases hv : w.value place s x with ⟨n, report⟩
    rw [hv] at hstep hquiet
    simp only [Setting.ask, hv]
    by_cases hn : n < limit
    · simp only [hn, decide_true] at hstep ⊢
      refine ⟨?_, rfl, ?_, by rw [hquiet]; rfl⟩
      · simp [moment, hstep]
      · rw [hstep]
        exact h.goto _
    · simp only [hn, decide_false, hpartner m rfl] at hstep ⊢
      refine ⟨?_, rfl, ?_, by rw [hquiet]; rfl⟩
      · simp [moment, hstep]
      · rw [hstep]
        exact h.goto _
  | sensorNotRaised sensor =>
    simp only [execute, holds] at hstep
    simp only [Setting.ask]
    cases hn : NativeAction.ofName? sensor with
    | none =>
      rw [hn] at hstep
      exact moment_of_fault h hstep
    | some action =>
      cases hsensor : action.isSensor with
      | false =>
        simp only [hn, hsensor] at hstep ⊢
        exact moment_of_fault h hstep
      | true =>
        simp only [hn, hsensor, poll, if_true] at hstep ⊢
        have hanswer : m.tapped = w.answers s.asked := by
          refine hh 0 _ ?_
          cases ht : m.tapped <;>
            simp [Moment.answersAll, moment, hstep, ht, hpartner m.resetSensor rfl]
        rw [← hanswer]
        cases ht : m.tapped with
        | false =>
          simp only [ht, Bool.not_false] at hstep ⊢
          refine ⟨?_, rfl, ?_, rfl⟩
          · simp [moment, hstep]
          · rw [hstep]
            exact h.resetSensor.goto _
        | true =>
          simp only [ht, Bool.not_true, hpartner m.resetSensor rfl] at hstep ⊢
          refine ⟨?_, rfl, ?_, rfl⟩
          · simp [moment, hstep]
          · rw [hstep]
            exact h.resetSensor.goto _

/-- **A step at a closing brace** whose header is at `header`. -/
theorem step_close (h : m.Stands w p place s) {header : Nat}
    (hi : p.instructions[place]? = some .close)
    (hlink : (linkBlocks p.instructions)[place]? = some (some header)) :
    m.moment w.actuator = ⟨[], .continue⟩ ∧
      (m.step w.actuator).machine.Stands w p header s := by
  have hstep := h.step_eq hi
  have hpartner : m.partner? place = some header := by simp [partner?, h.jumps, hlink]
  simp only [execute, hpartner, answer] at hstep
  refine ⟨by simp [moment, hstep], ?_⟩
  rw [hstep]
  exact h.goto _

/-- **A step behind the last instruction** ends the process. -/
theorem step_end (h : m.Stands w p place s) (hi : p.instructions[place]? = none) :
    m.moment w.actuator = w.finishMoment place ∧
      (m.step w.actuator).machine.process = none := by
  have hnone : m.instruction? place = none := by simp [instruction?, h.program, hi]
  have hstep := step_of_end w.actuator h.status h.process hnone
  refine ⟨?_, by simp [hstep, endProcess]⟩
  simp [moment, hstep, endProcess, Setting.finishMoment, Setting.stopped]

end Step

end Machine

/-! ### A block on the machine -/

/-- A run watched after moments that come before. -/
def Watch.after (ms : List Moment) (v : Watch σ) : Watch σ := ⟨ms ++ v.moments, v.machine⟩

/-- Steps before steps before what is watched are all of them in a row before it. -/
@[simp] lemma Watch.after_after (ms ms' : List Moment) (v : Watch σ) :
    (v.after ms').after ms = v.after (ms ++ ms') := by
  simp [Watch.after]

/-- **Accord.** What is watched is what a block shows: to its end, where the machine stands
behind it and is watched on; as far as the steps go; or to its fault, which ends the process. -/
def Accords (w : Setting σ) (p : Program) (behind : Nat) (v : Watch σ) (x : Passage σ) : Prop :=
  match x.ending with
  | .done s left => ∃ (m : Machine σ) (taps : List Bool), taps.length = left ∧
      m.Stands w p behind s ∧ v = (m.watch w.actuator taps).after x.moments ∧
      Heeds w.answers s.asked (m.watch w.actuator taps).moments
  | .cut s => v.moments = x.moments ∧ ∃ place, v.machine.Stands w p place s
  | .faulted => v.moments = x.moments ∧ v.machine.process = none

section Accord

variable {w : Setting σ} {p : Program} {behind : Nat} {v : Watch σ} {x : Passage σ}

/-- Moments that come before do not disturb an accord. -/
lemma Accords.after (h : Accords w p behind v x) (ms : List Moment) :
    Accords w p behind (v.after ms) (x.after ms) := by
  rcases x with ⟨ms', ⟨s, left⟩ | s | _⟩
  · obtain ⟨m, taps, hlen, hm, rfl, hh⟩ := h
    exact ⟨m, taps, hlen, hm, by simp, hh⟩
  · exact ⟨congrArg (ms ++ ·) h.1, h.2⟩
  · exact ⟨congrArg (ms ++ ·) h.1, h.2⟩

variable {m : Machine σ} {tap : Bool} {taps : List Bool}

/-- A step after which the run goes on is watched before the rest. -/
lemma watch_cons_of_goesOn (a : Actuator σ) {moment : Moment}
    (hm : (m.sense tap).moment a = moment) (hg : Machine.StepOutcome.goesOn moment.outcome = true) :
    m.watch a (tap :: taps) =
      (((m.sense tap).step a).machine.watch a taps).after [moment] := by
  subst hm
  rw [Machine.watch]
  exact if_pos hg

/-- Nothing is watched after a step that ends the run. -/
lemma watch_cons_of_ended (a : Actuator σ) {moment : Moment}
    (hm : (m.sense tap).moment a = moment)
    (hg : Machine.StepOutcome.goesOn moment.outcome = false) :
    m.watch a (tap :: taps) = ⟨[moment], ((m.sense tap).step a).machine⟩ := by
  subst hm
  rw [Machine.watch]
  exact if_neg (Bool.eq_false_iff.1 hg)

/-- A run that heeds a sequence heeds it in its first step. -/
lemma heeds_head (a : Actuator σ) {answers : Nat → Bool} {asked : Nat}
    (h : Heeds answers asked (m.watch a (tap :: taps)).moments) :
    Heeds answers asked [(m.sense tap).moment a] := by
  refine h.of_prefix ?_
  rw [Machine.watch]
  dsimp only
  split
  · exact List.prefix_append [_] _
  · exact List.prefix_rfl

/-- A run that heeds a sequence heeds it after its first step. -/
lemma heeds_tail {answers : Nat → Bool} {asked asked' : Nat} {moment : Moment} {v : Watch σ}
    (h : Heeds answers asked (v.after [moment]).moments)
    (hasked : asked' = asked + (answersOf moment.signals).length) :
    Heeds answers asked' v.moments := by
  have h : Heeds answers asked ([moment] ++ v.moments) := h
  simpa [Moment.answersAll, hasked] using (heeds_append_iff.1 h).2

end Accord

/-- What a part of a program shows, whatever machine stands before it. -/
def Simulates (w : Setting σ) (p : Program) (place behind : Nat) (b : Block) : Prop :=
  ∀ (m : Machine σ) (taps : List Bool) (s : Scene σ), m.Stands w p place s →
    Heeds w.answers s.asked (m.watch w.actuator taps).moments →
    Accords w p behind (m.watch w.actuator taps) (Nest.run w place b taps.length s)

section Simulation

variable {w : Setting σ} {p : Program}

/-- A step whose fault ends the process accords with a passage that ends in this fault. -/
lemma accords_fault {m : Machine σ} {tap : Bool} {taps : List Bool} {f : Fault}
    {place behind : Nat}
    (h : (m.sense tap).moment w.actuator = w.faultMoment place f ∧
      ((m.sense tap).step w.actuator).machine.process = none) :
    Accords w p behind (m.watch w.actuator (tap :: taps)) ⟨[w.faultMoment place f], .faulted⟩ := by
  rw [watch_cons_of_ended w.actuator h.1 rfl]
  exact ⟨rfl, h.2⟩

/-- A plain instruction is simulated if what follows it is. If there is a step to take, it is the
same on both sides, and it either ends both runs with a fault or leads to scenes from which what
follows is simulated. -/
lemma Simulates.plain {place behind : Nat} {i : Plain} {rest : Block}
    (hi : p.instructions[place]? = some i.instruction)
    (hr : Simulates w p (place + 1) behind rest) :
    Simulates w p place behind (.plain i rest) := by
  intro m taps s hm hh
  cases taps with
  | nil => exact ⟨by simp [Machine.watch], place, hm⟩
  | cons tap taps =>
    have hstep := Machine.step_perform (hm.sense tap) hi (heeds_head w.actuator hh)
    rw [List.length_cons, Nest.run_plain_succ]
    rcases hperform : w.perform place s i with f | ⟨moment, s'⟩
    · rw [hperform] at hstep
      exact accords_fault hstep
    · rw [hperform] at hstep
      obtain ⟨hmoment, hgoes, hstands, hasked⟩ := hstep
      rw [watch_cons_of_goesOn w.actuator hmoment hgoes] at hh ⊢
      exact (hr _ taps s' hstands (heeds_tail hh hasked)).after [moment]

/-- A loop is simulated if its body and what follows it are.

**Proof sketch.** Induction on the steps. Each pass takes at least the step at the header, so
behind the body, where the closing brace leads back to the header, fewer are left. -/
lemma Simulates.loop {place closing behind : Nat} {c : Condition} {body rest : Block}
    (hheader : p.instructions[place]? = some (.loop c))
    (hclosing : p.instructions[closing]? = some .close)
    (hforth : (linkBlocks p.instructions)[place]? = some (some closing))
    (hback : (linkBlocks p.instructions)[closing]? = some (some place))
    (hplace : closing = place + 1 + body.length)
    (hb : Simulates w p (place + 1) closing body)
    (hr : Simulates w p (closing + 1) behind rest) :
    Simulates w p place behind (.loop c body rest) := by
  suffices h : ∀ (n : Nat) (m : Machine σ) (taps : List Bool) (s : Scene σ), taps.length ≤ n →
      m.Stands w p place s → Heeds w.answers s.asked (m.watch w.actuator taps).moments →
      Accords w p behind (m.watch w.actuator taps)
        (Nest.run w place (.loop c body rest) taps.length s) from
    fun m taps s hm hh => h taps.length m taps s (Nat.le_refl _) hm hh
  intro n
  induction n with
  | zero =>
    intro m taps s hlen hm hh
    obtain rfl : taps = [] := List.length_eq_zero_iff.1 (Nat.le_zero.1 hlen)
    exact ⟨by simp [Machine.watch], place, hm⟩
  | succ n ih =>
    intro m taps s hlen hm hh
    cases taps with
    | nil => exact ⟨by simp [Machine.watch], place, hm⟩
    | cons tap taps =>
      have hstep := Machine.step_ask (hm.sense tap) hheader hforth (heeds_head w.actuator hh)
      rw [List.length_cons, Nest.run_loop_succ]
      rcases hask : w.ask place s c with f | ⟨moment, _ | _, s'⟩
      · rw [hask] at hstep
        exact accords_fault hstep
      · rw [hask] at hstep
        obtain ⟨hmoment, hgoes, hstands, hasked⟩ := hstep
        rw [watch_cons_of_goesOn w.actuator hmoment hgoes] at hh ⊢
        have hnext : place + body.length + 2 = closing + 1 := by omega
        dsimp only
        rw [hnext]
        exact (hr _ taps s' hstands (heeds_tail hh hasked)).after [moment]
      · rw [hask] at hstep
        obtain ⟨hmoment, hgoes, hstands, hasked⟩ := hstep
        rw [watch_cons_of_goesOn w.actuator hmoment hgoes] at hh ⊢
        refine Accords.after ?_ [moment]
        have hbody := hb _ taps s' hstands (heeds_tail hh hasked)
        -- what is left behind the body is less than what there was at the header
        have hleft := Nest.leavesAtMost_run w body (place + 1) taps.length s'
        rcases hx : Nest.run w (place + 1) body taps.length s' with ⟨ms, ⟨s₂, left⟩ | _ | _⟩
        · rw [hx] at hbody
          obtain ⟨m₂, taps₂, rfl, hm₂, hv, hh₂⟩ := hbody
          have hle : taps₂.length ≤ taps.length := hleft s₂ _ (by rw [hx])
          rw [hv, Passage.andThen_done]
          refine Accords.after ?_ ms
          cases taps₂ with
          | nil => exact ⟨rfl, closing, hm₂⟩
          | cons tap₂ taps₂ =>
            obtain ⟨hmoment₂, hstands₂⟩ := Machine.step_close (hm₂.sense tap₂) hclosing hback
            rw [watch_cons_of_goesOn w.actuator hmoment₂ rfl] at hh₂ ⊢
            have hlen₂ : taps₂.length ≤ n := by
              simp only [List.length_cons] at hle hlen
              omega
            exact (ih _ taps₂ s₂ hlen₂ hstands₂ (heeds_tail hh₂ rfl)).after _
        all_goals
          rw [hx] at hbody
          exact hbody

/-- **Blocks on the machine.** Wherever the instructions of a block stand in a program, the
machine standing before them shows what the block shows.

**Proof sketch.** Induction on the block. The links of a loop are those of its own braces
(`linkBlocks_loop`), whatever stands around it. -/
theorem watch_block (w : Setting σ) (p : Program) (b : Block) :
    ∀ pre post : List Instruction, p.instructions = pre ++ (b.instructions ++ post) →
      Simulates w p pre.length (pre.length + b.length) b := by
  induction b with
  | empty =>
    intro pre post _ m taps s hm hh
    rw [Nest.run_empty]
    exact ⟨m, taps, rfl, hm, rfl, hh⟩
  | plain i rest ih =>
    intro pre post hp
    have hr := ih (pre ++ [i.instruction]) post (by simpa using hp)
    rw [List.length_append, List.length_singleton] at hr
    rw [Nest.length_plain, show pre.length + (rest.length + 1) = pre.length + 1 + rest.length by
      omega]
    exact hr.plain (by simp [hp])
  | loop c body rest ihb ihr =>
    intro pre post hp
    rw [Nest.instructions_loop] at hp
    simp only [List.cons_append, List.append_assoc] at hp
    have hb := ihb (pre ++ [.loop c]) (.close :: (rest.instructions ++ post))
      (by simpa using hp)
    have hr := ihr (pre ++ .loop c :: (body.instructions ++ [.close])) post (by simpa using hp)
    obtain ⟨hforth, hback⟩ := linkBlocks_loop pre (rest.instructions ++ post) c body
    rw [← hp] at hforth hback
    have hlen : (pre ++ Instruction.loop c :: (body.instructions ++ [.close])).length =
        pre.length + 1 + body.length + 1 := by
      simp only [List.length_append, List.length_cons, List.length_nil, Nest.length]
      omega
    rw [hlen] at hr
    rw [List.length_append, List.length_singleton] at hb
    have hclosing : p.instructions[pre.length + 1 + body.length]? = some .close := by
      rw [hp, List.getElem?_append_right (by omega),
        show pre.length + 1 + body.length - pre.length = body.length + 1 by omega,
        List.getElem?_cons_succ, Nest.length, List.getElem?_append_right (Nat.le_refl _),
        Nat.sub_self]
      rfl
    rw [Nest.length_loop, show pre.length + (body.length + rest.length + 2) =
      pre.length + 1 + body.length + 1 + rest.length by omega]
    exact Simulates.loop (by simp [hp]) hclosing hforth hback rfl hb hr

end Simulation

/-! ### A whole program -/

/-- What is seen of a run, and the variables as long as it goes on. -/
def Watch.report (v : Watch σ) : Report := ⟨v.moments, v.machine.process.map Process.values⟩

namespace Machine

/-- The machine after a program was loaded and started. -/
def started (a : Actuator σ) (m : Machine σ) (p : Program) : Machine σ :=
  ((m.load a p).machine.startProcess a).machine

/-- The setting of the process that a machine starts next, for a program and answers of the
sensor. -/
def setting (a : Actuator σ) (m : Machine σ) (p : Program) (answers : Nat → Bool) : Setting σ :=
  ⟨a, m.config, p.traceMap, m.nextPid, answers⟩

/-- Loading always lets a process start, in whatever state the machine was. -/
lemma startProcess_load (a : Actuator σ) (m : Machine σ) (p : Program) :
    (m.load a p).machine.startProcess a =
      ⟨.ok (), ((m.load a p).machine.launch a).machine,
        ((m.load a p).machine.launch a).signals⟩ := by
  obtain ⟨robot, hstop⟩ := exists_stop_machine a m
  have hs : (m.load a p).machine.status = .stopped := by simp [load, hstop]
  have hp : (m.load a p).machine.program.isNone = false := rfl
  simp [startProcess, hs, hp]

/-- Loading a program and starting it is granted, and comes to the launch of the loaded machine:
loading leaves the machine stopped and with a program. -/
lemma started_eq_launch (a : Actuator σ) (m : Machine σ) (p : Program) :
    ((m.load a p).machine.startProcess a).value = .ok () ∧
      m.started a p = ((m.load a p).machine.launch a).machine := by
  simp [started, startProcess_load]

/-- A machine that has started a program stands before its first instruction, without
variables and without a tap. -/
lemma stands_started (a : Actuator σ) (m : Machine σ) (p : Program) (answers : Nat → Bool) :
    (m.started a p).Stands (m.setting a p answers) p 0 ⟨(m.started a p).robot, .empty, 0⟩ ∧
      (m.started a p).tapped = false := by
  obtain ⟨robot, hstop⟩ := exists_stop_machine a m
  have hconfig : (m.stop a).machine.config = m.config := by rw [hstop]
  rw [(m.started_eq_launch a p).2]
  refine ⟨⟨hconfig, rfl, rfl, rfl, rfl, ?_, rfl⟩, rfl⟩
  simp [launch, Process.start, setting, load, hstop]

end Machine

/-- A run that accords with a whole program is reported as the program is.

**Proof sketch.** Where the block ends with a step left, this step finds no instruction and ends
the process. -/
lemma report_of_accords {w : Setting σ} {p : Program} {b : Block} {v : Watch σ} {robot : σ}
    {steps : Nat} (hp : b.instructions = p.instructions)
    (h : Accords w p b.length v (Nest.run w 0 b steps ⟨robot, .empty, 0⟩)) :
    v.report = b.report w robot steps := by
  unfold Nest.report
  rcases hx : Nest.run w 0 b steps ⟨robot, .empty, 0⟩ with ⟨ms, ⟨s, left⟩ | s | _⟩ <;>
    rw [hx] at h
  · obtain ⟨m, taps, rfl, hm, rfl, -⟩ := h
    cases taps with
    | nil => simp [Watch.report, Watch.after, Machine.watch, hm.process]
    | cons tap taps =>
      have hend : p.instructions[b.length]? = none := by
        rw [← hp]
        exact List.getElem?_eq_none (Nat.le_refl _)
      obtain ⟨hmoment, hnone⟩ := Machine.step_end (hm.sense tap) hend
      rw [watch_cons_of_ended w.actuator hmoment rfl]
      simp [Watch.report, Watch.after, hnone]
  · obtain ⟨hms, place, hm⟩ := h
    simp [Watch.report, hms, hm.process]
  · simp [Watch.report, h.1, h.2]

/-- A machine that has started the program of a block reports what the block reports. -/
lemma report_started (a : Actuator σ) (m : Machine σ) {p : Program} {b : Block}
    (hp : b.instructions = p.instructions) {answers : Nat → Bool} {taps : List Bool}
    (hh : Heeds answers 0 ((m.started a p).watch a taps).moments) :
    ((m.started a p).watch a taps).report =
      b.report (m.setting a p answers) (m.started a p).robot taps.length := by
  have hblock := watch_block (m.setting a p answers) p b [] [] (by simpa using hp.symm)
  rw [List.length_nil, Nat.zero_add] at hblock
  exact report_of_accords hp (hblock _ taps _ (m.stands_started a p answers).1 hh)

/-- A machine that has started a program can be answered in any way. -/
lemma exists_taps_started (a : Actuator σ) (m : Machine σ) (p : Program) (answers : Nat → Bool)
    (n : Nat) : ∃ taps : List Bool, taps.length = n ∧
      Heeds answers 0 ((m.started a p).watch a taps).moments :=
  Machine.exists_taps a answers n 0 _ (by simp [(m.stands_started a p answers).2])

/-- **Structured runs.** A machine in any state that loads a balanced program and starts it runs
the tree of this program. Whatever the robot does and the sensor answers, for any number of
steps: the machine shows the moments that the tree shows, holds the same variables while it
runs, and ends in the same way; and the sensor can answer in any way. -/
theorem structured_run (a : Actuator σ) (m : Machine σ) (p : Program)
    (hb : p.balance.isBalanced = true) :
    ((m.load a p).machine.startProcess a).value = .ok () ∧
      ∃ b : Block, b.instructions = p.instructions ∧ ∀ answers : Nat → Bool,
        (∀ taps : List Bool, Heeds answers 0 ((m.started a p).watch a taps).moments →
          ((m.started a p).watch a taps).report =
            b.report (m.setting a p answers) (m.started a p).robot taps.length) ∧
        ∀ n, ∃ taps : List Bool, taps.length = n ∧
          Heeds answers 0 ((m.started a p).watch a taps).moments := by
  obtain ⟨b, hbp⟩ := (Program.isBalanced_iff p).1 hb
  exact ⟨(m.started_eq_launch a p).1, b, hbp, fun answers =>
    ⟨fun taps hh => report_started a m hbp hh, exists_taps_started a m p answers⟩⟩

/-- A robot that does nothing and always succeeds. -/
def Actuator.still : Actuator Unit where
  isConnected _ := true
  setAddress _ s := s
  openConnection s := s
  closeConnection s := s
  allStop s := s
  perform _ _ s := (0, s)

/-- Two passes of a counted loop, each of which waits for a tap. -/
def twoTaps : Program :=
  .ofInstructions
    [.assign "a" 0, .whileBelow "a" 2, .whileNotRaised .touchSensor, .wait 100, .close,
      .increment "a" 1, .close]

/-- A program with nested loops of both kinds runs as its tree. -/
theorem structured_run_twoTaps :
    twoTaps.balance.isBalanced = true ∧
      ∃ b : Block, b.instructions = twoTaps.instructions ∧ ∀ answers : Nat → Bool,
        (∀ taps : List Bool, Heeds answers 0
            (((Machine.start {} ()).started .still twoTaps).watch .still taps).moments →
          (((Machine.start {} ()).started .still twoTaps).watch .still taps).report =
            b.report ((Machine.start {} ()).setting .still twoTaps answers) () taps.length) ∧
        ∀ n, ∃ taps : List Bool, taps.length = n ∧ Heeds answers 0
          (((Machine.start {} ()).started .still twoTaps).watch .still taps).moments :=
  ⟨by decide, (structured_run .still (.start {} ()) twoTaps (by decide)).2⟩

end StickerBot
