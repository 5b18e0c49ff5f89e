import StickerBot.Proofs.Mirroring
set_option autoImplicit false

/-!
# A restart is a fresh start

A machine that is restarted goes on like one that has never done anything but load the program and
start it: nothing of what it did before is left, no variable, no place, no wait and no tap. Only its
processes have greater numbers, all of them by the same.

## Main definitions

* `Machine.Linked` — what no operation changes or forgets.
* `Machine.farewell` — what is seen of the end of a process.
* `Machine.FreshStart` — what is promised of a restart.

## Main results

* `Machine.Linked.operate`, `Machine.Linked.operateAll` — operations keep a machine linked.
* `Machine.mirrors_stop_load` — a machine that is stopped is like a new one with its program.
* `restart_fresh` — a restart is a fresh start.
-/

namespace StickerBot

variable {σ τ : Type}

namespace Machine

variable {R : σ → τ → Prop} {a : Actuator σ} {b : Actuator τ} {m : Machine σ}

/-! ### What no operation changes or forgets -/

/-- **Linked.** The configuration is the one of the beginning, the braces of the program are linked,
and the numbers of processes are positive. -/
structure Linked (config : MachineConfig) (m : Machine σ) : Prop where
  config : m.config = config
  jumps : ∀ p, m.program = some p → m.jumps = linkBlocks p.instructions
  nextPid : 0 < m.nextPid

namespace Linked

variable {config : MachineConfig} {m₀ : Machine σ}

/-- Only the configuration, the program with its links and the numbering matter. -/
lemma of_same (h : m.Linked config) (hconfig : m₀.config = m.config)
    (hprogram : m₀.program = m.program) (hjumps : m₀.jumps = m.jumps)
    (hnext : m.nextPid ≤ m₀.nextPid) : m₀.Linked config :=
  ⟨hconfig.trans h.config, by rw [hprogram, hjumps]; exact h.jumps, h.nextPid.trans_le hnext⟩

/-- **Operations** keep a machine linked. Loading links the program that it loads and clearing takes
it away; every other operation leaves the program and its links together. -/
lemma operate (h : m.Linked config) (a : Actuator σ) (op : Operation) :
    (m.operate a op).machine.Linked config := by
  have hoperated := operated_operate a m op
  generalize (m.operate a op).machine = m' at hoperated
  cases hoperated with
  | loaded robot p =>
    refine ⟨h.config, ?_, h.nextPid⟩
    rintro _ ⟨⟩
    rfl
  | cleared robot => exact ⟨h.config, by rintro _ ⟨⟩, h.nextPid⟩
  | launched robot hprogram => exact h.of_same rfl rfl rfl (Nat.le_succ _)
  | stepped =>
    have hstep := m.stepped_step a
    generalize m.step a = e at hstep
    cases hstep <;> exact h.of_same rfl rfl rfl le_rfl
  | _ => exact h.of_same rfl rfl rfl le_rfl

/-- The links of a program stay those of its own instructions through any operations, by induction
along them. -/
lemma operateAll (a : Actuator σ) (ops : List Operation) : ∀ {m : Machine σ},
    m.Linked config → (m.operateAll a ops).Linked config := by
  induction ops with
  | nil => exact fun h => h
  | cons op ops ih => exact fun h => ih (h.operate a op)

end Linked

/-- A new machine has no program, and its first process is to have number one. -/
lemma linked_start (config : MachineConfig) (robot : σ) : (start config robot).Linked config :=
  ⟨rfl, by rintro _ ⟨⟩, one_pos⟩

/-! ### Fresh starts -/

/-- What is seen of the end of the process, if there is one: the robot is halted, and the process
stops. -/
def farewell (m : Machine σ) : List Signal :=
  match m.process with
  | some p => [.robot .allStop, .event (.processStopped ⟨p.pid, p.pc, .stopped⟩)]
  | none => []

/-- **A fresh start.** What is promised of the restart of a machine, compared with the start of a
program on another machine, if the numbers of processes are greater by `k`. -/
structure FreshStart (a : Actuator σ) (b : Actuator τ) (R : σ → τ → Prop) (k : Nat) (m : Machine σ)
    (m' : Machine τ) : Prop where
  /-- Both are granted. -/
  granted : (m.restart a).value = .ok () ∧ (m'.startProcess b).value = .ok ()
  /-- A restart is seen to end the process, and then to start like the other. -/
  signals : (m.restart a).signals =
    m.farewell ++ (m'.startProcess b).signals.map (Signal.renumber k)
  /-- Whatever is done afterwards comes to the same. -/
  transcript : ∀ vs, (m.restart a).machine.transcript a vs =
    ((m'.startProcess b).machine.transcript b vs).map (Exchange.renumber k)
  /-- Nothing else is left of what has been done before. -/
  machine : ∀ vs, ((m.restart a).machine.afterMoves a vs).Mirrors R k
    ((m'.startProcess b).machine.afterMoves b vs)

/-- What is seen of a stop is the farewell of the machine: the end of its process, if it has one. -/
lemma signals_stop (a : Actuator σ) (m : Machine σ) : (m.stop a).signals = m.farewell := by
  unfold stop farewell
  cases m.process <;> rfl

/-- **Stopped.** A machine that is stopped is like a new one with its program, but for a tap. -/
lemma mirrors_stop_load {config : MachineConfig} (h : m.Linked config) {p : Program}
    (hp : m.program = some p) {robot : τ} (hrobot : R (m.stop a).machine.robot robot) :
    (m.stop a).machine.resetSensor.Mirrors R (m.nextPid - 1)
      ((start config robot).load b p).machine.resetSensor := by
  have hnext : 1 + (m.nextPid - 1) = m.nextPid := Nat.add_sub_cancel' h.nextPid
  obtain ⟨stopped, hstop⟩ := exists_stop_machine a m
  rw [hstop] at hrobot ⊢
  have htwin : resetSensor { m with robot := stopped, process := none, status := .stopped } =
      ((start config robot).load b p).machine.resetSensor.twin stopped (m.nextPid - 1) := by
    simp [resetSensor, load, stop, start, twin, h.config, h.jumps p hp, hp, hnext]
  rw [htwin]
  exact .twin hrobot

/-- A restart ends the process and launches another one. -/
lemma restart_of_program (a : Actuator σ) {m : Machine σ} {p : Program} (hp : m.program = some p) :
    m.restart a = ⟨.ok (), ((m.stop a).machine.launch a).machine,
      m.farewell ++ ((m.stop a).machine.launch a).signals⟩ := by
  simp only [restart, hp, Option.isNone_some, ← signals_stop a m]
  rfl

end Machine

/-- **A restart is a fresh start.** A machine of any history that has loaded a program may be
restarted in any state. It is seen to end its process, if there is one, and then to do what a new
machine of the same configuration does that has loaded the program and starts it. From then on the
two machines come to the same in whatever is done with both, as long as their robots answer alike:
the same answers, outcomes and copies, the same calls to the robot and the same events. Only the
numbers of processes are greater, by those that were given before.

**Proof sketch.** A launch forgets taps, and a machine that has been stopped differs from the new
one only in them, in its robot, and in the number of the next process. -/
theorem restart_fresh {a : Actuator σ} {b : Actuator τ} {R : σ → τ → Prop} (hab : a.Alike b R)
    (config : MachineConfig) (robot : σ) (ops : List Operation) {m : Machine σ}
    (hm : m = (Machine.start config robot).operateAll a ops) {p : Program}
    (hp : m.program = some p) {robot' : τ} (hrobot : R (m.stop a).machine.robot robot') :
    m.FreshStart a b R (m.nextPid - 1) ((Machine.start config robot').load b p).machine := by
  have hlinked : m.Linked config := hm ▸ (Machine.linked_start config robot).operateAll a ops
  have hlaunch := Machine.mirrors_launch hab (Machine.mirrors_stop_load (b := b) hlinked hp hrobot)
  have hrestart := Machine.restart_of_program a hp
  have hstart := Machine.startProcess_load b (.start config robot') p
  refine ⟨⟨by rw [hrestart], by rw [hstart]⟩, ?_, ?_, ?_⟩
  · rw [hrestart, hstart, hlaunch.signals]
  · rw [hrestart, hstart]
    exact fun vs => (hlaunch.machine.transcript hab vs).1
  · rw [hrestart, hstart]
    exact fun vs => (hlaunch.machine.transcript hab vs).2

/-- A robot that remembers what it has done. It does nothing without a connection. -/
def Actuator.remembering : Actuator (Bool × List NativeAction) where
  isConnected s := s.1
  setAddress _ s := s
  openConnection s := (true, s.2)
  closeConnection s := (false, s.2)
  allStop s := s
  perform action _ s := if s.1 then (0, true, action :: s.2) else (1, s)

/-- Whatever the robot has done before does not matter. -/
lemma Actuator.alike_remembering :
    Actuator.remembering.Alike .remembering fun r s => r.1 = s.1 := by
  constructor <;> simp_all [Actuator.remembering]

/-- Walks, naps, and waits for a tap. -/
def walkAndNap : Program :=
  .ofInstructions
    [.assign "a" 1, .call "walk" [2], .wait 20, .loop (.sensorNotRaised "getTouchSensor"), .close,
      .increment "a" 1]

/-- A machine that is paused in the middle of the nap, while the sensor was tapped. -/
def nappingMachine : Machine (Bool × List NativeAction) :=
  (Machine.start {} (false, [])).operateAll .remembering
    [.load walkAndNap, .start, .step, .step, .step, .pause (some 7), .tap]

/-- A nap is forgotten, and so are the variable and the tap. -/
theorem restart_fresh_napping :
    nappingMachine.snapshot = some ⟨1, 3, .paused, .ofList [("a", 1)], some 7⟩ ∧
      nappingMachine.tapped = true ∧
      nappingMachine.robot = (true, [.walk]) ∧
      (nappingMachine.restart .remembering).signals =
        [.robot .allStop, .event (.processStopped ⟨1, 3, .stopped⟩),
          .event (.processStarted ⟨2, 0, .running⟩)] ∧
      nappingMachine.FreshStart .remembering .remembering (fun r s => r.1 = s.1)
        (nappingMachine.nextPid - 1)
        ((Machine.start {} (true, [])).load .remembering walkAndNap).machine := by
  have hprogram : nappingMachine.program = some walkAndNap := by decide
  have hconnected : (nappingMachine.stop .remembering).machine.robot.1 = true := by decide
  exact ⟨by decide, by decide, by decide, by decide,
    restart_fresh Actuator.alike_remembering {} (false, []) _ rfl hprogram hconnected⟩

end StickerBot
