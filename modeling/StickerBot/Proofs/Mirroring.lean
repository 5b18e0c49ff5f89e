import StickerBot.Proofs.Pausing
set_option autoImplicit false

/-!
# Machines that mirror each other

The numbers of processes are only told, and of the robot only its answers matter. So machines that
are the same but for these, with robots that answer alike, come to the same in whatever is done with
both, and what is seen of them differs only in the numbers.

## Main definitions

* `Signal.renumber`, `Answer.renumber`, `Exchange.renumber` — the same about processes with greater
  numbers.
* `Actuator.Alike` — robots that answer alike.
* `Machine.Mirrors`, `Effect.Mirrors` — machines and effects that are the same but for the robots
  and the numbers of processes.

## Main results

* `Machine.Mirrors.step`, `Machine.Mirrors.operate` — an operation comes to the same, and keeps
  machines mirroring each other.
* `Machine.Mirrors.transcript` — so do moves one after the other.

## Design

Each machine has a robot of its own, with states of its own. The robots are related by a relation
that all calls keep and that makes them answer alike, so that they may have different pasts.
-/

namespace StickerBot

variable {σ τ : Type}

/-! ### Renumbering -/

/-- A process with a number that is greater by `k`. -/
def Process.renumber (k : Nat) (p : Process) : Process := { p with pid := p.pid + k }

/-- The same information about a process with a number that is greater by `k`. -/
def ProcessInfo.renumber (k : Nat) (info : ProcessInfo) : ProcessInfo :=
  { info with pid := info.pid + k }

/-- The same event of a process with a number that is greater by `k`. -/
def Event.renumber (k : Nat) : Event → Event
  | .processStarted info => .processStarted (info.renumber k)
  | .processStopped info => .processStopped (info.renumber k)
  | .trace info point statement => .trace (info.renumber k) point statement
  | .print info text => .print (info.renumber k) text
  | .error info text => .error (info.renumber k) text

/-- **Renumbering.** The same signal of a process with a number that is greater by `k`. -/
def Signal.renumber (k : Nat) : Signal → Signal
  | .event e => .event (e.renumber k)
  | .robot call => .robot call
  | .poll tapped => .poll tapped

/-- A copy of a process with a number that is greater by `k`. -/
def ProcessSnapshot.renumber (k : Nat) (copy : ProcessSnapshot) : ProcessSnapshot :=
  { copy with pid := copy.pid + k }

/-- The same answer about a process with a number that is greater by `k`. -/
def Answer.renumber (k : Nat) : Answer → Answer
  | .copied copy => .copied (copy.map (ProcessSnapshot.renumber k))
  | answer => answer

/-- The same exchange about processes with numbers that are greater by `k`. -/
def Exchange.renumber (k : Nat) (x : Exchange) : Exchange :=
  ⟨x.move, x.answer.renumber k, x.signals.map (Signal.renumber k)⟩

/-! ### Robots that answer alike -/

/-- **Alike.** Robots in related states are both connected or both not, they answer an action with
the same status, and a call to both leaves them in related states. -/
structure Actuator.Alike (a : Actuator σ) (b : Actuator τ) (R : σ → τ → Prop) : Prop where
  isConnected : ∀ {r s}, R r s → a.isConnected r = b.isConnected s
  setAddress : ∀ {r s}, R r s → ∀ address, R (a.setAddress address r) (b.setAddress address s)
  openConnection : ∀ {r s}, R r s → R (a.openConnection r) (b.openConnection s)
  closeConnection : ∀ {r s}, R r s → R (a.closeConnection r) (b.closeConnection s)
  allStop : ∀ {r s}, R r s → R (a.allStop r) (b.allStop s)
  status : ∀ {r s}, R r s → ∀ action arguments,
    (a.perform action arguments r).1 = (b.perform action arguments s).1
  perform : ∀ {r s}, R r s → ∀ action arguments,
    R (a.perform action arguments r).2 (b.perform action arguments s).2

/-! ### Machines that mirror each other -/

namespace Machine

/-- A machine like `m`, with a robot of its own, and with numbers of processes that are greater by
`k`. -/
def twin (m : Machine τ) (robot : σ) (k : Nat) : Machine σ where
  config := m.config
  robot := robot
  tapped := m.tapped
  program := m.program
  jumps := m.jumps
  process := m.process.map (Process.renumber k)
  status := m.status
  nextPid := m.nextPid + k

/-- **Mirroring.** Machines that are the same but for their robots, which are related, and the
numbers of processes. -/
inductive Mirrors (R : σ → τ → Prop) (k : Nat) : Machine σ → Machine τ → Prop where
  | twin {robot : σ} {m : Machine τ} (h : R robot m.robot) : Mirrors R k (m.twin robot k) m

end Machine

/-- **Mirroring.** Effects of the same value that leave machines mirroring each other, and of which
the same is seen but for the numbers of processes. -/
structure Effect.Mirrors {α : Type} (R : σ → τ → Prop) (k : Nat) (e : Effect σ α)
    (e' : Effect τ α) : Prop where
  value : e.value = e'.value
  machine : e.machine.Mirrors R k e'.machine
  signals : e.signals = e'.signals.map (Signal.renumber k)

namespace Effect

variable {α β : Type} {R : σ → τ → Prop} {k : Nat} {e : Effect σ α} {e' : Effect τ α}

/-- The value of an effect does not matter to the machine and the signals. -/
lemma Mirrors.withValue (h : e.Mirrors R k e') (v : β) :
    (e.withValue v).Mirrors R k (e'.withValue v) := ⟨rfl, h.machine, h.signals⟩

/-- An effect is told by the one that it mirrors and the state of its robot. -/
lemma Mirrors.exists_eq (h : e.Mirrors R k e') : ∃ robot, R robot e'.machine.robot ∧
    e = ⟨e'.value, e'.machine.twin robot k, e'.signals.map (Signal.renumber k)⟩ := by
  obtain ⟨value, machine, signals⟩ := e
  obtain ⟨rfl, hmachine, rfl⟩ := h
  obtain ⟨hrobot⟩ := hmachine
  exact ⟨_, hrobot, rfl⟩

end Effect

namespace Machine

variable {R : σ → τ → Prop} {k : Nat} {a : Actuator σ} {b : Actuator τ}
variable {m : Machine σ} {m' : Machine τ}

/-- Mirrored machines have the same status. -/
lemma Mirrors.status (h : m.Mirrors R k m') : m.status = m'.status := by
  obtain ⟨-⟩ := h
  rfl

/-- Mirrored machines have the same program, so that the same places are executed in both. -/
lemma Mirrors.program (h : m.Mirrors R k m') : m.program = m'.program := by
  obtain ⟨-⟩ := h
  rfl

/-- The process of a mirrored machine is that of the other under another number; its place, its
counters and the rest of its wait are the same. -/
lemma Mirrors.process (h : m.Mirrors R k m') :
    m.process = m'.process.map (Process.renumber k) := by
  obtain ⟨-⟩ := h
  rfl

/-- The robots are both connected or both not. -/
lemma Mirrors.isConnected (hab : a.Alike b R) (h : m.Mirrors R k m') :
    a.isConnected m.robot = b.isConnected m'.robot := by
  obtain ⟨h⟩ := h
  exact hab.isConnected h

/-- The robots of mirrored machines are related. -/
lemma Mirrors.robot (h : m.Mirrors R k m') : R m.robot m'.robot := by
  obtain ⟨h⟩ := h
  exact h

/-- Machines still mirror one another after their robots have gone on to related states. -/
lemma Mirrors.withRobot (h : m.Mirrors R k m') {robot : σ} {robot' : τ} (hr : R robot robot') :
    Mirrors R k { m with robot := robot } { m' with robot := robot' } := by
  obtain ⟨-⟩ := h
  exact .twin (m := { m' with robot := robot' }) hr

/-- Machines still mirror one another after both have come to a status. -/
lemma Mirrors.withStatus (h : m.Mirrors R k m') (status : Status) :
    Mirrors R k { m with status := status } { m' with status := status } := by
  obtain ⟨h⟩ := h
  exact .twin (m := { m' with status := status }) h

/-- The process is changed alike, if its number does not matter. -/
lemma Mirrors.mapProcess (h : m.Mirrors R k m') (f : Process → Process)
    (hf : ∀ p : Process, (f p).renumber k = f (p.renumber k)) :
    Mirrors R k { m with process := m.process.map f }
      { m' with process := m'.process.map f } := by
  obtain @⟨robot, _, h⟩ := h
  have htwin : { m'.twin robot k with process := (m'.twin robot k).process.map f } =
      ({ m' with process := m'.process.map f } : Machine τ).twin robot k := by
    simp [Machine.twin, Function.comp_def, hf]
  rw [htwin]
  exact .twin h

/-- An operation that does nothing but answer. -/
lemma Mirrors.answer {α : Type} (h : m.Mirrors R k m') (v : α) :
    (m.answer v).Mirrors R k (m'.answer v) := ⟨rfl, h, rfl⟩

/-- A command is refused alike. -/
lemma Mirrors.refuse {α : Type} (h : m.Mirrors R k m') (command : String) :
    (m.answer (Except.error (m.refuse command) : Except CommandError α)).Mirrors R k
      (m'.answer (.error (m'.refuse command))) := by
  refine ⟨?_, h, rfl⟩
  simp only [Machine.answer, Machine.refuse, h.status]

/-! ### Steps -/

section Execute

variable {robot : σ} (p : Process)

/-- A variable is read alike. -/
lemma read_twin (x : String) :
    (m'.twin robot k).read (p.renumber k) x =
      ((m'.read p x).1, (m'.read p x).2.map (Signal.renumber k)) := by
  have hvalue : (p.renumber k).values.get? x = p.values.get? x := rfl
  simp only [read, hvalue]
  cases p.values.get? x <;> rfl

/-- A condition holds alike. -/
lemma mirrors_holds (h : R robot m'.robot) (c : Condition) :
    ((m'.twin robot k).holds (p.renumber k) c).Mirrors R k (m'.holds p c) := by
  cases c with
  | below x limit =>
    simp only [holds, read_twin]
    exact ⟨rfl, .twin h, rfl⟩
  | sensorNotRaised sensor =>
    simp only [holds]
    split
    · exact Mirrors.answer (.twin h) _
    · split
      · exact ⟨rfl, .twin (m := m'.resetSensor) h, rfl⟩
      · exact Mirrors.answer (.twin h) _

/-- A native action is called alike. The sensor is asked the same in both machines, and the robots
give the same status and go on to related states. -/
lemma mirrors_callNative (hab : a.Alike b R) (h : R robot m'.robot) (name : String)
    (arguments : List Int32) :
    ((m'.twin robot k).callNative a (p.renumber k) name arguments).Mirrors R k
      (m'.callNative b p name arguments) := by
  unfold callNative
  split
  · exact Mirrors.answer (.twin h) _
  · rename_i action _
    split
    · exact ⟨rfl, .twin (m := m'.resetSensor) h, rfl⟩
    · have hstatus : (a.perform action arguments (m'.twin robot k).robot).1 =
          (b.perform action arguments m'.robot).1 := hab.status h action arguments
      refine ⟨rfl, .twin (m := { m' with robot := (b.perform action arguments m'.robot).2 })
        (hab.perform h action arguments), ?_⟩
      dsimp only
      rw [hstatus]
      split <;> rfl

/-- **Instructions** are executed alike. One case for each instruction. Counters, the places of
partners and the sensor are the same in both machines, and the robots answer alike. -/
lemma mirrors_execute (hab : a.Alike b R) (h : R robot m'.robot) (i : Instruction) :
    ((m'.twin robot k).execute a (p.renumber k) i).Mirrors R k (m'.execute b p i) := by
  cases i with
  | call name arguments => exact mirrors_callNative p hab h name arguments
  | wait units => exact Mirrors.answer (.twin h) _
  | assign x n => exact ⟨rfl, .twin (m := m'.write p x n) h, rfl⟩
  | increment x n =>
    simp only [execute, read_twin]
    exact ⟨rfl, .twin (m := m'.write p x _) h, rfl⟩
  | loop c =>
    obtain ⟨robot', hrobot', hc⟩ := (mirrors_holds (k := k) p h c).exists_eq
    simp only [execute, hc]
    rcases hc' : m'.holds p c with ⟨fault | _ | _, n, signals⟩ <;> rw [hc'] at hrobot'
    · exact ⟨rfl, .twin hrobot', rfl⟩
    · have hpartner : (n.twin robot' k).partner? (p.renumber k).pc = n.partner? p.pc := rfl
      simp only [hpartner]
      cases n.partner? p.pc <;> exact ⟨rfl, .twin hrobot', rfl⟩
    · exact ⟨rfl, .twin hrobot', rfl⟩
  | close =>
    have hpartner : (m'.twin robot k).partner? (p.renumber k).pc = m'.partner? p.pc := rfl
    simp only [execute, hpartner]
    cases m'.partner? p.pc <;> exact Mirrors.answer (.twin h) _
  | trace point => exact ⟨rfl, .twin h, rfl⟩
  | print text => exact ⟨rfl, .twin h, rfl⟩

end Execute

/-- A process goes to a place alike. -/
lemma Mirrors.goto (h : m.Mirrors R k m') (pc : Nat) :
    (m.goto pc).Mirrors R k (m'.goto pc) :=
  h.mapProcess (fun p => { p with pc := pc }) fun _ => rfl

/-- A process ends alike. -/
lemma Mirrors.endProcess (h : m.Mirrors R k m') (p : Process) :
    (m.endProcess (p.renumber k)).Mirrors R k (m'.endProcess p) := by
  obtain ⟨h⟩ := h
  exact ⟨rfl, .twin (m := { m' with status := .stopped, process := none }) h, rfl⟩

/-- **What a step comes to** is alike if what its instruction has done is. -/
lemma mirrors_conclude {e : Effect σ (Except Fault Flow)} {e' : Effect τ (Except Fault Flow)}
    (h : e.Mirrors R k e') (p : Process) :
    (conclude (p.renumber k) e).Mirrors R k (conclude p e') := by
  obtain ⟨robot, hrobot, rfl⟩ := h.exists_eq
  have hmachine : (e'.machine.twin robot k).Mirrors R k e'.machine := .twin hrobot
  rcases e' with ⟨fault | _ | target | ms, n, signals⟩
  · have hended := hmachine.endProcess p
    refine ⟨rfl, hended.machine, ?_⟩
    rw [conclude_error, conclude_error, List.map_append, List.map_cons, ← hended.signals]
    rfl
  · exact ⟨rfl, hmachine.goto _, rfl⟩
  · exact ⟨rfl, hmachine.goto _, rfl⟩
  · exact ⟨rfl, hmachine.goto _, rfl⟩

/-- **Steps** of machines that mirror each other are alike.

**Proof sketch.** Either both machines are idle, or both processes are at the end of the same
program, or both execute the same instruction, which does the same up to the number of the
process. -/
theorem Mirrors.step (hab : a.Alike b R) (h : m.Mirrors R k m') :
    (m.step a).Mirrors R k (m'.step b) := by
  by_cases hrun : m'.status = .running → m'.process = none
  · have hrun' : m.status = .running → m.process = none := fun hs => by
      rw [h.process, hrun (h.status ▸ hs), Option.map_none]
    rw [step_of_idle b hrun, step_of_idle a hrun']
    exact h.answer _
  · obtain ⟨hs, hsome⟩ := Classical.not_imp.1 hrun
    obtain ⟨p, hp⟩ := Option.ne_none_iff_exists'.1 hsome
    have hs' : m.status = .running := h.status.trans hs
    have hp' : m.process = some (p.renumber k) := by rw [h.process, hp, Option.map_some]
    have hi : m.instruction? (p.renumber k).pc = m'.instruction? p.pc := by
      rw [instruction?, h.program]
      rfl
    cases hi' : m'.instruction? p.pc with
    | none =>
      rw [step_of_end b hs hp hi', step_of_end a hs' hp' (hi.trans hi')]
      exact ⟨rfl, (h.endProcess p).machine, (h.endProcess p).signals⟩
    | some i =>
      rw [step_eq_conclude b hs hp hi', step_eq_conclude a hs' hp' (hi.trans hi')]
      obtain ⟨h⟩ := h
      exact mirrors_conclude (mirrors_execute p hab h i) p

/-! ### Commands -/

/-- **Stopping** is alike. -/
lemma Mirrors.stop (hab : a.Alike b R) (h : m.Mirrors R k m') :
    (m.stop a).Mirrors R k (m'.stop b) := by
  have hprocess := h.process
  cases hp : m'.process with
  | none =>
    rw [hp, Option.map_none] at hprocess
    simp only [Machine.stop, hp, hprocess]
    exact ⟨rfl, by simpa only [hprocess, hp] using h.withStatus .stopped, rfl⟩
  | some p =>
    rw [hp, Option.map_some] at hprocess
    simp only [Machine.stop, hp, hprocess]
    exact ⟨rfl, ((h.withRobot (hab.allStop h.robot)).endProcess p).machine, rfl⟩

/-- A program is put in place alike. -/
lemma Mirrors.withProgram (h : m.Mirrors R k m') (program : Option Program)
    (jumps : List (Option Nat)) :
    Mirrors R k { m with program := program, jumps := jumps }
      { m' with program := program, jumps := jumps } := by
  obtain ⟨h⟩ := h
  exact .twin (m := { m' with program := program, jumps := jumps }) h

/-- **Loading** is alike. -/
lemma Mirrors.load (hab : a.Alike b R) (h : m.Mirrors R k m') (p : Program) :
    (m.load a p).Mirrors R k (m'.load b p) :=
  ⟨rfl, (h.stop hab).machine.withProgram _ _, (h.stop hab).signals⟩

/-- **Clearing** is alike. -/
lemma Mirrors.clear (hab : a.Alike b R) (h : m.Mirrors R k m') :
    (m.clear a).Mirrors R k (m'.clear b) :=
  ⟨rfl, (h.stop hab).machine.withProgram _ _, (h.stop hab).signals⟩

/-- **Loading a listing** is alike. -/
lemma Mirrors.loadListing (hab : a.Alike b R) (h : m.Mirrors R k m') (text : String) :
    (m.loadListing a text).Mirrors R k (m'.loadListing b text) := by
  unfold Machine.loadListing
  cases Listing.parseProgram text with
  | error rejected => exact ⟨rfl, h, rfl⟩
  | ok p => exact ⟨rfl, (h.load hab p).machine, (h.load hab p).signals⟩

/-- **Launching** is alike, and whether the sensor was tapped before does not matter. Both machines
open the connection or find it open, and the processes get the next numbers, which differ by as much
as before. -/
lemma mirrors_launch (hab : a.Alike b R) (h : m.resetSensor.Mirrors R k m'.resetSensor) :
    (m.launch a).Mirrors R k (m'.launch b) := by
  change (m.resetSensor.launch a).Mirrors R k (m'.resetSensor.launch b)
  generalize m.resetSensor = m at h ⊢
  generalize m'.resetSensor = m' at h ⊢
  obtain @⟨robot, _, h⟩ := h
  have hconnected : a.isConnected (m'.twin robot k).robot = b.isConnected m'.robot :=
    hab.isConnected h
  have hpid : (m'.twin robot k).nextPid + 1 = m'.nextPid + 1 + k := by
    simp only [Machine.twin]
    omega
  unfold launch
  rw [hconnected, hpid]
  cases b.isConnected m'.robot
  · exact ⟨rfl, .twin (m := { m' with
      tapped := false, robot := b.openConnection m'.robot, nextPid := m'.nextPid + 1,
      process := some (.start m'.nextPid), status := .running }) (hab.openConnection h), rfl⟩
  · exact ⟨rfl, .twin (m := { m' with
      tapped := false, nextPid := m'.nextPid + 1,
      process := some (.start m'.nextPid), status := .running }) h, rfl⟩

/-- Forgetting a tap on both sides keeps machines mirrored. -/
lemma Mirrors.resetSensor (h : m.Mirrors R k m') :
    m.resetSensor.Mirrors R k m'.resetSensor := by
  obtain ⟨h⟩ := h
  exact .twin (m := m'.resetSensor) h

/-- **Starting** is alike. -/
lemma Mirrors.startProcess (hab : a.Alike b R) (h : m.Mirrors R k m') :
    (m.startProcess a).Mirrors R k (m'.startProcess b) := by
  have hlaunch := mirrors_launch hab h.resetSensor
  unfold Machine.startProcess
  rw [h.status, h.program]
  split
  · exact h.refuse _
  · split
    · exact h.answer _
    · exact ⟨rfl, hlaunch.machine, hlaunch.signals⟩

/-- **Restarting** is alike. -/
lemma Mirrors.restart (hab : a.Alike b R) (h : m.Mirrors R k m') :
    (m.restart a).Mirrors R k (m'.restart b) := by
  have hstop := h.stop hab
  have hlaunch := mirrors_launch hab hstop.machine.resetSensor
  unfold Machine.restart
  rw [h.program]
  split
  · exact h.answer _
  · refine ⟨rfl, hlaunch.machine, ?_⟩
    simp only [hstop.signals, hlaunch.signals, List.map_append]

/-- The rest of a wait is put down alike. -/
lemma Mirrors.withRest (h : m.Mirrors R k m') (rest : Option Nat) :
    Mirrors R k { m with process := m.process.map fun p => { p with pendingWait := rest } }
      { m' with process := m'.process.map fun p => { p with pendingWait := rest } } :=
  h.mapProcess (fun p => { p with pendingWait := rest }) fun _ => rfl

/-- **Pausing** is alike. -/
lemma Mirrors.pause (h : m.Mirrors R k m') (rest : Option Nat) :
    (m.pause rest).Mirrors R k (m'.pause rest) := by
  unfold Machine.pause
  rw [h.status]
  split
  · exact h.refuse _
  · exact ⟨rfl, (h.withRest rest).withStatus .paused, rfl⟩

/-- **Resuming** is alike. -/
lemma Mirrors.resume (h : m.Mirrors R k m') : m.resume.Mirrors R k m'.resume := by
  have howed : m.process.bind Process.pendingWait = m'.process.bind Process.pendingWait := by
    obtain ⟨-⟩ := h
    simp [Machine.twin, Option.bind_map, Function.comp_def, Process.renumber]
  unfold Machine.resume
  rw [h.status, howed]
  split
  · exact h.refuse _
  · exact ⟨rfl, (h.withRest none).withStatus .running, rfl⟩

/-- **Connecting** is alike. -/
lemma Mirrors.connect (hab : a.Alike b R) (h : m.Mirrors R k m') (address : String) :
    (m.connect a address).Mirrors R k (m'.connect b address) := by
  obtain ⟨h⟩ := h
  exact ⟨rfl, .twin (m := (m'.connect b address).machine)
    (hab.openConnection (hab.setAddress h address)), rfl⟩

/-- **Shutting down** is alike. -/
lemma Mirrors.shutdown (hab : a.Alike b R) (h : m.Mirrors R k m') :
    (m.shutdown a).Mirrors R k (m'.shutdown b) := by
  have hstop := h.stop hab
  simp only [Machine.shutdown, hstop.machine.isConnected hab]
  split
  · refine ⟨rfl, hstop.machine.withRobot (hab.closeConnection hstop.machine.robot), ?_⟩
    simp [hstop.signals, Signal.renumber]
  · exact hstop

/-- **Tapping** is alike. -/
lemma Mirrors.raise (h : m.Mirrors R k m') : m.raise.Mirrors R k m'.raise := by
  obtain ⟨h⟩ := h
  exact .twin (m := m'.raise) h

/-! ### Operations and moves -/

/-- An operation is answered alike. -/
lemma Mirrors.reply (hab : a.Alike b R) (h : m.Mirrors R k m') (op : Operation) :
    m.reply a op = m'.reply b op := by
  cases op with
  | loadListing text => exact congrArg (Answer.ofResult _) (h.loadListing hab text).value
  | start => exact congrArg (Answer.ofResult _) (h.startProcess hab).value
  | restart => exact congrArg (Answer.ofResult _) (h.restart hab).value
  | pause rest => exact congrArg (Answer.ofResult _) (h.pause rest).value
  | resume => exact congrArg (Answer.ofResult _) h.resume.value
  | step => exact congrArg Answer.stepped (h.step hab).value
  | _ => rfl

/-- **Operations** on machines that mirror each other are alike. One case for each operation, by the
lemma about it; a step has the same outcome on both sides as well. -/
theorem Mirrors.operate (hab : a.Alike b R) (h : m.Mirrors R k m') (op : Operation) :
    (m.operate a op).Mirrors R k (m'.operate b op) := by
  cases op with
  | load p => exact (h.load hab p).withValue none
  | loadListing text => exact (h.loadListing hab text).withValue none
  | start => exact (h.startProcess hab).withValue none
  | restart => exact (h.restart hab).withValue none
  | pause rest => exact (h.pause rest).withValue none
  | resume => exact h.resume.withValue none
  | stop => exact (h.stop hab).withValue none
  | clear => exact (h.clear hab).withValue none
  | connect address => exact (h.connect hab address).withValue none
  | shutdown => exact (h.shutdown hab).withValue none
  | step =>
    simp only [Machine.operate, (h.step hab).value]
    exact (h.step hab).withValue _
  | tap => exact ⟨rfl, h.raise, rfl⟩

/-- An answer to an operation tells no numbers. -/
lemma renumber_reply (m : Machine σ) (a : Actuator σ) (k : Nat) (op : Operation) :
    (m.reply a op).renumber k = m.reply a op := by
  have hresult : ∀ {α : Type} (answer : α → Answer), (∀ v, (answer v).renumber k = answer v) →
      ∀ result, (Answer.ofResult answer result).renumber k = Answer.ofResult answer result := by
    intro α answer hanswer result
    cases result with
    | error e => rfl
    | ok v => exact hanswer v
  cases op <;> first | rfl | exact hresult _ (fun _ => rfl) _

/-- A copy of the process is the same but for its number. -/
lemma Mirrors.snapshot (h : m.Mirrors R k m') :
    m.snapshot = m'.snapshot.map (ProcessSnapshot.renumber k) := by
  obtain ⟨-⟩ := h
  simp [Machine.snapshot, snapshotIn, Machine.twin, Function.comp_def, Process.renumber,
    ProcessSnapshot.renumber]

/-- **Moves** of machines that mirror each other are alike, and leave such machines. -/
theorem Mirrors.play (hab : a.Alike b R) (h : m.Mirrors R k m') (v : Move) :
    m.exchange a v = (m'.exchange b v).renumber k ∧
      (m.play a v).machine.Mirrors R k (m'.play b v).machine := by
  unfold exchange Machine.play
  cases hv : v.operation? with
  | none => exact ⟨by simp [Exchange.renumber, Machine.answer, Answer.renumber, h.snapshot], h⟩
  | some op =>
    have hop := h.operate hab op
    refine ⟨?_, hop.machine⟩
    simp [Exchange.renumber, Effect.withValue, renumber_reply, h.reply hab, hop.signals]

/-- **Runs** of machines that mirror each other come to the same but for numbers, and leave such
machines. -/
theorem Mirrors.transcript (hab : a.Alike b R) (vs : List Move) :
    ∀ {m : Machine σ} {m' : Machine τ}, m.Mirrors R k m' →
      m.transcript a vs = (m'.transcript b vs).map (Exchange.renumber k) ∧
      (m.afterMoves a vs).Mirrors R k (m'.afterMoves b vs) := by
  induction vs with
  | nil => exact fun h => ⟨rfl, h⟩
  | cons v vs ih =>
    intro m m' h
    obtain ⟨hexchange, hplay⟩ := h.play hab v
    obtain ⟨htranscript, hafter⟩ := ih hplay
    exact ⟨congrArg₂ List.cons hexchange htranscript, hafter⟩

end Machine

end StickerBot
