import StickerBot.Machine.Commands
set_option autoImplicit false

/-!
# Running a program, one instruction at a time

Each step executes the instruction at the process's place. A wait is not slept: the step hands
its length to whoever drives the machine. A fault that is not fatal is reported, and the run
goes on; a fatal one ends the process.

## Main definitions

* `StepOutcome` — what a step came to.
* `Machine.execute` — one instruction, and where the process goes on.
* `Machine.step` — one step.
* `Machine.runSteps` — several steps, without sleeping.
-/

namespace StickerBot

/-- **Outcomes of a step.** -/
inductive StepOutcome where
  /-- Go on with the next step. -/
  | continue
  /-- Go on after so many milliseconds. -/
  | wait (ms : Nat)
  /-- The program has ended. -/
  | finished
  /-- A fault has ended the process. -/
  | faulted (fault : Fault)
  /-- There is nothing to do: no process, or it is paused. -/
  | idle
deriving DecidableEq, Repr

/-- Where a process goes on after an instruction. -/
inductive Flow where
  | next
  | jump (target : Nat)
  /-- At the next instruction, after so many milliseconds. -/
  | wait (ms : Nat)
deriving DecidableEq, Repr

namespace Machine

variable {σ : Type}

/-- The value of a variable. One that has none counts as zero, and that is reported. -/
def read (m : Machine σ) (p : Process) (x : String) : Int32 × List Signal :=
  match p.values.get? x with
  | some n => (n, [])
  | none => (0, [.event (.error (m.info p) (Fault.undefinedVariable x).message)])

/-- Gives a variable a value. -/
def write (m : Machine σ) (p : Process) (x : String) (n : Int32) : Machine σ :=
  { m with process := some { p with values := p.values.insert x n } }

/-- The sum of two words, held within the words. -/
def addSaturating (a b : Int32) : Int32 :=
  let n := a.toInt + b.toInt
  if n < Int32.minValue.toInt then Int32.minValue
  else if Int32.maxValue.toInt < n then Int32.maxValue
  else Int32.ofInt n

/-- Whether a loop goes round once more, or the fault of its header. -/
def holds (m : Machine σ) (p : Process) : Condition → Effect σ (Except Fault Bool)
  | .below x limit =>
    let (n, signals) := m.read p x
    ⟨.ok (decide (n < limit)), m, signals⟩
  | .sensorNotRaised sensor =>
    match NativeAction.ofName? sensor with
    | none => m.answer (.error (.unknownNative sensor p.pc))
    | some action =>
      if action.isSensor then
        let (tapped, m) := m.poll
        ⟨.ok (!tapped), m, [.poll tapped]⟩
      else m.answer (.error (.notASensor sensor))

/-- Calls a native action. The call is reported before it is made. -/
def callNative (a : Actuator σ) (m : Machine σ) (p : Process) (name : String)
    (arguments : List Int32) : Effect σ (Except Fault Flow) :=
  match NativeAction.ofName? name with
  | none => m.answer (.error (.unknownNative name p.pc))
  | some action =>
    let report := Signal.event (.print (m.info p) (Instruction.call name arguments).render)
    if action.isSensor then
      let (tapped, m) := m.poll
      ⟨.ok .next, m, [report, .poll tapped]⟩
    else
      let (status, robot) := a.perform action arguments m.robot
      let called := Signal.robot (.perform action arguments)
      ⟨.ok .next, { m with robot := robot },
        if status = 0 then [report, called]
        else
          [report, called,
            .event (.error (m.info p) (Fault.nativeStatus name status).message)]⟩

/-- The place of the other brace of the block at a place. -/
def partner? (m : Machine σ) (place : Nat) : Option Nat := (m.jumps[place]?).join

/-- **Executing an instruction.** Where the process goes on, or the fault that ends it. -/
def execute (a : Actuator σ) (m : Machine σ) (p : Process) :
    Instruction → Effect σ (Except Fault Flow)
  | .call name arguments => m.callNative a p name arguments
  | .wait units => m.answer (.ok (.wait (m.config.waitMs units)))
  | .assign x n => ⟨.ok .next, m.write p x n, []⟩
  | .increment x n =>
    let (old, signals) := m.read p x
    ⟨.ok .next, m.write p x (addSaturating old n), signals⟩
  | .loop condition =>
    match m.holds p condition with
    | ⟨.error fault, m, signals⟩ => ⟨.error fault, m, signals⟩
    | ⟨.ok true, m, signals⟩ => ⟨.ok .next, m, signals⟩
    | ⟨.ok false, m, signals⟩ =>
      match m.partner? p.pc with
      | some closing => ⟨.ok (.jump (closing + 1)), m, signals⟩
      | none => ⟨.error (.unresolvableJump p.pc), m, signals⟩
  | .close =>
    match m.partner? p.pc with
    | some header => m.answer (.ok (.jump header))
    | none => m.answer (.error (.unresolvableJump p.pc))
  | .trace point =>
    let statement := m.program.bind fun q => q.traceMap.get? point
    ⟨.ok .next, m, [.event (.trace (m.info p) point statement)]⟩
  | .print text => ⟨.ok .next, m, [.event (.print (m.info p) text)]⟩

/-- Moves the process to a place. -/
def goto (m : Machine σ) (pc : Nat) : Machine σ :=
  { m with process := m.process.map fun p => { p with pc := pc } }

/-- The instruction at a place of the program. -/
def instruction? (m : Machine σ) (pc : Nat) : Option Instruction :=
  m.program.bind fun p => p.instructions[pc]?

/-- **One step.** -/
def step (a : Actuator σ) (m : Machine σ) : Effect σ StepOutcome :=
  match m.status, m.process with
  | .running, some p =>
    match m.instruction? p.pc with
    | none =>
      let ended := m.endProcess p
      ⟨.finished, ended.machine, ended.signals⟩
    | some i =>
      match m.execute a p i with
      | ⟨.ok .next, m, signals⟩ => ⟨.continue, m.goto (p.pc + 1), signals⟩
      | ⟨.ok (.jump target), m, signals⟩ => ⟨.continue, m.goto target, signals⟩
      | ⟨.ok (.wait ms), m, signals⟩ => ⟨.wait ms, m.goto (p.pc + 1), signals⟩
      | ⟨.error fault, m, signals⟩ =>
        let ended := m.endProcess p
        ⟨.faulted fault, ended.machine,
          signals ++ .event (.error (m.info p) fault.message) :: ended.signals⟩
  | _, _ => m.answer .idle

/-- **Tally.** What several steps came to. -/
structure RunTally where
  last : StepOutcome
  steps : Nat
  /-- The milliseconds of all waits together. -/
  waitedMs : Nat
deriving DecidableEq, Repr

/-- Whether a run goes on after an outcome. -/
def StepOutcome.goesOn : StepOutcome → Bool
  | .continue | .wait _ => true
  | .finished | .faulted _ | .idle => false

/-- Takes up to so many steps more, after some that were taken before; `signals` holds what
was seen of those, the last first. -/
def runFrom (a : Actuator σ) (tally : RunTally) (signals : List Signal) (m : Machine σ) :
    Nat → Effect σ RunTally
  | 0 => ⟨tally, m, signals.reverse⟩
  | n + 1 =>
    let stepped := m.step a
    let waited :=
      match stepped.value with
      | .wait ms => ms
      | _ => 0
    let tally := ⟨stepped.value, tally.steps + 1, tally.waitedMs + waited⟩
    let signals := stepped.signals.reverse ++ signals
    if StepOutcome.goesOn stepped.value then runFrom a tally signals stepped.machine n
    else ⟨tally, stepped.machine, signals.reverse⟩

/-- **Several steps.** Takes up to so many steps, none after one that ends the run. -/
def runSteps (a : Actuator σ) (m : Machine σ) (n : Nat) : Effect σ RunTally :=
  runFrom a ⟨.idle, 0, 0⟩ [] m n

end Machine

end StickerBot
