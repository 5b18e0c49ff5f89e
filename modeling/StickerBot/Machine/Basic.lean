import StickerBot.Listing.Assembly
set_option autoImplicit false

/-!
# The parts of the machine

## Main definitions

* `MachineConfig` — how long a unit of waiting is, and how the machine shares its time.
* `Status`, `Process`, `ProcessInfo`, `ProcessSnapshot` — one execution of a program.
* `Fault` — what can go wrong at an instruction, and whether it ends the process.
* `Event`, `RobotCall`, `Signal` — what the outside sees of a run.
* `Actuator` — the robot: how it is told what to do, and what it answers.
* `Machine` — the state of the machine.

## Design

The number of a process stands for its identity: it is told apart by it from the processes before,
and nothing computes with it. It is a natural number here, so that no two processes of a machine
share one. A machine that counts in 32 bits shows the number modulo `2 ^ 32` and gives the first one
again after so many processes.
-/

namespace StickerBot

/-- **Configuration.** -/
structure MachineConfig where
  /-- Milliseconds in one unit of waiting. -/
  timeUnitMs : Nat := 1
  /-- Instructions between two pauses for others. -/
  yieldEvery : Nat := 64
  /-- How many commands may wait. -/
  commandBuffer : Nat := 32
deriving DecidableEq, Repr, Inhabited

/-- The greatest number of 64 bits. -/
def maxWord64 : Nat := UInt64.size - 1

/-- The milliseconds of a number of units, as far as 64 bits go. -/
def MachineConfig.waitMs (c : MachineConfig) (units : UInt32) : Nat :=
  min (c.timeUnitMs * units.toNat) maxWord64

/-- **Status.** -/
inductive Status where
  | stopped
  | running
  | paused
deriving DecidableEq, Repr, Inhabited

/-- The word for a status. -/
def Status.name : Status → String
  | .stopped => "stopped"
  | .running => "running"
  | .paused => "paused"

/-- The variables of a process. -/
abbrev Variables := Table String Int32

/-- **Process.** One execution of the program. -/
structure Process where
  /-- Its number, which stands for its identity and is not cut to 32 bits. -/
  pid : Nat
  /-- The place of the next instruction. -/
  pc : Nat
  values : Variables
  /-- The rest of a wait that a pause has cut short, as whoever drives the machine counts time. -/
  pendingWait : Option Nat
deriving DecidableEq, Inhabited

/-- A process that has done nothing yet. -/
def Process.start (pid : Nat) : Process := ⟨pid, 0, .empty, none⟩

/-- **Process information.** What events tell about their process. -/
structure ProcessInfo where
  /-- The number of the process, which stands for its identity. -/
  pid : Nat
  pc : Nat
  status : Status
deriving DecidableEq, Repr, Inhabited

/-- **Snapshot.** A copy of a process. -/
structure ProcessSnapshot where
  /-- The number of the process, which stands for its identity. -/
  pid : Nat
  pc : Nat
  status : Status
  values : Variables
  pendingWaitMs : Option Nat
deriving DecidableEq, Inhabited

/-- **Faults.** -/
inductive Fault where
  /-- A brace without a partner. -/
  | unresolvableJump (pc : Nat)
  | unknownNative (name : String) (pc : Nat)
  | notASensor (name : String)
  | undefinedVariable (name : String)
  | nativeStatus (name : String) (status : Int32)
deriving DecidableEq, Repr

namespace Fault

/-- Whether a fault ends the process. -/
def isFatal : Fault → Bool
  | .unresolvableJump _ | .unknownNative _ _ | .notASensor _ => true
  | .undefinedVariable _ | .nativeStatus _ _ => false

/-- The code of a fault. -/
def code : Fault → Code
  | .unresolvableJump _ | .unknownNative _ _ | .notASensor _ => .unresolvableInstruction
  | .undefinedVariable _ => .undefinedVariable
  | .nativeStatus _ _ => .nativeStatus

/-- The message of a fault. -/
def message : Fault → String
  | .unresolvableJump pc => "no matching block for instruction " ++ toString pc
  | .unknownNative name pc =>
    "unknown native call '" ++ name ++ "' at instruction " ++ toString pc
  | .notASensor name => "'" ++ name ++ "' is not a sensor"
  | .undefinedVariable name => "variable '" ++ name ++ "' read before assignment"
  | .nativeStatus name status => name ++ "() returned status " ++ toString status.toInt

end Fault

/-- **Events.** What whoever watches a run is told. -/
inductive Event where
  | processStarted (info : ProcessInfo)
  | processStopped (info : ProcessInfo)
  | trace (info : ProcessInfo) (point : UInt32) (statement : Option Nat)
  | print (info : ProcessInfo) (text : String)
  | error (info : ProcessInfo) (text : String)
deriving DecidableEq, Repr

/-- **Robot calls.** What the robot is told. -/
inductive RobotCall where
  | perform (action : NativeAction) (arguments : List Int32)
  | setAddress (address : String)
  | openConnection
  | closeConnection
  | allStop
deriving DecidableEq, Repr

/-- **Signals.** What the outside sees of a run, in order: calls to the robot, questions to
the touch sensor with their answers, and events. -/
inductive Signal where
  | robot (call : RobotCall)
  | poll (tapped : Bool)
  | event (event : Event)
deriving DecidableEq, Repr

/-- **Actuator.** A robot with states `σ`: whether it is connected, and how each call changes
it. An action answers with a status, zero for success. -/
structure Actuator (σ : Type) where
  isConnected : σ → Bool
  setAddress : String → σ → σ
  openConnection : σ → σ
  closeConnection : σ → σ
  /-- Stops all motion at once. -/
  allStop : σ → σ
  perform : NativeAction → List Int32 → σ → Int32 × σ

/-- **Machine.** -/
structure Machine (σ : Type) where
  config : MachineConfig
  robot : σ
  /-- Whether the sensor was tapped since it was last asked. -/
  tapped : Bool
  program : Option Program
  /-- For each instruction, the other brace of its block. -/
  jumps : List (Option Nat)
  process : Option Process
  status : Status
  /-- The number of the next process. It stands for the identity of that process: it grows with
  every process and does not start again after 32 bits. -/
  nextPid : Nat

/-- **Effect.** What an operation answers, the machine after it, and what the outside saw. -/
structure Effect (σ α : Type) where
  value : α
  machine : Machine σ
  signals : List Signal

/-- Puts signals in front of those of an effect. -/
def Effect.after {σ α : Type} (earlier : List Signal) (e : Effect σ α) : Effect σ α :=
  { e with signals := earlier ++ e.signals }

namespace Machine

variable {σ : Type}

/-- A machine that has done nothing yet. -/
def start (config : MachineConfig) (robot : σ) : Machine σ :=
  ⟨config, robot, false, none, [], none, .stopped, 1⟩

/-- What events tell about a process. -/
def info (m : Machine σ) (p : Process) : ProcessInfo := ⟨p.pid, p.pc, m.status⟩

/-- A copy of the process, with the rest of a wait in milliseconds: so many units of time, as
whoever drives the machine counts it, make one. -/
def snapshotIn (unitsPerMs : Nat) (m : Machine σ) : Option ProcessSnapshot :=
  m.process.map fun p => ⟨p.pid, p.pc, m.status, p.values,
    p.pendingWait.map fun rest => min (rest / unitsPerMs) maxWord64⟩

/-- A copy of the process of a machine that is driven in milliseconds. -/
def snapshot (m : Machine σ) : Option ProcessSnapshot := m.snapshotIn 1

/-- Taps the sensor. -/
def raise (m : Machine σ) : Machine σ := { m with tapped := true }

/-- Forgets a tap. -/
def resetSensor (m : Machine σ) : Machine σ := { m with tapped := false }

/-- Asks the sensor, which forgets the tap it reports. -/
def poll (m : Machine σ) : Bool × Machine σ := (m.tapped, m.resetSensor)

end Machine

end StickerBot
