import StickerBot.Machine.Basic
set_option autoImplicit false

/-!
# Commands of the machine

A program is loaded, a process is started, paused, resumed and stopped. A command that does
not fit the status is refused and changes nothing.

## Main definitions

* `linkBlocks` — the other brace of every brace.
* `CommandError` — why a command is refused.
* `Machine.load`, `Machine.startProcess`, `Machine.restart`, `Machine.pause`,
  `Machine.resume`, `Machine.stop`, `Machine.clear`, `Machine.connect`, `Machine.shutdown`.
-/

namespace StickerBot

/-- Pairs the braces of the instructions from a place on: `opened` holds the headers still
open, the innermost first. -/
def linkFrom (place : Nat) (opened : List Nat) (links : List (Option Nat)) :
    List Instruction → List (Option Nat)
  | [] => links
  | .loop _ :: is => linkFrom (place + 1) (place :: opened) links is
  | .close :: is =>
    match opened with
    | [] => linkFrom (place + 1) [] links is
    | header :: outer =>
      linkFrom (place + 1) outer ((links.set header (some place)).set place (some header)) is
  | _ :: is => linkFrom (place + 1) opened links is

/-- **Linking.** For each instruction, the place of the other brace of its block. -/
def linkBlocks (is : List Instruction) : List (Option Nat) :=
  linkFrom 0 [] (List.replicate is.length none) is

/-- **Command errors.** -/
inductive CommandError where
  | noProgram
  | invalidTransition (command : String) (status : Status)
  | listing (rejected : Listing.RejectedListing)
  /-- There is nothing to run a machine on. -/
  | noRuntime
  /-- The machine is gone. -/
  | channelClosed
deriving DecidableEq, Repr

/-- The message of a command error. -/
def CommandError.message : CommandError → String
  | .noProgram => "no program loaded"
  | .invalidTransition command status => "cannot " ++ command ++ " while " ++ status.name
  | .listing rejected => "listing does not assemble: " ++ rejected.message
  | .noRuntime => "virtual machine needs a running Tokio runtime"
  | .channelClosed => "virtual machine is no longer running"

namespace Machine

variable {σ : Type}

/-- The refusal of a command in the present status. -/
def refuse (m : Machine σ) (command : String) : CommandError :=
  .invalidTransition command m.status

/-- An operation that does nothing but answer. -/
def answer {α : Type} (m : Machine σ) (a : α) : Effect σ α := ⟨a, m, []⟩

/-- Ends the process, which is reported. -/
def endProcess (m : Machine σ) (p : Process) : Effect σ Unit :=
  ⟨(), { m with status := .stopped, process := none },
    [.event (.processStopped ⟨p.pid, p.pc, .stopped⟩)]⟩

/-- **Stopping.** Ends the process, if there is one, and halts the robot. -/
def stop (a : Actuator σ) (m : Machine σ) : Effect σ Unit :=
  match m.process with
  | some p => (endProcess { m with robot := a.allStop m.robot } p).after [.robot .allStop]
  | none => ⟨(), { m with status := .stopped }, []⟩

/-- **Loading.** Stops, and replaces the program. -/
def load (a : Actuator σ) (m : Machine σ) (p : Program) : Effect σ Unit :=
  let stopped := m.stop a
  ⟨(), { stopped.machine with program := some p, jumps := linkBlocks p.instructions },
    stopped.signals⟩

/-- **Loading a listing.** A listing with errors changes nothing. -/
def loadListing (a : Actuator σ) (m : Machine σ) (text : String) :
    Effect σ (Except CommandError Unit) :=
  match Listing.parseProgram text with
  | .error rejected => m.answer (.error (.listing rejected))
  | .ok p =>
    let loaded := m.load a p
    ⟨.ok (), loaded.machine, loaded.signals⟩

/-- Begins a process: taps from before are forgotten, and the robot is connected. -/
def launch (a : Actuator σ) (m : Machine σ) : Effect σ Unit :=
  let connected := a.isConnected m.robot
  let p := Process.start m.nextPid
  ⟨(),
    { m with
      tapped := false
      robot := if connected then m.robot else a.openConnection m.robot
      nextPid := m.nextPid + 1
      process := some p
      status := .running },
    (if connected then [] else [.robot .openConnection]) ++
      [.event (.processStarted ⟨p.pid, p.pc, .running⟩)]⟩

/-- **Starting.** Begins a process if none is running or paused. -/
def startProcess (a : Actuator σ) (m : Machine σ) : Effect σ (Except CommandError Unit) :=
  if m.status ≠ .stopped then m.answer (.error (m.refuse "start"))
  else if m.program.isNone then m.answer (.error .noProgram)
  else
    let launched := m.launch a
    ⟨.ok (), launched.machine, launched.signals⟩

/-- **Restarting.** Stops, and begins a process. -/
def restart (a : Actuator σ) (m : Machine σ) : Effect σ (Except CommandError Unit) :=
  if m.program.isNone then m.answer (.error .noProgram)
  else
    let stopped := m.stop a
    let launched := stopped.machine.launch a
    ⟨.ok (), launched.machine, stopped.signals ++ launched.signals⟩

/-- **Pausing.** Keeps the rest of a wait that was cut short. -/
def pause (m : Machine σ) (remaining : Option Nat) : Effect σ (Except CommandError Unit) :=
  if m.status ≠ .running then m.answer (.error (m.refuse "pause"))
  else
    ⟨.ok (),
      { m with
        process := m.process.map fun p => { p with pendingWait := remaining }
        status := .paused },
      []⟩

/-- **Resuming.** Hands back the rest of a wait that a pause cut short. -/
def resume (m : Machine σ) : Effect σ (Except CommandError (Option Nat)) :=
  if m.status ≠ .paused then m.answer (.error (m.refuse "resume"))
  else
    ⟨.ok (m.process.bind Process.pendingWait),
      { m with
        process := m.process.map fun p => { p with pendingWait := none }
        status := .running },
      []⟩

/-- **Clearing.** Stops, and forgets the program. -/
def clear (a : Actuator σ) (m : Machine σ) : Effect σ Unit :=
  let stopped := m.stop a
  ⟨(), { stopped.machine with program := none, jumps := [] }, stopped.signals⟩

/-- **Connecting.** Connects the robot at an address. -/
def connect (a : Actuator σ) (m : Machine σ) (address : String) : Effect σ Unit :=
  ⟨(), { m with robot := a.openConnection (a.setAddress address m.robot) },
    [.robot (.setAddress address), .robot .openConnection]⟩

/-- **Shutting down.** Stops, and disconnects the robot. -/
def shutdown (a : Actuator σ) (m : Machine σ) : Effect σ Unit :=
  let stopped := m.stop a
  if a.isConnected stopped.machine.robot then
    ⟨(),
      { stopped.machine with robot := a.closeConnection stopped.machine.robot },
      stopped.signals ++ [.robot .closeConnection]⟩
  else stopped

end Machine

end StickerBot
