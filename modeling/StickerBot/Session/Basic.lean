import StickerBot.Machine.Step
set_option autoImplicit false

/-!
# Sessions: a machine in its own time

A session drives a machine by itself. Any number of handles may send it requests, which wait
in a mailbox in the order they came. Each is answered exactly once: by the session, or, if the
session ends before, by being refused.

Time is counted in nanoseconds. It passes by itself, and the session reads its clock.

## Main definitions

* `Command`, `Reply`, `Request` — what a session is told, and what it answers.
* `Session` — the machine, its clock, its mailbox and what is published.
* `Session.send`, `Session.answer?` — a request on its way in, and its answer.
* `Session.addHandle`, `Session.dropHandle` — who may send.
* `Session.pass`, `Session.wakeUp` — time.

## Design

The mailbox has room for any number of requests. A handle that must wait for room sends its
request when there is some, so for the session it has sent it then.
-/

namespace StickerBot

/-- **Commands.** -/
inductive Command where
  | load (program : Program)
  | start
  | restart
  | pause
  | resume
  | stop
  | clear
  /-- Pauses, resumes or restarts, whichever the status asks for. -/
  | toggle
  | connect (address : String)
  | snapshot
  | shutdown

/-- **Replies.** -/
inductive Reply where
  | done
  | status (status : Status)
  | snapshot (snapshot : Option ProcessSnapshot)
  | refused (error : CommandError)

/-- The reply to a command that answers a value. -/
def Reply.ofResult {α : Type} (reply : α → Reply) : Except CommandError α → Reply
  | .ok a => reply a
  | .error e => .refused e

/-- **Request.** A command, and the ticket under which it is answered. -/
structure Request where
  ticket : Nat
  command : Command

/-- The nanoseconds of a millisecond. -/
def nanosPerMs : Nat := 1000000

/-- **Session.** -/
structure Session (σ : Type) where
  machine : Machine σ
  /-- The status that others see. -/
  published : Status
  /-- When the wait in progress ends, in nanoseconds. -/
  wake : Option Nat
  /-- How many instructions were executed since the session last gave way. -/
  sinceYield : Nat
  /-- The time in nanoseconds. -/
  clock : Nat
  /-- How many handles there are. -/
  handles : Nat
  /-- How many requests were sent. -/
  sent : Nat
  /-- The requests that are not answered yet, in the order they were sent. -/
  mailbox : List Request
  /-- The answers by ticket, the last first. -/
  answers : List (Nat × Reply)
  /-- Whether the session has ended. -/
  hasEnded : Bool

/-- What a session answers, the session after it, and what the outside saw. -/
structure SessionEffect (σ α : Type) where
  value : α
  session : Session σ
  signals : List Signal

namespace Session

variable {σ : Type}

/-- A session that has done nothing yet, with one handle. -/
def start (config : MachineConfig) (robot : σ) : Session σ where
  machine := .start config robot
  published := .stopped
  wake := none
  sinceYield := 0
  clock := 0
  handles := 1
  sent := 0
  mailbox := []
  answers := []
  hasEnded := false

/-! ### Requests and answers -/

/-- Answers a request. -/
def answer (s : Session σ) (ticket : Nat) (reply : Reply) : Session σ :=
  { s with answers := (ticket, reply) :: s.answers }

/-- The answer to a request, once it is there. -/
def answer? (s : Session σ) (ticket : Nat) : Option Reply :=
  (s.answers.find? fun e => e.1 = ticket).map Prod.snd

/-- **Sending.** The request goes to the end of the mailbox; its ticket is the number of
requests before it. A session that has ended refuses at once. -/
def send (s : Session σ) (c : Command) : Session σ :=
  if s.hasEnded then { s with sent := s.sent + 1 }.answer s.sent (.refused .channelClosed)
  else { s with sent := s.sent + 1, mailbox := s.mailbox ++ [⟨s.sent, c⟩] }

/-- Refuses requests that were not answered when the session ended. -/
def refuseAll (s : Session σ) (requests : List Request) : Session σ :=
  requests.foldl (fun s r => s.answer r.ticket (.refused .channelClosed)) s

/-- One handle more. -/
def addHandle (s : Session σ) : Session σ := { s with handles := s.handles + 1 }

/-- One handle less. -/
def dropHandle (s : Session σ) : Session σ := { s with handles := s.handles - 1 }

/-! ### The machine and the clock -/

/-- Publishes the status of the machine. -/
def publish (s : Session σ) : Session σ := { s with published := s.machine.status }

/-- The session after an operation of its machine, with the status published. -/
def absorb {α : Type} (s : Session σ) (e : Effect σ α) : Session σ :=
  { s with machine := e.machine }.publish

/-- Taps the sensor of the machine. -/
def raise (s : Session σ) : Session σ := { s with machine := s.machine.raise }

/-- Asks the sensor of the machine. -/
def poll (s : Session σ) : Bool × Session σ :=
  (s.machine.poll.1, { s with machine := s.machine.poll.2 })

/-- The time in full milliseconds. -/
def time (s : Session σ) : Nat := s.clock / nanosPerMs

/-- Time passes. -/
def pass (s : Session σ) (nanos : Nat) : Session σ := { s with clock := s.clock + nanos }

/-- The wait in progress is over. -/
def wakeUp (s : Session σ) : Session σ := { s with wake := none }

end Session

end StickerBot
