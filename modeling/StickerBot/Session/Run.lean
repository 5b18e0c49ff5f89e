import StickerBot.Session.Commands
set_option autoImplicit false

/-!
# Running a session

A session goes on in turns. While no process runs it waits for a request. While a process sleeps
through a wait, the session waits for a request or the end of the wait, whichever comes first.
Otherwise it serves a request if there is one, and executes one instruction if there is none. It
ends when it is told to shut down, or when nothing is left to serve and nobody to send. After a
fixed number of instructions it gives way to others.

## Main definitions

* `Received`, `Session.receive` — what the mailbox gives.
* `Turn`, `Session.turn` — one turn.
* `Session.slice` — turns until the session blocks, gives way or ends.
* `Session.request` — a request, the slice that follows, and the answer.
* `Session.sleepUntil`, `Session.waitStopped` — slices and waits until a time, or until the
  process has ended.

## Design

When a request is there at the very moment when a wait ends, either may come first. A turn is told
which; in slices it is the end of the wait.
-/

namespace StickerBot

/-- **What the mailbox gives.** -/
inductive Received where
  | request (r : Request) (rest : List Request)
  /-- Nothing yet. -/
  | empty
  /-- Nothing, and nobody is left to send. -/
  | closed

/-- Whether there is nothing to do about the mailbox yet. -/
def Received.isEmpty : Received → Bool
  | .empty => true
  | .request _ _ | .closed => false

/-- **What a turn came to.** -/
inductive Turn where
  /-- A request was served. -/
  | served (request : Request) (reply : Reply)
  /-- A wait is over. -/
  | woken
  /-- An instruction was executed. -/
  | executed (outcome : StepOutcome)
  /-- An instruction was executed, and the session gives way. -/
  | yielded (outcome : StepOutcome)
  /-- There is nothing to do until a request comes or a wait ends. -/
  | blocked
  /-- The session has ended. -/
  | ended

namespace Turn

/-- Whether the session goes on at once. -/
def goesOn : Turn → Bool
  | .served _ _ | .woken | .executed _ => true
  | .yielded _ | .blocked | .ended => false

/-- Whether the session would go on, but gives way. -/
def givesWay : Turn → Bool
  | .yielded _ => true
  | _ => false

end Turn

namespace Session

variable {σ : Type}

/-- **Receiving.** The first request of the mailbox, if there is one. -/
def receive (s : Session σ) : Received :=
  match s.mailbox with
  | r :: rest => .request r rest
  | [] => if s.handles = 0 then .closed else .empty

/-- **Ending.** The machine is shut down, and what is still in the mailbox is refused. -/
def finish (a : Actuator σ) (s : Session σ) : SessionEffect σ Turn :=
  let e := s.machine.shutdown a
  ⟨.ended,
    { (s.absorb e).refuseAll s.mailbox with wake := none, mailbox := [], hasEnded := true },
    e.signals⟩

/-- **Serving.** A request is answered. After a shutdown the session ends. -/
def serve (a : Actuator σ) (s : Session σ) (r : Request) (rest : List Request) :
    SessionEffect σ Turn :=
  let e := { s with mailbox := rest }.handle a r.command
  let answered := e.session.answer r.ticket e.value
  match r.command with
  | .shutdown =>
    let ended := answered.finish a
    ⟨.served r e.value, ended.session, e.signals ++ ended.signals⟩
  | _ => ⟨.served r e.value, answered, e.signals⟩

/-- **Attending.** A request is served, or waited for. -/
def attend (a : Actuator σ) (s : Session σ) : SessionEffect σ Turn :=
  match s.receive with
  | .request r rest => s.serve a r rest
  | .empty => ⟨.blocked, s, []⟩
  | .closed => s.finish a

/-- After how many instructions the session gives way. -/
def quota (s : Session σ) : Nat := max 1 s.machine.config.yieldEvery

/-- When the wait in progress ends after an instruction with this outcome. -/
def wakeAfter (s : Session σ) : StepOutcome → Option Nat
  | .wait ms => some (s.clock + ms * nanosPerMs)
  | _ => s.wake

/-- **One instruction.** A wait sets the time to wake. -/
def advance (a : Actuator σ) (s : Session σ) : SessionEffect σ Turn :=
  let e := s.machine.step a
  let after := { s.absorb e with wake := s.wakeAfter e.value }
  if s.quota ≤ s.sinceYield + 1 then
    ⟨.yielded e.value, { after with sinceYield := 0 }, e.signals⟩
  else ⟨.executed e.value, { after with sinceYield := s.sinceYield + 1 }, e.signals⟩

/-- **One turn.** When a wait is over and there is a request or nobody to send any,
`timerFirst` says whether the former is seen first. -/
def turn (a : Actuator σ) (timerFirst : Bool) (s : Session σ) : SessionEffect σ Turn :=
  if s.hasEnded then ⟨.ended, s, []⟩
  else if s.machine.status ≠ .running then s.attend a
  else
    match s.wake with
    | some deadline =>
      if deadline ≤ s.clock ∧ (timerFirst ∨ s.receive.isEmpty) then ⟨.woken, s.wakeUp, []⟩
      else s.attend a
    | none => if s.receive.isEmpty then s.advance a else s.attend a

/-! ### Slices -/

/-- Takes up to so many turns, after some in which `seen` was seen, the last first. The answer
says whether the session gives way and would go on. -/
def sliceFrom (a : Actuator σ) (s : Session σ) (seen : List Signal) :
    Nat → SessionEffect σ Bool
  | 0 => ⟨true, s, seen.reverse⟩
  | n + 1 =>
    let e := s.turn a true
    let seen := e.signals.reverse ++ seen
    if e.value.goesOn then sliceFrom a e.session seen n
    else ⟨e.value.givesWay, e.session, seen.reverse⟩

/-- **Slice.** Turns until the session blocks, gives way or ends: every request that waits is
served, there are at most as many instructions as the quota allows, and each of them may be a wait
that is over at once. -/
def slice (a : Actuator σ) (s : Session σ) : SessionEffect σ Bool :=
  s.sliceFrom a [] (s.mailbox.length + 2 * s.quota + 1)

/-- **Request.** A request, the slice that follows, and the answer. -/
def request (a : Actuator σ) (s : Session σ) (c : Command) :
    SessionEffect σ (Option Reply) :=
  let e := (s.send c).slice a
  ⟨e.session.answer? s.sent, e.session, e.signals⟩

/-- A request to load a listing. One with errors is refused before anything is sent. -/
def requestListing (a : Actuator σ) (s : Session σ) (text : String) :
    SessionEffect σ (Option Reply) :=
  match Listing.parseProgram text with
  | .ok p => s.request a (.load p)
  | .error rejected => ⟨some (.refused (.listing rejected)), s, []⟩

/-- Time passes until some time. -/
def passUntil (s : Session σ) (time : Nat) : Session σ := s.pass (time - s.clock)

/-- **Sleeping.** Slices and waits until a time in milliseconds, with `seen` seen before, the last
first. The answer says whether the time was reached with the slices that may be taken. -/
def sleepUntil (a : Actuator σ) (ms : Nat) (s : Session σ) (seen : List Signal) :
    Nat → SessionEffect σ Bool
  | 0 => ⟨false, s, seen.reverse⟩
  | n + 1 =>
    let e := s.slice a
    let seen := e.signals.reverse ++ seen
    if e.value then sleepUntil a ms e.session seen n
    else
      match e.session.wake with
      | some deadline =>
        if ms * nanosPerMs < deadline then
          ⟨true, e.session.passUntil (ms * nanosPerMs), seen.reverse⟩
        else sleepUntil a ms (e.session.passUntil deadline) seen n
      | none => ⟨true, e.session.passUntil (ms * nanosPerMs), seen.reverse⟩

/-- **Waiting for the end.** Slices and waits until the process has ended, with `seen` seen
before, the last first. The answer says whether it has, with the slices that may be taken; it
never will if the session blocks without a wait in progress. -/
def waitStopped (a : Actuator σ) (s : Session σ) (seen : List Signal) :
    Nat → SessionEffect σ Bool
  | 0 => ⟨false, s, seen.reverse⟩
  | n + 1 =>
    if s.published = .stopped then ⟨true, s, seen.reverse⟩
    else
      let e := s.slice a
      let seen := e.signals.reverse ++ seen
      if e.value then waitStopped a e.session seen n
      else
        match e.session.wake with
        | some deadline => waitStopped a (e.session.passUntil deadline) seen n
        | none => ⟨e.session.published = .stopped, e.session, seen.reverse⟩

end Session

end StickerBot
