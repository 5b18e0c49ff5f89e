import StickerBot.Session.Basic
set_option autoImplicit false

/-!
# Commands of a session

Most commands are those of the machine, with the wait in progress taken into account: a pause
keeps the rest of it, resuming sleeps that rest, and what ends the process ends the wait. A
command that is refused leaves the session as it was.

## Main definitions

* `Session.pause`, `Session.resume`, `Session.restart`, `Session.toggle` — commands that deal
  with the wait in progress.
* `Session.handle` — every command and its reply.
-/

namespace StickerBot.Session

variable {σ : Type}

/-- **Pausing.** The rest of a wait in progress is kept. -/
def pause (s : Session σ) : SessionEffect σ (Except CommandError Unit) :=
  let remaining := s.wake.map fun deadline => deadline - s.clock
  let e := s.machine.pause remaining
  let after := s.absorb e
  ⟨e.value, if e.value.isOk then after.wakeUp else after, e.signals⟩

/-- **Resuming.** The rest of a wait is slept from now on. -/
def resume (s : Session σ) : SessionEffect σ (Except CommandError Unit) :=
  let e := s.machine.resume
  let after := s.absorb e
  match e.value with
  | .ok owed => ⟨.ok (), { after with wake := owed.map fun rest => s.clock + rest }, e.signals⟩
  | .error error => ⟨.error error, after, e.signals⟩

/-- **Restarting.** The wait in progress ends. -/
def restart (a : Actuator σ) (s : Session σ) : SessionEffect σ (Except CommandError Unit) :=
  let e := s.machine.restart a
  ⟨e.value, s.wakeUp.absorb e, e.signals⟩

/-- **Toggling.** Pauses, resumes or restarts, whichever the status asks for. -/
def toggle (a : Actuator σ) (s : Session σ) : SessionEffect σ (Except CommandError Unit) :=
  match s.machine.status with
  | .running => s.pause
  | .paused => s.resume
  | .stopped => s.restart a

/-- An operation of the machine that cannot be refused and ends the wait in progress. -/
def runCutting (s : Session σ) (e : Effect σ Unit) : SessionEffect σ Reply :=
  ⟨.done, s.wakeUp.absorb e, e.signals⟩

/-- The reply of an operation that answers nothing. -/
def replyDone (e : SessionEffect σ (Except CommandError Unit)) : SessionEffect σ Reply :=
  ⟨Reply.ofResult (fun _ => .done) e.value, e.session, e.signals⟩

/-- **One command.** -/
def handle (a : Actuator σ) (s : Session σ) : Command → SessionEffect σ Reply
  | .load program => s.runCutting (s.machine.load a program)
  | .start =>
    let e := s.machine.startProcess a
    replyDone ⟨e.value, s.absorb e, e.signals⟩
  | .restart => replyDone (s.restart a)
  | .pause => replyDone s.pause
  | .resume => replyDone s.resume
  | .stop => s.runCutting (s.machine.stop a)
  | .clear => s.runCutting (s.machine.clear a)
  | .toggle =>
    let e := s.toggle a
    ⟨Reply.ofResult (fun _ => .status e.session.machine.status) e.value, e.session, e.signals⟩
  | .connect address =>
    let e := s.machine.connect a address
    ⟨.done, s.absorb e, e.signals⟩
  | .snapshot => ⟨.snapshot (s.machine.snapshotIn nanosPerMs), s, []⟩
  | .shutdown => s.runCutting (s.machine.shutdown a)

end StickerBot.Session
