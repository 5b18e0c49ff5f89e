import Mathlib
import StickerBot.Proofs.Happening
import StickerBot.Proofs.StructuredRun
set_option autoImplicit false

/-!
# Waits are owed exactly once

A process executes an instruction at the time at which it was started, and later by all that it has
waited before and by all the time for which it was paused. So a wait that is interrupted takes as
long as one that is not, however often it is interrupted and whatever else is commanded meanwhile.

## Main definitions

* `Session.due` — when the process goes on, if it is not paused any longer.
* `Session.Permits`, `Session.Punctual` — time passes only while a session has nothing to do.
* `Session.Paced` — all that can be done to the process and its wait in no time and without an
  instruction.
* `Session.Restful` — what holds of a session all the time.
* `Session.Timely` — what holds besides if time passes only when it may.
* `Session.Defers`, `Session.Owes` — how much later a process goes on, and when.
* `Incident.waited`, `Incident.paused` — how long a process has to wait, and is paused.

## Main results

* `Session.paced_handle` — what a command can do.
* `Session.Paced.defers` — no command defers a process.
* `Session.Turned.executes`, `Session.Timely.executes_of_due` — an instruction is executed exactly
  when the process is due.
* `Session.Restful.happened` — what a happening comes to.
* `Session.Timely.happen`, `Session.Owes.afterAll` — what happens keeps a session timely, and defers
  a process by what it waits and by the time for which it is paused.
* `Session.owes_of_history` — when a process goes on after it was started.
* `waits_owed_once` — when instructions are executed.

## Design

The rest of a wait is kept by the session while the process runs, and by the process while it is
paused. What matters is neither but the time at which the process goes on. No command changes it,
and time changes it only while the process is paused.
-/

namespace StickerBot

variable {σ : Type}

/-! ### What stays of a process -/

/-- Whether a signal reports the start of a process. -/
def Signal.isStart : Signal → Bool
  | .event (.processStarted _) => true
  | _ => false

namespace Machine

/-- What halts a machine: no process lives, and none was started. -/
structure Halts (m : Machine σ) {α : Type} (e : Effect σ α) : Prop where
  process : e.machine.process = none
  status : e.machine.status = .stopped
  nextPid : e.machine.nextPid = m.nextPid
  signals : ∀ x ∈ e.signals, x.isStart = false

/-- Stopping halts a machine, whether there was a process to end or not. -/
lemma halts_stop (a : Actuator σ) (m : Machine σ) : m.Halts (m.stop a) := by
  unfold stop
  split
  · exact ⟨rfl, rfl, rfl, by simp [Effect.after, endProcess, Signal.isStart]⟩
  · rename_i hnone
    exact ⟨hnone, rfl, rfl, by simp⟩

/-- Shutting down halts a machine. It stops it first, and closing the connection after that touches
nothing of the process. -/
lemma halts_shutdown (a : Actuator σ) (m : Machine σ) : m.Halts (m.shutdown a) := by
  obtain ⟨hprocess, hstatus, hnext, hsignals⟩ := halts_stop a m
  unfold shutdown
  dsimp only
  split
  · refine ⟨hprocess, hstatus, hnext, List.forall_mem_append.2 ⟨hsignals, ?_⟩⟩
    simp [Signal.isStart]
  · exact ⟨hprocess, hstatus, hnext, hsignals⟩

/-- What is seen inside a process is not the start of one. -/
lemma isStart_of_inside {pid : Nat} {x : Signal} (h : x.Inside pid) : x.isStart = false := by
  unfold Signal.Inside at h
  split at h <;> first | rfl | contradiction

/-- Steps start no process. -/
lemma Stepped.isStart_eq_false {m : Machine σ} {e : Effect σ StepOutcome} (h : m.Stepped e) :
    ∀ x ∈ e.signals, x.isStart = false := by
  cases h with
  | idle h => simp [answer]
  | finished p hs hp => simp [Signal.isStart]
  | moved p hs hp outcome ho robot tapped values pc signals hsignals =>
    exact fun x hx => isStart_of_inside (hsignals x hx)
  | faulted p hs hp f hf robot tapped signals hsignals =>
    refine List.forall_mem_append.2 ⟨fun x hx => isStart_of_inside (hsignals x hx), ?_⟩
    simp [Signal.isStart]

/-- Where there is a process there is a program. -/
def Programmed (m : Machine σ) : Prop := m.process.isSome → m.program.isSome

/-- **Operations** leave no process without a program. Only a launch makes a process, and it needs a
program; whatever takes the program away ends the process before. -/
lemma Programmed.operate {m : Machine σ} (h : m.Programmed) (a : Actuator σ) (op : Operation) :
    (m.operate a op).machine.Programmed := by
  have hnone : ∀ {m' : Machine σ}, m'.process = none → m'.Programmed := fun hprocess => by
    simp [Programmed, hprocess]
  have hoperated := operated_operate a m op
  generalize (m.operate a op).machine = m' at hoperated
  cases hoperated with
  | kept robot tapped => exact h
  | halted robot => exact hnone rfl
  | loaded robot p => exact hnone rfl
  | cleared robot => exact hnone rfl
  | launched robot hprogram => exact fun _ => hprogram
  | paused rest hs => exact fun hsome => h (by simpa using hsome)
  | resumed hs => exact fun hsome => h (by simpa using hsome)
  | stepped =>
    have hstep := m.stepped_step a
    generalize m.step a = e at hstep
    cases hstep with
    | idle _ => exact h
    | finished p hs hp => exact hnone rfl
    | moved p hs hp => exact fun _ => h (by rw [hp]; rfl)
    | faulted p hs hp => exact hnone rfl

/-- A programmed machine stays programmed through any operations, by induction along them. -/
lemma Programmed.operateAll (a : Actuator σ) (ops : List Operation) : ∀ {m : Machine σ},
    m.Programmed → (m.operateAll a ops).Programmed := by
  induction ops with
  | nil => exact fun h => h
  | cons op ops ih => exact fun h => ih (h.operate a op)

end Machine

namespace Session

/-! ### When a process goes on -/

/-- The rest of a wait that a pause has cut short. -/
def pending (s : Session σ) : Option Nat := s.machine.process.bind Process.pendingWait

/-- **Due.** When the process goes on, if it is not paused any longer: at the end of the wait in
progress, if there is one. -/
def due (s : Session σ) : Nat :=
  match s.machine.status with
  | .running => s.wake.getD s.clock
  | .paused => s.clock + s.pending.getD 0
  | .stopped => s.clock

/-- **Permitting.** Time passes only when the session has ended, or has nothing to do but to wait
for a request or the end of the wait in progress, which is not before that time has passed. -/
def Permits (s : Session σ) : Happening → Prop
  | .pass nanos => s.hasEnded = true ∨ s.receive.isEmpty = true ∧
      (s.machine.status = .running → ∃ deadline ∈ s.wake, s.clock + nanos ≤ deadline)
  | _ => True

/-- Whether a happening is permitted can be computed: only the passing of time is under a condition,
and this compares the clock with one deadline. -/
instance (s : Session σ) : (h : Happening) → Decidable (s.Permits h)
  | .pass _ => inferInstanceAs (Decidable (_ ∨ _ ∧ (_ → ∃ deadline ∈ s.wake, _ ≤ deadline)))
  | .send _ | .addHandle | .dropHandle | .tap | .turn _ => inferInstanceAs (Decidable True)

/-- **Punctual.** All that happens is permitted when it happens. -/
def Punctual (a : Actuator σ) (s : Session σ) : List Happening → Prop
  | [] => True
  | h :: hs => s.Permits h ∧ Punctual a (s.happen a h).session hs

/-- Whether a history is punctual can be computed, by running the session along it. -/
instance decidablePunctual (a : Actuator σ) : (s : Session σ) → (hs : List Happening) →
    Decidable (s.Punctual a hs)
  | _, [] => inferInstanceAs (Decidable True)
  | s, h :: hs =>
    haveI := decidablePunctual a (s.happen a h).session hs
    inferInstanceAs (Decidable (s.Permits h ∧ (s.happen a h).session.Punctual a hs))

/-- A history in two parts is punctual exactly if the first part is, and the second part is from the
session that the first part leaves. -/
lemma punctual_append (a : Actuator σ) (hs hs' : List Happening) : ∀ {s : Session σ},
    s.Punctual a (hs ++ hs') ↔ s.Punctual a hs ∧ (s.afterAll a hs).Punctual a hs' := by
  induction hs with
  | nil => simp [Punctual, afterAll]
  | cons h hs ih => simp [Punctual, afterAll, ih, and_assoc]

/-! ### Commands -/

/-- **Pace.** All that can be done to the process and its wait while no instruction is executed and
no time passes. -/
inductive Paced (s s' : Session σ) (signals : List Signal) : Prop where
  /-- The process goes on as it did. -/
  | kept (hprocess : s'.machine.process = s.machine.process)
    (hstatus : s'.machine.status = s.machine.status)
    (hnext : s'.machine.nextPid = s.machine.nextPid) (hwake : s'.wake = s.wake)
    (hsignals : ∀ x ∈ signals, x.isStart = false)
  /-- The wait of a running process is over. -/
  | woken (hprocess : s'.machine.process = s.machine.process)
    (hs : s.machine.status = .running) (hstatus : s'.machine.status = .running)
    (hnext : s'.machine.nextPid = s.machine.nextPid)
    (hover : ∀ deadline, s.wake = some deadline → deadline ≤ s.clock) (hwake : s'.wake = none)
    (hsignals : signals = [])
  /-- A running process is paused, and keeps the rest of the wait in progress. -/
  | paused (hs : s.machine.status = .running)
    (hprocess : s'.machine.process =
      s.machine.process.map fun p => { p with pendingWait := s.remaining })
    (hstatus : s'.machine.status = .paused) (hnext : s'.machine.nextPid = s.machine.nextPid)
    (hwake : s'.wake = none) (hsignals : signals = [])
  /-- A paused process is resumed, and waits for what it has kept. -/
  | resumed (hs : s.machine.status = .paused)
    (hprocess : s'.machine.process =
      s.machine.process.map fun p => { p with pendingWait := none })
    (hstatus : s'.machine.status = .running) (hnext : s'.machine.nextPid = s.machine.nextPid)
    (hwake : s'.wake = s.pending.map fun rest => s.clock + rest) (hsignals : signals = [])
  /-- The process ends, if there is one. -/
  | ended (hprocess : s'.machine.process = none) (hstatus : s'.machine.status = .stopped)
    (hnext : s'.machine.nextPid = s.machine.nextPid) (hwake : s'.wake = none)
    (hsignals : ∀ x ∈ signals, x.isStart = false)
  /-- The next process begins. -/
  | launched (hprocess : s'.machine.process = some (.start s.machine.nextPid))
    (hstatus : s'.machine.status = .running) (hnext : s'.machine.nextPid = s.machine.nextPid + 1)
    (hwake : s'.wake = none)
    (hsignals : ∀ info, .event (.processStarted info) ∈ signals → info.pid = s.machine.nextPid)

/-- **Restful.** A session is consistent and has no process without a program, and there is a wait
in progress only while a process runs. -/
structure Restful (s : Session σ) : Prop where
  consistent : s.Consistent
  programmed : s.machine.Programmed
  asleep : s.wake.isSome → s.machine.status = .running

namespace Restful

variable {s : Session σ}

/-- While no process runs there is no wait in progress. -/
lemma wake_eq_none (h : s.Restful) (hs : s.machine.status ≠ .running) : s.wake = none := by
  cases hwake : s.wake with
  | none => rfl
  | some deadline => exact absurd (h.asleep (by simp [hwake])) hs

/-- Without a program there is no wait in progress. -/
lemma wake_eq_none_of_program (h : s.Restful) (hnone : s.machine.program = none) :
    s.wake = none := by
  refine h.wake_eq_none fun hs => ?_
  obtain ⟨p, hp⟩ := h.consistent.orderly.exists_process (by simp [hs])
  have hsome := h.programmed (by simp [hp])
  simp [hnone] at hsome

/-- Other requests and answers matter as little as another time. -/
lemma congr {s' : Session σ} (h : s.Restful) (hmachine : s'.machine = s.machine)
    (hpublished : s'.published = s.published) (hwake : s'.wake = s.wake)
    (hended : s'.hasEnded = s.hasEnded) : s'.Restful := by
  obtain ⟨⟨horderly, hsame, hnone⟩, hprogrammed, hasleep⟩ := h
  rw [← hmachine] at horderly hsame hnone hprogrammed hasleep
  rw [← hpublished] at hsame
  rw [← hwake] at hasleep
  rw [← hended] at hnone
  exact ⟨⟨horderly, hsame, hnone⟩, hprogrammed, hasleep⟩

end Restful

/-- **Timely.** A session is consistent and has no process without a program. There is a wait in
progress only while a process runs, and it is not over for long; a rest of a wait is kept only
while the process does not run. -/
structure Timely (s : Session σ) : Prop where
  consistent : s.Consistent
  programmed : s.machine.Programmed
  asleep : s.wake.isSome → s.machine.status = .running
  onTime : ∀ deadline, s.wake = some deadline → s.clock ≤ deadline
  pending : s.machine.status = .running → s.pending = none

namespace Timely

variable {s s' : Session σ} {signals : List Signal}

/-- A timely session is restful: it has what a session needs to refuse a command without any
change. -/
lemma restful (h : s.Timely) : s.Restful := ⟨h.consistent, h.programmed, h.asleep⟩

/-- A consistent session whose process does not run is timely, if nothing is waited for. -/
lemma of_idle (hconsistent : s.Consistent) (hprogrammed : s.machine.Programmed)
    (hs : s.machine.status ≠ .running) (hwake : s.wake = none) : s.Timely :=
  ⟨hconsistent, hprogrammed, by simp [hwake], by simp [hwake], fun hrun => absurd hrun hs⟩

end Timely

/-- Pausing. -/
lemma paced_pause (s : Session σ) : s.Paced s.pause.session s.pause.signals := by
  unfold pause Machine.pause
  by_cases hs : s.machine.status = .running
  · simp only [hs, ne_eq, not_true_eq_false, if_false, Except.isOk, Except.toBool, if_true]
    exact .paused hs rfl rfl rfl rfl rfl
  · simp only [hs, ne_eq, not_false_eq_true, if_true]
    exact .kept rfl rfl rfl rfl (by simp [Machine.answer])

/-- Resuming. -/
lemma paced_resume (s : Session σ) : s.Paced s.resume.session s.resume.signals := by
  unfold resume Machine.resume
  by_cases hs : s.machine.status = .paused
  · simp only [hs, ne_eq, not_true_eq_false, if_false]
    exact .resumed hs rfl rfl rfl rfl rfl
  · simp only [hs, ne_eq, not_false_eq_true, if_true]
    exact .kept rfl rfl rfl rfl (by simp [Machine.answer])

/-- Only the start of the next process is reported when one is launched. -/
lemma pid_of_mem_launch {a : Actuator σ} {m : Machine σ} {info : ProcessInfo}
    (h : .event (.processStarted info) ∈ (m.launch a).signals) : info.pid = m.nextPid := by
  unfold Machine.launch at h
  cases hconnected : a.isConnected m.robot <;> simp [hconnected, Process.start] at h <;> simp [h]

/-- Restarting. -/
lemma paced_restart (a : Actuator σ) {s : Session σ} (h : s.Restful) :
    s.Paced (s.restart a).session (s.restart a).signals := by
  obtain ⟨-, -, hnext, hsignals⟩ := Machine.halts_stop a s.machine
  unfold restart Machine.restart
  cases hprogram : s.machine.program with
  | none =>
    have hwake := h.wake_eq_none_of_program hprogram
    exact .kept rfl rfl rfl hwake.symm (by simp [Machine.answer])
  | some p =>
    refine .launched ?_ rfl ?_ rfl fun info hinfo => ?_
    · exact congrArg (fun pid => some (Process.start pid)) hnext
    · exact congrArg (· + 1) hnext
    · rcases List.mem_append.1 hinfo with hinfo | hinfo
      · exact absurd (hsignals _ hinfo) (by simp [Signal.isStart])
      · exact (pid_of_mem_launch hinfo).trans hnext

/-- **Commands** do what commands can. One case for each command. What cuts the wait short ends the
process as well, and a start is granted only while nothing is waited for. -/
theorem paced_handle (a : Actuator σ) {s : Session σ} (h : s.Restful) (c : Command) :
    s.Paced (s.handle a c).session (s.handle a c).signals := by
  have hcut : ∀ {e : Effect σ Unit}, s.machine.Halts e →
      s.Paced (s.runCutting e).session (s.runCutting e).signals := fun hhalts =>
    .ended hhalts.process hhalts.status hhalts.nextPid rfl hhalts.signals
  have hstop := Machine.halts_stop a s.machine
  cases c with
  | load p => exact hcut ⟨hstop.process, hstop.status, hstop.nextPid, hstop.signals⟩
  | start =>
    simp only [handle, replyDone, Machine.startProcess]
    split
    · exact .kept rfl rfl rfl rfl (by simp [Machine.answer])
    · rename_i hs
      split
      · exact .kept rfl rfl rfl rfl (by simp [Machine.answer])
      · have hwake : s.wake = none := h.wake_eq_none fun hrun => hs (by simp [hrun])
        exact .launched rfl rfl rfl hwake fun info hinfo => pid_of_mem_launch hinfo
  | restart => exact paced_restart a h
  | pause => exact paced_pause s
  | resume => exact paced_resume s
  | stop => exact hcut hstop
  | clear => exact hcut ⟨hstop.process, hstop.status, hstop.nextPid, hstop.signals⟩
  | toggle =>
    simp only [handle, toggle]
    split
    · exact paced_pause s
    · exact paced_resume s
    · exact paced_restart a h
  | connect address =>
    exact .kept rfl rfl rfl rfl (by simp [handle, Machine.connect, Signal.isStart])
  | snapshot => exact .kept rfl rfl rfl rfl (by simp [handle])
  | shutdown => exact hcut (Machine.halts_shutdown a s.machine)

/-! ### Turns -/

/-- Turns take no time. -/
lemma Turned.clock {a : Actuator σ} {s : Session σ} {e : SessionEffect σ Turn}
    (h : s.Turned a e) : e.session.clock = s.clock := by
  cases h with
  | @served hopen r rest hmail hr e he =>
    have halike := handle_alike a { s with mailbox := rest } r.command
    rw [he] at halike
    exact halike.clock
  | @shutdown hopen r rest hmail hr e he =>
    have halike := handle_alike a { s with mailbox := rest } .shutdown
    rw [he] at halike
    dsimp only
    rw [finish_session]
    exact halike.clock
  | closed hopen hmail hhandles => rw [finish_session]
  | _ => rfl

/-- What is done to a session with another mailbox is done to it, and an answer changes nothing. -/
lemma Paced.answered {s s' : Session σ} {mailbox : List Request} {signals : List Signal}
    (h : { s with mailbox := mailbox }.Paced s' signals) (ticket : Nat) (reply : Reply) :
    s.Paced (s'.answer ticket reply) signals := by
  cases h with
  | kept hprocess hstatus hnext hwake hsignals =>
    exact .kept hprocess hstatus hnext hwake hsignals
  | woken hprocess hs hstatus hnext hover hwake hsignals =>
    exact .woken hprocess hs hstatus hnext hover hwake hsignals
  | paused hs hprocess hstatus hnext hwake hsignals =>
    exact .paused hs hprocess hstatus hnext hwake hsignals
  | resumed hs hprocess hstatus hnext hwake hsignals =>
    exact .resumed hs hprocess hstatus hnext hwake hsignals
  | ended hprocess hstatus hnext hwake hsignals =>
    exact .ended hprocess hstatus hnext hwake hsignals
  | launched hprocess hstatus hnext hwake hsignals =>
    exact .launched hprocess hstatus hnext hwake hsignals

/-- **Turns** without an instruction do what can be done while none is executed. One case for each
outcome of a turn. The one in which an instruction is executed is left out by the assumption. -/
theorem Turned.paced {a : Actuator σ} {s : Session σ} {e : SessionEffect σ Turn} (h : s.Restful)
    (he : s.Turned a e) (hnone : e.value.outcome? = none) : s.Paced e.session e.signals := by
  cases he with
  | past hended => exact .kept rfl rfl rfl rfl (by simp)
  | blocked hopen hmail hhandles hsleeps => exact .kept rfl rfl rfl rfl (by simp)
  | @woken hopen hs deadline hwake hover =>
    refine .woken rfl hs hs rfl (fun deadline' hwake' => ?_) rfl rfl
    rwa [← Option.some.inj (hwake.symm.trans hwake')]
  | @served hopen r rest hmail hr e he =>
    have hrestful : { s with mailbox := rest }.Restful := h.congr rfl rfl rfl rfl
    have hpaced := paced_handle a hrestful r.command
    rw [he] at hpaced
    exact hpaced.answered r.ticket e.value
  | @shutdown hopen r rest hmail hr e he =>
    subst he
    have hfirst := Machine.halts_shutdown a s.machine
    have hlast := Machine.halts_shutdown a (s.machine.shutdown a).machine
    dsimp only
    rw [finish_session]
    exact .ended hlast.process hlast.status (hlast.nextPid.trans hfirst.nextPid) rfl
      (List.forall_mem_append.2 ⟨hfirst.signals, hlast.signals⟩)
  | executed hopen hmail hhandles hs hwake he hturn sinceYield =>
    exact absurd (hturn.symm.trans hnone) (by simp)
  | closed hopen hmail hhandles =>
    have hhalts := Machine.halts_shutdown a s.machine
    rw [finish_session]
    exact .ended hhalts.process hhalts.status hhalts.nextPid rfl hhalts.signals

/-- **Pace.** A session stays timely if it stays consistent and keeps its programs. A deadline is
set by resuming alone, from now on and not earlier; and a rest of a wait is kept by pausing alone,
with which the process no longer runs. -/
lemma Paced.timely {s s' : Session σ} {signals : List Signal} (h : s.Timely)
    (hs' : s.Paced s' signals) (hclock : s'.clock = s.clock) (hconsistent : s'.Consistent)
    (hprogrammed : s'.machine.Programmed) : s'.Timely := by
  cases hs' with
  | kept hprocess hstatus hnext hwake hsignals =>
    refine ⟨hconsistent, hprogrammed, ?_, ?_, ?_⟩
    · rw [hwake, hstatus]
      exact h.asleep
    · rw [hwake, hclock]
      exact h.onTime
    · rw [hstatus, Session.pending, hprocess]
      exact h.pending
  | woken hprocess hs hstatus hnext hover hwake hsignals =>
    refine ⟨hconsistent, hprogrammed, by simp [hwake], by simp [hwake], fun _ => ?_⟩
    rw [Session.pending, hprocess]
    exact h.pending hs
  | paused hs hprocess hstatus hnext hwake hsignals =>
    exact .of_idle hconsistent hprogrammed (by simp [hstatus]) hwake
  | resumed hs hprocess hstatus hnext hwake hsignals =>
    refine ⟨hconsistent, hprogrammed, fun _ => hstatus, fun deadline hdeadline => ?_, fun _ => ?_⟩
    · rw [hwake] at hdeadline
      obtain ⟨rest, -, rfl⟩ := Option.map_eq_some_iff.1 hdeadline
      rw [hclock]
      exact Nat.le_add_right _ _
    · rw [Session.pending, hprocess]
      cases s.machine.process <;> rfl
  | ended hprocess hstatus hnext hwake hsignals =>
    exact .of_idle hconsistent hprogrammed (by simp [hstatus]) hwake
  | launched hprocess hstatus hnext hwake hsignals =>
    refine ⟨hconsistent, hprogrammed, by simp [hwake], by simp [hwake], fun _ => ?_⟩
    rw [Session.pending, hprocess]
    rfl

/-- Whether the process of a number lives. -/
def Lives (s : Session σ) (pid : Nat) : Prop := s.machine.process.map Process.pid = some pid

/-- Whether the process of a number lives can be read off the machine. -/
instance (s : Session σ) (pid : Nat) : Decidable (s.Lives pid) :=
  inferInstanceAs (Decidable (_ = _))

/-- **Deferring.** Of the processes that there have been in `s`, the one that lives in `s'` lives in
`s` too, and goes on so much later. -/
structure Defers (s s' : Session σ) (delay : Nat → Nat) : Prop where
  nextPid : s.machine.nextPid ≤ s'.machine.nextPid
  due : ∀ pid < s.machine.nextPid, s'.Lives pid → s.Lives pid ∧ s'.due = s.due + delay pid

/-- Where no process lives, none is deferred. -/
lemma defers_of_none {s s' : Session σ} {delay : Nat → Nat} (hnone : s'.machine.process = none)
    (hnext : s'.machine.nextPid = s.machine.nextPid) : s.Defers s' delay :=
  ⟨Nat.le_of_eq hnext.symm, fun _ _ hlives => absurd hlives (by simp [Lives, hnone])⟩

/-- **Pace.** Nothing is deferred while no instruction is executed and no time passes: the rest of a
wait moves from the session to the process and back. -/
theorem Paced.defers {s s' : Session σ} {signals : List Signal} (h : s.Timely)
    (hs' : s.Paced s' signals) (hclock : s'.clock = s.clock) : s.Defers s' fun _ => 0 := by
  have hsame : s'.machine.process.map Process.pid = s.machine.process.map Process.pid →
      s'.due = s.due → ∀ pid < s.machine.nextPid, s'.Lives pid →
        s.Lives pid ∧ s'.due = s.due + 0 :=
    fun hprocess hdue pid _ hlives => ⟨hprocess.symm.trans hlives, hdue⟩
  cases hs' with
  | kept hprocess hstatus hnext hwake hsignals =>
    refine ⟨Nat.le_of_eq hnext.symm, hsame (by rw [hprocess]) ?_⟩
    unfold due Session.pending
    rw [hprocess, hstatus, hwake, hclock]
  | woken hprocess hs hstatus hnext hover hwake hsignals =>
    refine ⟨Nat.le_of_eq hnext.symm, hsame (by rw [hprocess]) ?_⟩
    unfold due
    rw [hs, hstatus, hwake, hclock]
    cases hdeadline : s.wake with
    | none => rfl
    | some deadline => exact Nat.le_antisymm (h.onTime _ hdeadline) (hover _ hdeadline)
  | paused hs hprocess hstatus hnext hwake hsignals =>
    refine ⟨Nat.le_of_eq hnext.symm, hsame (by rw [hprocess, Option.map_map]; rfl) ?_⟩
    obtain ⟨p, hp⟩ := h.consistent.orderly.exists_process (by simp [hs])
    have hpending : s'.pending = s.remaining := by
      rw [Session.pending, hprocess, hp]
      rfl
    unfold due
    rw [hs, hstatus, hclock, hpending, remaining]
    cases hdeadline : s.wake with
    | none => rfl
    | some deadline => exact Nat.add_sub_of_le (h.onTime _ hdeadline)
  | resumed hs hprocess hstatus hnext hwake hsignals =>
    refine ⟨Nat.le_of_eq hnext.symm, hsame (by rw [hprocess, Option.map_map]; rfl) ?_⟩
    unfold due
    rw [hs, hstatus, hclock, hwake]
    cases s.pending <;> rfl
  | ended hprocess hstatus hnext hwake hsignals =>
    exact defers_of_none hprocess hnext
  | launched hprocess hstatus hnext hwake hsignals =>
    refine ⟨hnext ▸ Nat.le_succ _, fun pid hpid hlives => ?_⟩
    rw [Lives, hprocess] at hlives
    exact absurd (Option.some.inj hlives).symm (Nat.ne_of_lt hpid)

end Session

/-- The nanoseconds that a turn has to be waited for. -/
def Turn.waited (turn : Turn) : Nat := (turn.outcome?.bind StepOutcome.wait?).getD 0 * nanosPerMs

namespace Session

/-- **Instructions.** One is executed when the process is due, which then waits for what the turn
says.

**Proof sketch.** An instruction is executed only when there is no deadline, and a running process
without a deadline is due now. The outcome of the instruction sets the next deadline, by which the
process is due later; an end leaves no process that could be. -/
theorem Turned.executes {a : Actuator σ} {s : Session σ} {e : SessionEffect σ Turn} (h : s.Timely)
    (he : s.Turned a e) (hsome : e.value.outcome?.isSome) :
    s.due = s.clock ∧ e.session.Timely ∧ s.Defers e.session (fun _ => e.value.waited) ∧
      ∀ x ∈ e.signals, x.isStart = false := by
  have hconsistent := h.consistent.turned he
  have hprogrammed : e.session.machine.Programmed := by
    rw [he.operations.1]
    exact h.programmed.operateAll a _
  cases he with
  | @executed hopen hmail hhandles hs hwake effect he turn hturn sinceYield =>
    have hdue : s.due = s.clock := by rw [due, hs, hwake]; rfl
    have hstepped := Machine.stepped_step a s.machine
    rw [he] at hstepped
    have hsignals := hstepped.isStart_eq_false
    cases hstepped with
    | idle hidle =>
      obtain ⟨p, hp⟩ := h.consistent.orderly.exists_process (by simp [hs])
      exact absurd (hp.symm.trans (hidle hs)) (by simp)
    | finished p hs' hp =>
      exact ⟨hdue, .of_idle hconsistent hprogrammed (by simp) rfl,
        defers_of_none rfl rfl, hsignals⟩
    | moved p hs' hp outcome ho robot tapped values pc signals hinside =>
      refine ⟨hdue, ⟨hconsistent, hprogrammed, fun _ => hs, fun deadline hdeadline => ?_,
        fun _ => ?_⟩, ⟨Nat.le_refl _, fun pid _ hlives => ⟨?_, ?_⟩⟩, hsignals⟩
      · obtain ⟨ms, -, rfl⟩ := Option.map_eq_some_iff.1 hdeadline
        exact Nat.le_add_right _ _
      · have hpending := h.pending hs
        rwa [Session.pending, hp] at hpending
      · rw [Lives, hp]
        exact hlives
      · have hwaited : turn.waited = (StepOutcome.wait? outcome).getD 0 * nanosPerMs := by
          rw [Turn.waited, hturn, Option.bind_some]
        -- stated for any unit, since the kernel would count the nanoseconds of a millisecond
        have hends : ∀ (clock unit : Nat) (wait : Option Nat),
            (wait.map fun ms => clock + ms * unit).getD clock = clock + wait.getD 0 * unit := by
          rintro clock unit (_ | ms) <;> simp
        rw [hdue]
        simp only [hwaited, due, hs]
        exact hends _ _ _
    | faulted p hs' hp f hf robot tapped signals hinside =>
      exact ⟨hdue, .of_idle hconsistent hprogrammed (by simp) rfl,
        defers_of_none rfl rfl, hsignals⟩
  | _ => exact absurd hsome Bool.false_ne_true

/-- **Due.** When a process is due and there is no request, its next instruction is executed, in
this turn or, if it is woken in this turn, in the next. -/
theorem Timely.executes_of_due (a : Actuator σ) {s : Session σ} (h : s.Timely)
    (hs : s.machine.status = .running) (hempty : s.receive.isEmpty = true)
    (hdue : s.due = s.clock) (timerFirst timerFirst' : Bool) :
    (s.turn a timerFirst).value.outcome?.isSome ∨
      s.turn a timerFirst = ⟨.woken, s.wakeUp, []⟩ ∧
        (s.wakeUp.turn a timerFirst').value.outcome?.isSome := by
  have hopen : s.hasEnded = false := Bool.eq_false_iff.2 fun hended =>
    absurd ((h.consistent.stopped hended).2.1.symm.trans hs) (by simp)
  have hadvance : ∀ s : Session σ, (s.advance a).value.outcome?.isSome := fun s => by
    unfold advance
    dsimp only
    split <;> rfl
  have hawake : ∀ s : Session σ, s.hasEnded = false → s.machine.status = .running →
      s.receive.isEmpty = true → s.wake = none → ∀ timerFirst,
        (s.turn a timerFirst).value.outcome?.isSome := by
    intro s hopen hs hempty hwake timerFirst
    rw [turn, if_neg (by simp [hopen]), if_neg (by simp [hs]), hwake]
    dsimp only
    rw [if_pos hempty]
    exact hadvance s
  cases hwake : s.wake with
  | none => exact .inl (hawake s hopen hs hempty hwake timerFirst)
  | some deadline =>
    have hover : deadline ≤ s.clock := by
      rw [due, hs, hwake] at hdue
      exact Nat.le_of_eq hdue
    have hwoken : s.turn a timerFirst = ⟨.woken, s.wakeUp, []⟩ := by
      rw [turn, if_neg (by simp [hopen]), if_neg (by simp [hs]), hwake]
      exact if_pos ⟨hover, .inr hempty⟩
    exact .inr ⟨hwoken, hawake s.wakeUp hopen hs hempty rfl timerFirst'⟩

end Session

/-! ### What a process has waited -/

namespace Incident

/-- Whether a process executes an instruction. -/
def Executes (pid : Nat) (i : Incident σ) : Prop :=
  i.before.Lives pid ∧ (i.turn.bind Turn.outcome?).isSome

/-- Whether an incident executes an instruction of a process can be read off the session before it
and the turn. -/
instance (pid : Nat) (i : Incident σ) : Decidable (i.Executes pid) :=
  inferInstanceAs (Decidable (_ ∧ _))

/-- The nanoseconds that a process has to wait after an instruction that it executes. -/
def waited (pid : Nat) (i : Incident σ) : Nat :=
  if i.before.Lives pid then (i.turn.map Turn.waited).getD 0 else 0

/-- The nanoseconds that pass while a process is paused. -/
def paused (pid : Nat) (i : Incident σ) : Nat :=
  match i.happening with
  | .pass nanos => if i.before.Lives pid ∧ i.before.machine.status = .paused then nanos else 0
  | _ => 0

/-- A process waits only after its instructions. -/
lemma waited_eq_zero {pid : Nat} {i : Incident σ} (h : ¬ i.Executes pid) : i.waited pid = 0 := by
  unfold waited
  split
  · rename_i hlives
    have hnone : i.turn.bind Turn.outcome? = none := by
      simpa using fun hsome => h ⟨hlives, hsome⟩
    cases hturn : i.turn with
    | none => rfl
    | some turn =>
      rw [hturn, Option.bind_some] at hnone
      simp [Turn.waited, hnone]
  · rfl

/-- A process is paused only while time passes. -/
lemma paused_eq_zero (pid : Nat) {i : Incident σ} (h : ∀ nanos, i.happening ≠ .pass nanos) :
    i.paused pid = 0 := by
  unfold paused
  split
  · rename_i nanos hpass
    exact absurd hpass (h nanos)
  · rfl

end Incident

namespace Session

/-- A new session is timely. -/
lemma timely_start (config : MachineConfig) (robot : σ) : (start config robot).Timely :=
  .of_idle (consistent_start config robot) (fun h => h) (by simp [start, Machine.start]) rfl

/-- A process is deferred only while it lives. -/
lemma Defers.congr {s s' : Session σ} {delay delay' : Nat → Nat} (h : s.Defers s' delay)
    (heq : ∀ pid, s.Lives pid → delay' pid = delay pid) : s.Defers s' delay' := by
  refine ⟨h.nextPid, fun pid hpid hlives' => ?_⟩
  obtain ⟨hlives, hdue⟩ := h.due pid hpid hlives'
  exact ⟨hlives, by rw [hdue, heq pid hlives]⟩

/-- **Passing.** Time that may pass keeps a session timely. -/
lemma Timely.pass {s : Session σ} (h : s.Timely) {nanos : Nat}
    (hpermits : s.Permits (.pass nanos)) : (s.pass nanos).Timely := by
  refine ⟨⟨h.consistent.orderly, h.consistent.published, h.consistent.ended⟩, h.programmed,
    h.asleep, fun deadline hdeadline => ?_, h.pending⟩
  have hs : s.machine.status = .running := h.asleep (Option.isSome_of_mem hdeadline)
  rcases hpermits with hended | ⟨-, hwaits⟩
  · have hstopped := (h.consistent.stopped hended).2.1
    exact absurd (hstopped.symm.trans hs) (by simp)
  · obtain ⟨deadline', hdeadline', hle⟩ := hwaits hs
    rwa [Option.some.inj (hdeadline.symm.trans hdeadline')]

/-- **Passing.** Time that may pass defers the process if it is paused. While the process runs, time
passes only up to the deadline, which does not move; and while it is paused, the rest of its wait
begins so much later. -/
lemma defers_pass {s : Session σ} (h : s.Timely) {nanos : Nat}
    (hpermits : s.Permits (.pass nanos)) :
    s.Defers (s.pass nanos) fun _ => if s.machine.status = .paused then nanos else 0 := by
  refine ⟨Nat.le_refl _, fun pid _ hlives => ⟨hlives, ?_⟩⟩
  obtain ⟨p, hp, -⟩ := Option.map_eq_some_iff.1 hlives
  cases hs : s.machine.status with
  | running =>
    rcases hpermits with hended | ⟨-, hwaits⟩
    · exact absurd (hp.symm.trans (h.consistent.ended hended)) (by simp)
    · obtain ⟨deadline, hdeadline, -⟩ := hwaits hs
      have hdeadline : s.wake = some deadline := hdeadline
      simp [due, Session.pass, hs, hdeadline]
  | paused =>
    simp only [due, Session.pass, Session.pending, hs, if_true]
    omega
  | stopped =>
    have horderly := h.consistent.orderly
    have hp' : s.machine.process = some p := hp
    simp [Machine.Orderly, hp', hs] at horderly

/-- **Happenings** without an instruction, in no time, do what can be done then. Sending, handles
and taps concern no process, and a turn in which none is executed has been dealt with before. -/
lemma paced_happen (a : Actuator σ) {s : Session σ} (h : s.Restful) {happening : Happening}
    (hpass : ∀ nanos, happening ≠ .pass nanos)
    (hnone : (s.happen a happening).value.bind Turn.outcome? = none) :
    s.Paced (s.happen a happening).session (s.happen a happening).signals ∧
      (s.happen a happening).session.clock = s.clock := by
  cases happening with
  | send c =>
    simp only [happen, send, answer]
    split
    · exact ⟨.kept rfl rfl rfl rfl (by simp), rfl⟩
    · split <;> exact ⟨.kept rfl rfl rfl rfl (by simp), rfl⟩
  | addHandle =>
    simp only [happen, addHandle]
    split <;> exact ⟨.kept rfl rfl rfl rfl (by simp), rfl⟩
  | pass nanos => exact absurd rfl (hpass nanos)
  | turn timerFirst =>
    have hturned := turned_turn a timerFirst s
    exact ⟨hturned.paced h hnone, hturned.clock⟩
  | _ => exact ⟨.kept rfl rfl rfl rfl (by simp [happen]), rfl⟩

/-- An instruction is executed in a turn. -/
lemma exists_turn_of_outcome {a : Actuator σ} {s : Session σ} {happening : Happening}
    (h : ((s.happen a happening).value.bind Turn.outcome?).isSome) :
    ∃ timerFirst, happening = .turn timerFirst := by
  cases happening with
  | turn timerFirst => exact ⟨timerFirst, rfl⟩
  | _ => exact absurd h Bool.false_ne_true

/-- **Happened.** What a happening comes to. -/
inductive Happened (a : Actuator σ) (s : Session σ) : Happening → Prop where
  /-- Time passes. -/
  | passed (nanos : Nat) : Happened a s (.pass nanos)
  /-- An instruction is executed. -/
  | executed (timerFirst : Bool) (hsome : (s.turn a timerFirst).value.outcome?.isSome) :
    Happened a s (.turn timerFirst)
  /-- It does what can be done in no time and without an instruction. -/
  | paced {happening : Happening} (hpass : ∀ nanos, happening ≠ .pass nanos)
    (hnone : (s.happen a happening).value.bind Turn.outcome? = none)
    (hpaced : s.Paced (s.happen a happening).session (s.happen a happening).signals)
    (hclock : (s.happen a happening).session.clock = s.clock) : Happened a s happening

/-- **Happenings** come to one of these. -/
theorem Restful.happened {s : Session σ} (h : s.Restful) (a : Actuator σ) (happening : Happening) :
    s.Happened a happening := by
  by_cases hpass : ∃ nanos, happening = .pass nanos
  · obtain ⟨nanos, rfl⟩ := hpass
    exact .passed nanos
  have hpass : ∀ nanos, happening ≠ .pass nanos := fun nanos heq => hpass ⟨nanos, heq⟩
  by_cases hsome : ((s.happen a happening).value.bind Turn.outcome?).isSome
  · obtain ⟨timerFirst, rfl⟩ := exists_turn_of_outcome hsome
    exact .executed timerFirst hsome
  · have hnone : (s.happen a happening).value.bind Turn.outcome? = none := by simpa using hsome
    obtain ⟨hpaced, hclock⟩ := paced_happen a h hpass hnone
    exact .paced hpass hnone hpaced hclock

/-- **Happenings** keep a session timely if time passes only when it may, and defer a process by
what it waits and by the time for which it is paused. -/
theorem Timely.happen {a : Actuator σ} {s : Session σ} (h : s.Timely) {happening : Happening}
    (hpermits : s.Permits happening) :
    (s.happen a happening).session.Timely ∧ s.Defers (s.happen a happening).session fun pid =>
      (s.incident a happening).waited pid + (s.incident a happening).paused pid := by
  cases h.restful.happened a happening with
  | passed nanos =>
    refine ⟨h.pass hpermits, (defers_pass h hpermits).congr fun pid hlives => ?_⟩
    simp [Incident.waited, Incident.paused, incident, Session.happen, hlives]
  | executed timerFirst hsome =>
    obtain ⟨-, htimely, hdefers, -⟩ := (turned_turn a timerFirst s).executes h hsome
    refine ⟨htimely, hdefers.congr fun pid hlives => ?_⟩
    rw [Incident.paused_eq_zero pid (by rintro nanos ⟨⟩), Nat.add_zero]
    exact if_pos hlives
  | paced hpass hnone hpaced hclock =>
    have hprogrammed : (s.happen a happening).session.machine.Programmed := by
      rw [(s.happen_operations a happening).1]
      exact h.programmed.operateAll a _
    have hquiet : ∀ pid, ¬ (s.incident a happening).Executes pid := fun pid hi => by
      simpa [incident, hnone] using hi.2
    refine ⟨hpaced.timely h hclock (h.consistent.happen a happening) hprogrammed,
      (hpaced.defers h hclock).congr fun pid _ => ?_⟩
    rw [Incident.paused_eq_zero pid hpass, Incident.waited_eq_zero (hquiet pid)]

/-! ### What is owed -/

/-- **Owing.** A process of a timely session goes on at a time, if it still lives. -/
structure Owes (s : Session σ) (pid time : Nat) : Prop where
  timely : s.Timely
  old : pid < s.machine.nextPid
  due : s.Lives pid → s.due = time

/-- **Happenings** make a process go on later by what it waits and by the time for which it is
paused. -/
lemma Owes.happen {a : Actuator σ} {s : Session σ} {pid time : Nat} (h : s.Owes pid time)
    {happening : Happening} (hpermits : s.Permits happening) :
    (s.happen a happening).session.Owes pid (time +
      ((s.incident a happening).waited pid + (s.incident a happening).paused pid)) := by
  obtain ⟨htimely, hdefers⟩ := h.timely.happen hpermits (a := a)
  refine ⟨htimely, Nat.lt_of_lt_of_le h.old hdefers.nextPid, fun hlives' => ?_⟩
  obtain ⟨hlives, hdue⟩ := hdefers.due pid h.old hlives'
  rw [hdue, h.due hlives]

/-- **Histories** make a process go on later by all that it waits and by all the time for which it
is paused. -/
theorem Owes.afterAll (a : Actuator σ) {pid : Nat} (hs : List Happening) :
    ∀ {s : Session σ} {time : Nat}, s.Owes pid time → s.Punctual a hs →
      (s.afterAll a hs).Owes pid (time + ((s.history a hs).map (Incident.waited pid)).sum +
        ((s.history a hs).map (Incident.paused pid)).sum) := by
  induction hs with
  | nil => exact fun h _ => h
  | cons first hs ih =>
    intro s time h hpunctual
    have hrest := ih (h.happen hpunctual.1 (a := a)) hpunctual.2
    simp only [history, List.map_cons, List.sum_cons]
    have hsum : ∀ w p ws ps : Nat, time + (w + p) + ws + ps = time + (w + ws) + (p + ps) := by
      omega
    rwa [hsum] at hrest

/-- A process executes an instruction when it is due. -/
lemma Owes.clock_of_executes {a : Actuator σ} {s : Session σ} {pid time : Nat}
    (h : s.Owes pid time) {happening : Happening}
    (hexecutes : (s.incident a happening).Executes pid) : s.clock = time := by
  obtain ⟨hlives, hsome⟩ := hexecutes
  obtain ⟨timerFirst, rfl⟩ := exists_turn_of_outcome hsome
  obtain ⟨hdue, -⟩ := (turned_turn a timerFirst s).executes h.timely hsome
  exact hdue.symm.trans (h.due hlives)

/-- What reports the start of a process launches it: it is the next, and goes on at once. -/
lemma Paced.launch {s s' : Session σ} {signals : List Signal} (h : s.Paced s' signals)
    (hclock : s'.clock = s.clock) {info : ProcessInfo}
    (hlaunch : .event (.processStarted info) ∈ signals) :
    info.pid = s.machine.nextPid ∧ s'.machine.nextPid = s.machine.nextPid + 1 ∧
      s'.due = s.clock := by
  have hquiet : ¬ ∀ x ∈ signals, x.isStart = false := fun hsignals =>
    absurd (hsignals _ hlaunch) (by simp [Signal.isStart])
  cases h with
  | kept hprocess hstatus hnext hwake hsignals => exact absurd hsignals hquiet
  | woken hprocess hs hstatus hnext hover hwake hsignals => simp [hsignals] at hlaunch
  | paused hs hprocess hstatus hnext hwake hsignals => simp [hsignals] at hlaunch
  | resumed hs hprocess hstatus hnext hwake hsignals => simp [hsignals] at hlaunch
  | ended hprocess hstatus hnext hwake hsignals => exact absurd hsignals hquiet
  | launched hprocess hstatus hnext hwake hsignals =>
    exact ⟨hsignals info hlaunch, hnext, by rw [due, hstatus, hwake, hclock]; rfl⟩

/-- A process that is started goes on at once. -/
lemma owes_of_launch {a : Actuator σ} {s : Session σ} (h : s.Timely) {happening : Happening}
    (hpermits : s.Permits happening) {info : ProcessInfo}
    (hlaunch : .event (.processStarted info) ∈ (s.happen a happening).signals) :
    (s.happen a happening).session.Owes info.pid s.clock := by
  have hpass : ∀ nanos, happening ≠ .pass nanos := by
    rintro nanos rfl
    exact absurd hlaunch List.not_mem_nil
  have hnone : (s.happen a happening).value.bind Turn.outcome? = none := by
    refine Option.not_isSome_iff_eq_none.1 fun hsome => ?_
    obtain ⟨timerFirst, rfl⟩ := exists_turn_of_outcome hsome
    obtain ⟨-, -, -, hsignals⟩ := (turned_turn a timerFirst s).executes h hsome
    exact absurd (hsignals _ hlaunch) (by simp [Signal.isStart])
  obtain ⟨hpaced, hclock⟩ := paced_happen a h.restful hpass hnone
  obtain ⟨hpid, hnext, hdue⟩ := hpaced.launch hclock hlaunch
  exact ⟨(h.happen hpermits).1, by rw [hpid, hnext]; exact Nat.lt_succ_self _, fun _ => hdue⟩

/-- **Histories** keep a session timely if time passes only when it may. -/
lemma Timely.afterAll (a : Actuator σ) (hs : List Happening) : ∀ {s : Session σ},
    s.Timely → s.Punctual a hs → (s.afterAll a hs).Timely := by
  induction hs with
  | nil => exact fun h _ => h
  | cons first hs ih => exact fun h hpunctual => ih (h.happen hpunctual.1).1 hpunctual.2

/-- After a process was started it goes on as much later as it has waited and was paused. -/
lemma owes_of_history (a : Actuator σ) {s : Session σ} (h : s.Timely) {hs : List Happening}
    (hpunctual : s.Punctual a hs) {before between : List (Incident σ)} {launch : Incident σ}
    (hhistory : s.history a hs = before ++ launch :: between) {info : ProcessInfo}
    (hlaunch : .event (.processStarted info) ∈ launch.signals) :
    (s.afterAll a hs).Owes info.pid (launch.before.clock +
      (between.map (Incident.waited info.pid)).sum +
        (between.map (Incident.paused info.pid)).sum) := by
  obtain ⟨hs₁, hs₂, rfl, -, hfrom⟩ := exists_of_history_eq_append a before _ hhistory
  cases hs₂ with
  | nil => exact absurd hfrom (by simp [history])
  | cons first hs₂ =>
    obtain ⟨rfl, rfl⟩ := List.cons.inj hfrom
    obtain ⟨hpunctual₁, hpermits, hpunctual₂⟩ := (punctual_append a hs₁ _).1 hpunctual
    have howes := owes_of_launch (h.afterAll a hs₁ hpunctual₁) hpermits hlaunch
    rw [afterAll_append]
    exact howes.afterAll a hs₂ hpunctual₂

/-- An instruction is executed as much later than the process was started as it has waited and
was paused. -/
theorem clock_of_executes (a : Actuator σ) {s : Session σ} (h : s.Timely) {hs : List Happening}
    (hpunctual : s.Punctual a hs) {before between after : List (Incident σ)}
    {launch i : Incident σ}
    (hhistory : s.history a hs = before ++ launch :: (between ++ i :: after))
    {info : ProcessInfo} (hlaunch : .event (.processStarted info) ∈ launch.signals)
    (hexecutes : i.Executes info.pid) :
    i.before.clock = launch.before.clock + (between.map (Incident.waited info.pid)).sum +
      (between.map (Incident.paused info.pid)).sum := by
  rw [← List.cons_append, ← List.append_assoc] at hhistory
  obtain ⟨hs₁, hs₂, rfl, hupto, hfrom⟩ := exists_of_history_eq_append a _ _ hhistory
  cases hs₂ with
  | nil => exact absurd hfrom (by simp [history])
  | cons last hs₂ =>
    obtain ⟨rfl, -⟩ := List.cons.inj hfrom
    have hpunctual₁ := ((punctual_append a hs₁ _).1 hpunctual).1
    exact (owes_of_history a h hpunctual₁ hupto hlaunch).clock_of_executes hexecutes

/-- A process that executes an instruction is not paused meanwhile. -/
lemma paused_of_executes {a : Actuator σ} {s : Session σ} {hs : List Happening} {i : Incident σ}
    (hi : i ∈ s.history a hs) {pid : Nat} (hexecutes : i.Executes pid) : i.paused pid = 0 := by
  obtain ⟨hs₁, happening, hs₂, -, rfl⟩ := exists_of_mem_history hi
  obtain ⟨timerFirst, rfl⟩ := exists_turn_of_outcome hexecutes.2
  exact Incident.paused_eq_zero pid (by simp [incident])

/-- From one instruction to the next it takes what the former waits and the time for which the
process is paused. -/
theorem clock_of_executes_next (a : Actuator σ) {s : Session σ} (h : s.Timely)
    {hs : List Happening} (hpunctual : s.Punctual a hs)
    {before earlier between after : List (Incident σ)} {launch j i : Incident σ}
    (hhistory : s.history a hs = before ++ launch :: (earlier ++ j :: (between ++ i :: after)))
    {info : ProcessInfo} (hlaunch : .event (.processStarted info) ∈ launch.signals)
    (hj : j.Executes info.pid) (hbetween : ∀ k ∈ between, ¬ k.Executes info.pid)
    (hi : i.Executes info.pid) :
    i.before.clock = j.before.clock + j.waited info.pid +
      (between.map (Incident.paused info.pid)).sum := by
  have hclock := clock_of_executes a h hpunctual hhistory hlaunch hj
  have hpaused := paused_of_executes (show j ∈ s.history a hs by simp [hhistory]) hj
  have hwaited : (between.map (Incident.waited info.pid)).sum = 0 :=
    List.sum_eq_zero fun n hn => by
      obtain ⟨k, hk, rfl⟩ := List.mem_map.1 hn
      exact Incident.waited_eq_zero (hbetween k hk)
  have hhistory' : s.history a hs =
      before ++ launch :: ((earlier ++ j :: between) ++ i :: after) := by simp [hhistory]
  have hnext := clock_of_executes a h hpunctual hhistory' hlaunch hi
  simp only [List.map_append, List.map_cons, List.sum_append, List.sum_cons] at hnext
  omega

/-- While a process runs it is not past the time at which it goes on. -/
lemma Timely.clock_le_due {s : Session σ} (h : s.Timely) (hs : s.machine.status = .running) :
    s.clock ≤ s.due := by
  unfold due
  rw [hs]
  cases hwake : s.wake with
  | none => exact Nat.le_refl _
  | some deadline => exact h.onTime deadline hwake

/-- A process that runs and is owed to go on now executes its next instruction, unless there is a
request. -/
lemma Owes.executes {s : Session σ} {pid : Nat} (h : s.Owes pid s.clock) (a : Actuator σ)
    (hlives : s.Lives pid) (hs : s.machine.status = .running)
    (hempty : s.receive.isEmpty = true) (timerFirst timerFirst' : Bool) :
    (s.incident a (.turn timerFirst)).Executes pid ∨
      ((s.afterAll a [.turn timerFirst]).incident a (.turn timerFirst')).Executes pid := by
  rcases h.timely.executes_of_due a hs hempty (h.due hlives) timerFirst timerFirst' with
    hsome | ⟨hwoken, hsome⟩
  · exact .inl ⟨hlives, hsome⟩
  · refine .inr ?_
    simp only [Session.afterAll, Session.happen, hwoken]
    exact ⟨hlives, hsome⟩

end Session

/-- **Waits are owed exactly once.** Let time pass only while a session has nothing to do but to
wait, and never beyond the end of a wait in progress. Then a process executes each instruction at
the time at which it was started, and later by all that it has waited before and by all the time
for which it was paused before. From one instruction to the next it takes what the former waits and
the time for which the process is paused in between. While the process runs that time has not
passed, and when it has come the next instruction is executed, unless there is a request. -/
theorem waits_owed_once (a : Actuator σ) (config : MachineConfig) (robot : σ)
    {hs : List Happening} (hpunctual : (Session.start config robot).Punctual a hs)
    {before since : List (Incident σ)} {launch : Incident σ}
    (hhistory : (Session.start config robot).history a hs = before ++ launch :: since)
    {info : ProcessInfo} (hlaunch : .event (.processStarted info) ∈ launch.signals) :
    (∀ (between after : List (Incident σ)) (i : Incident σ),
      since = between ++ i :: after → i.Executes info.pid →
      i.before.clock = launch.before.clock + (between.map (Incident.waited info.pid)).sum +
        (between.map (Incident.paused info.pid)).sum) ∧
    (∀ (earlier between after : List (Incident σ)) (j i : Incident σ),
      since = earlier ++ j :: (between ++ i :: after) → j.Executes info.pid →
        (∀ k ∈ between, ¬ k.Executes info.pid) → i.Executes info.pid →
        i.before.clock = j.before.clock + j.waited info.pid +
          (between.map (Incident.paused info.pid)).sum) ∧
    ∀ (s : Session σ) (time : Nat), s = (Session.start config robot).afterAll a hs →
      time = launch.before.clock + (since.map (Incident.waited info.pid)).sum +
        (since.map (Incident.paused info.pid)).sum →
      s.Lives info.pid → s.machine.status = .running → s.clock ≤ time ∧
        (s.clock = time → s.receive.isEmpty = true → ∀ timerFirst timerFirst',
          (s.incident a (.turn timerFirst)).Executes info.pid ∨
            ((s.afterAll a [.turn timerFirst]).incident a (.turn timerFirst')).Executes
              info.pid) := by
  have htimely := Session.timely_start config robot
  have howes := Session.owes_of_history a htimely hpunctual hhistory hlaunch
  refine ⟨?_, ?_, ?_⟩
  · rintro between after i rfl hi
    exact Session.clock_of_executes a htimely hpunctual hhistory hlaunch hi
  · rintro earlier between after j i rfl hj hbetween hi
    exact Session.clock_of_executes_next a htimely hpunctual hhistory hlaunch hj hbetween hi
  · rintro s time rfl rfl hlives hs
    refine ⟨(howes.timely.clock_le_due hs).trans_eq (howes.due hlives), fun hnow hempty => ?_⟩
    rw [← hnow] at howes
    exact howes.executes a hlives hs hempty

/-- A nap of twenty milliseconds that is interrupted twice, for seven milliseconds and for three:
the first time after five, and the second time at the very moment at which it ends. -/
def interruptedNap : List Happening :=
  [.send (.load (.ofInstructions [.wait 20, .print "Up"])), .turn true, .send .start, .turn true,
    .turn true, .pass (5 * nanosPerMs), .send .pause, .turn true, .pass (7 * nanosPerMs),
    .send .resume, .turn true, .pass (15 * nanosPerMs), .send .toggle, .turn false,
    .pass (3 * nanosPerMs), .send .toggle, .turn true, .turn true, .turn true]

/-- The nap takes its twenty milliseconds, and what follows comes ten milliseconds later. The
history is split at the launch and at the instruction behind the wait, and what was waited and
paused in between is computed. -/
theorem waits_owed_once_interruptedNap :
    (Session.start {} ()).Punctual .still interruptedNap ∧
      ∃ (before between : List (Incident Unit)) (launch i : Incident Unit),
        (Session.start {} ()).history .still interruptedNap =
          before ++ launch :: (between ++ [i]) ∧
        .event (.processStarted ⟨1, 0, .running⟩) ∈ launch.signals ∧ i.Executes 1 ∧
        i.signals = [.event (.print ⟨1, 1, .running⟩ "Up")] ∧
        i.before.clock = 0 + 20 * nanosPerMs + 10 * nanosPerMs := by
  have hpunctual : (Session.start {} ()).Punctual .still interruptedNap := by decide
  let past (n : Nat) := (Session.start {} ()).afterAll .still (interruptedNap.take n)
  let launch := (past 3).incident .still (.turn true)
  let i := (past 18).incident .still (.turn true)
  let between := (past 4).history .still ((interruptedNap.drop 4).take 14)
  have hhistory : (Session.start {} ()).history .still interruptedNap =
      (Session.start {} ()).history .still (interruptedNap.take 3) ++
        launch :: (between ++ [i]) := rfl
  have hlaunch : .event (.processStarted ⟨1, 0, .running⟩) ∈ launch.signals := by decide
  have hexecutes : i.Executes 1 := by decide
  obtain ⟨hclock, -⟩ := waits_owed_once .still {} () hpunctual hhistory hlaunch
  have hwaited : (between.map (Incident.waited 1)).sum = 20 * nanosPerMs := by decide
  have hpaused : (between.map (Incident.paused 1)).sum = 10 * nanosPerMs := by decide
  refine ⟨hpunctual, _, _, launch, i, hhistory, hlaunch, hexecutes, by decide, ?_⟩
  rw [hclock between [] i rfl hexecutes, hwaited, hpaused]
  rfl

end StickerBot
