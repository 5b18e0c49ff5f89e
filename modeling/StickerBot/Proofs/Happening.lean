import StickerBot.Proofs.LifeCycle
import StickerBot.Session.Run
set_option autoImplicit false

/-!
# What can happen to a session

Handles send requests and come and go, the sensor is tapped, time passes, and the session takes its
turns: all this can happen in any order. To its machine a session does nothing but operations, and
which these are can be told from the requests that it serves and the instructions that it
executes.

## Main definitions

* `Happening`, `Session.happen` — all that can happen to a session.
* `Incident`, `Session.history`, `Session.afterAll` — what has happened to a session, one after the
  other, and the session after that.
* `Session.operations`, `Incident.operations` — what is done to the machine.
* `Session.Turned` — all that a turn can come to.

## Main results

* `Session.turned_turn` — what a turn can come to.
* `Session.handle_operations` — a command is one operation of the machine, or none.
* `Session.afterAll_operations` — a session does nothing to its machine but operations.
-/

namespace StickerBot

variable {σ : Type}

/-! ### Operations one after the other -/

namespace Machine

/-- Operations in a row are the first ones and, on the machine that they leave, the others. -/
lemma operateAll_append (a : Actuator σ) (ops ops' : List Operation) : ∀ m : Machine σ,
    m.operateAll a (ops ++ ops') = (m.operateAll a ops).operateAll a ops' := by
  induction ops with
  | nil => exact fun _ => rfl
  | cons op ops ih => exact fun m => ih _

/-- What is seen of operations in a row is what is seen of the first ones, and then what is seen of
the others on the machine that they leave. -/
lemma seen_append (a : Actuator σ) (ops ops' : List Operation) : ∀ m : Machine σ,
    m.seen a (ops ++ ops') = m.seen a ops ++ (m.operateAll a ops).seen a ops' := by
  induction ops with
  | nil => exact fun _ => rfl
  | cons op ops ih =>
    intro m
    have hrest := ih (m.operate a op).machine
    unfold seen at hrest ⊢
    rw [List.cons_append, record, record, List.flatMap_cons, List.flatMap_cons, hrest,
      List.append_assoc]
    rfl

/-- What is seen of a single operation are its signals. -/
lemma seen_singleton (a : Actuator σ) (m : Machine σ) (op : Operation) :
    m.seen a [op] = (m.operate a op).signals :=
  List.append_nil _

/-- A machine stays orderly. -/
lemma Orderly.operateAll {a : Actuator σ} (ops : List Operation) : ∀ {m : Machine σ},
    m.Orderly → (m.operateAll a ops).Orderly := by
  induction ops with
  | nil => exact fun h => h
  | cons op ops ih => exact fun h => ih (operate_spec h op).orderly

end Machine

/-! ### Commands -/

/-- Whether a command ends the session. -/
def Command.isShutdown : Command → Bool
  | .shutdown => true
  | _ => false

/-- The refusal of a request that is not served. -/
def Request.refusal (r : Request) : Nat × Reply := (r.ticket, .refused .channelClosed)

/-- The instruction of a turn, by its outcome. -/
def Turn.outcome? : Turn → Option StepOutcome
  | .executed outcome | .yielded outcome => some outcome
  | _ => none

/-- The milliseconds that a step has to be waited for. -/
def StepOutcome.wait? : StepOutcome → Option Nat
  | .wait ms => some ms
  | _ => none

namespace Session

/-- The rest of the wait in progress. -/
def remaining (s : Session σ) : Option Nat := s.wake.map fun deadline => deadline - s.clock

/-- **Operations** that a command does to the machine. -/
def operations (s : Session σ) : Command → List Operation
  | .load p => [.load p]
  | .start => [.start]
  | .restart => [.restart]
  | .pause => [.pause s.remaining]
  | .resume => [.resume]
  | .stop => [.stop]
  | .clear => [.clear]
  | .toggle =>
    match s.machine.status with
    | .running => [.pause s.remaining]
    | .paused => [.resume]
    | .stopped => [.restart]
  | .connect address => [.connect address]
  | .snapshot => []
  | .shutdown => [.shutdown]

/-- **Alike.** Two sessions with the same requests and answers, at the same time. They may differ in
their machine, in what is published and in the wait in progress. -/
structure Alike (s s' : Session σ) : Prop where
  clock : s'.clock = s.clock
  handles : s'.handles = s.handles
  sent : s'.sent = s.sent
  mailbox : s'.mailbox = s.mailbox
  answers : s'.answers = s.answers
  hasEnded : s'.hasEnded = s.hasEnded

/-- **A command** changes the machine, what is published and the wait in progress, and nothing else.
Pausing and resuming are refused or granted, and toggling is one of three commands; in all cases the
requests, the handles and the clock stay what they were. -/
lemma handle_alike (a : Actuator σ) (s : Session σ) (c : Command) :
    s.Alike (s.handle a c).session := by
  have hpause : s.Alike s.pause.session := by
    unfold pause
    dsimp only
    split <;> exact ⟨rfl, rfl, rfl, rfl, rfl, rfl⟩
  have hresume : s.Alike s.resume.session := by
    unfold resume
    dsimp only
    split <;> exact ⟨rfl, rfl, rfl, rfl, rfl, rfl⟩
  cases c with
  | pause => exact hpause
  | resume => exact hresume
  | toggle =>
    unfold handle toggle
    cases s.machine.status with
    | running => exact hpause
    | paused => exact hresume
    | stopped => exact ⟨rfl, rfl, rfl, rfl, rfl, rfl⟩
  | _ => exact ⟨rfl, rfl, rfl, rfl, rfl, rfl⟩

/-- **A command** is one operation of the machine, or none. Toggling is the one that fits the
status: a pause, a resume or a restart. A snapshot is no operation at all, since it only copies what
is there. -/
theorem handle_operations (a : Actuator σ) (s : Session σ) (c : Command) :
    (s.handle a c).session.machine = s.machine.operateAll a (s.operations c) ∧
      (s.handle a c).signals = s.machine.seen a (s.operations c) := by
  have hpause : s.pause.session.machine = s.machine.operateAll a [.pause s.remaining] ∧
      s.pause.signals = s.machine.seen a [.pause s.remaining] := by
    rw [Machine.seen_singleton]
    unfold pause
    dsimp only
    split <;> exact ⟨rfl, rfl⟩
  have hresume : s.resume.session.machine = s.machine.operateAll a [.resume] ∧
      s.resume.signals = s.machine.seen a [.resume] := by
    rw [Machine.seen_singleton]
    unfold resume
    dsimp only
    split <;> exact ⟨rfl, rfl⟩
  cases c with
  | pause => exact hpause
  | resume => exact hresume
  | toggle =>
    unfold handle toggle operations
    cases s.machine.status with
    | running => exact hpause
    | paused => exact hresume
    | stopped => exact ⟨rfl, (Machine.seen_singleton a s.machine .restart).symm⟩
  | snapshot => exact ⟨rfl, rfl⟩
  | _ =>
    simp only [operations, Machine.seen_singleton]
    exact ⟨rfl, rfl⟩

/-- The status is published after a command, if it has changed. Only a snapshot does not publish,
and it leaves the status as it was. The others publish what they have made of the machine, whether
it has changed or not. -/
lemma handle_published (a : Actuator σ) (s : Session σ) (c : Command)
    (h : s.published = s.machine.status) :
    (s.handle a c).session.published = (s.handle a c).session.machine.status := by
  have hpause : s.pause.session.published = s.pause.session.machine.status := by
    unfold pause
    dsimp only
    split <;> rfl
  have hresume : s.resume.session.published = s.resume.session.machine.status := by
    unfold resume
    dsimp only
    split <;> rfl
  cases c with
  | pause => exact hpause
  | resume => exact hresume
  | toggle =>
    unfold handle toggle
    cases s.machine.status with
    | running => exact hpause
    | paused => exact hresume
    | stopped => rfl
  | snapshot => exact h
  | _ => rfl

/-! ### Turns -/

/-- Refusing requests answers them one after the other. -/
lemma refuseAll_eq (requests : List Request) : ∀ s : Session σ,
    s.refuseAll requests =
      { s with answers := (requests.map Request.refusal).reverse ++ s.answers } := by
  induction requests with
  | nil => exact fun _ => rfl
  | cons r requests ih =>
    intro s
    rw [refuseAll, List.foldl_cons]
    refine (ih _).trans ?_
    simp [answer, Request.refusal]

/-- A session after it has ended. -/
lemma finish_session (a : Actuator σ) (s : Session σ) : (s.finish a).session =
    { s with
      machine := (s.machine.shutdown a).machine
      published := (s.machine.shutdown a).machine.status
      wake := none
      mailbox := []
      answers := (s.mailbox.map Request.refusal).reverse ++ s.answers
      hasEnded := true } := by
  unfold finish
  dsimp only
  rw [refuseAll_eq]
  rfl

/-- **Turns.** All that a turn of a session can come to. -/
inductive Turned (a : Actuator σ) (s : Session σ) : SessionEffect σ Turn → Prop where
  /-- The session has ended before. -/
  | past (h : s.hasEnded = true) : Turned a s ⟨.ended, s, []⟩
  /-- There is no request, and no process runs or it sleeps. -/
  | blocked (hopen : s.hasEnded = false) (hmail : s.mailbox = []) (hhandles : s.handles ≠ 0)
    (hsleeps : s.machine.status = .running → ∃ deadline, s.wake = some deadline ∧
      s.clock < deadline) : Turned a s ⟨.blocked, s, []⟩
  /-- A wait is over. -/
  | woken (hopen : s.hasEnded = false) (hs : s.machine.status = .running) {deadline : Nat}
    (hwake : s.wake = some deadline) (hover : deadline ≤ s.clock) :
    Turned a s ⟨.woken, s.wakeUp, []⟩
  /-- The first request is served. -/
  | served (hopen : s.hasEnded = false) {r : Request} {rest : List Request}
    (hmail : s.mailbox = r :: rest) (hr : r.command.isShutdown = false)
    {e : SessionEffect σ Reply} (he : { s with mailbox := rest }.handle a r.command = e) :
    Turned a s ⟨.served r e.value, e.session.answer r.ticket e.value, e.signals⟩
  /-- The first request is a shutdown. -/
  | shutdown (hopen : s.hasEnded = false) {r : Request} {rest : List Request}
    (hmail : s.mailbox = r :: rest) (hr : r.command = .shutdown)
    {e : SessionEffect σ Reply} (he : { s with mailbox := rest }.handle a .shutdown = e) :
    Turned a s ⟨.served r e.value, ((e.session.answer r.ticket e.value).finish a).session,
      e.signals ++ ((e.session.answer r.ticket e.value).finish a).signals⟩
  /-- There is no request and no wait, and an instruction is executed. -/
  | executed (hopen : s.hasEnded = false) (hmail : s.mailbox = []) (hhandles : s.handles ≠ 0)
    (hs : s.machine.status = .running) (hwake : s.wake = none) {e : Effect σ StepOutcome}
    (he : s.machine.step a = e) {turn : Turn} (hturn : turn.outcome? = some e.value)
    (sinceYield : Nat) : Turned a s ⟨turn, { s with
      machine := e.machine
      published := e.machine.status
      wake := (StepOutcome.wait? e.value).map fun ms => s.clock + ms * nanosPerMs
      sinceYield := sinceYield }, e.signals⟩
  /-- There is no request, and nobody to send any. -/
  | closed (hopen : s.hasEnded = false) (hmail : s.mailbox = []) (hhandles : s.handles = 0) :
    Turned a s (s.finish a)

/-- Requests are served, and the last handle ends the session. This is what a turn comes to when no
timer fires and no instruction is executed. A session with handles and without requests waits, and
then it must be asleep for a reason. -/
lemma turned_attend (a : Actuator σ) {s : Session σ} (hopen : s.hasEnded = false)
    (hsleeps : s.receive.isEmpty = true → s.machine.status = .running →
      ∃ deadline, s.wake = some deadline ∧ s.clock < deadline) : Turned a s (s.attend a) := by
  unfold attend
  unfold receive at hsleeps ⊢
  cases hmail : s.mailbox with
  | nil =>
    rw [hmail] at hsleeps
    by_cases hhandles : s.handles = 0
    · simp only [hhandles, if_true]
      exact .closed hopen hmail hhandles
    · simp only [hhandles, if_false] at hsleeps ⊢
      exact .blocked hopen hmail hhandles (hsleeps rfl)
  | cons r rest =>
    dsimp only
    unfold serve
    cases hr : r.command with
    | shutdown => exact .shutdown hopen hmail hr rfl
    | _ => exact .served hopen hmail (by rw [hr]; rfl) (by rw [hr])

/-- **One turn** comes to one of these.

**Proof sketch.** The cases are those of the turn: an ended session, a process that does not run, a
timer that fires, a deadline that is still to come, and an instruction that is executed when nothing
else asks for attention. -/
theorem turned_turn (a : Actuator σ) (timerFirst : Bool) (s : Session σ) :
    Turned a s (s.turn a timerFirst) := by
  unfold turn
  cases hopen : s.hasEnded with
  | true => exact .past hopen
  | false =>
    rw [if_neg (by simp)]
    by_cases hs : s.machine.status = .running
    · rw [if_neg (by simpa using hs)]
      cases hwake : s.wake with
      | some deadline =>
        dsimp only
        split
        · rename_i h
          exact .woken hopen hs hwake h.1
        · rename_i h
          refine turned_attend a hopen fun hempty _ => ⟨deadline, hwake, ?_⟩
          exact Nat.lt_of_not_le fun hover => h ⟨hover, .inr hempty⟩
      | none =>
        dsimp only
        split
        · rename_i hempty
          have hboth : s.mailbox = [] ∧ s.handles ≠ 0 := by
            unfold receive at hempty
            split at hempty
            · exact absurd hempty (by simp [Received.isEmpty])
            · split at hempty
              · exact absurd hempty (by simp [Received.isEmpty])
              · exact ⟨by assumption, by assumption⟩
          have hafter : s.wakeAfter (s.machine.step a).value =
              (StepOutcome.wait? (s.machine.step a).value).map
                fun ms => s.clock + ms * nanosPerMs := by
            unfold wakeAfter
            rw [hwake]
            cases (s.machine.step a).value <;> rfl
          unfold advance
          dsimp only
          rw [hafter]
          split
          · exact .executed hopen hboth.1 hboth.2 hs hwake rfl rfl 0
          · exact .executed hopen hboth.1 hboth.2 hs hwake rfl rfl (s.sinceYield + 1)
        · rename_i hempty
          exact turned_attend a hopen fun h => absurd h hempty
    · rw [if_pos hs]
      exact turned_attend a hopen fun _ h => absurd h hs

end Session

/-! ### Happenings -/

/-- **Happenings.** What can happen to a session, at any time and in any order. -/
inductive Happening where
  /-- A handle sends a request. -/
  | send (c : Command)
  /-- A handle is copied. -/
  | addHandle
  /-- A handle is dropped. -/
  | dropHandle
  /-- The sensor is tapped. -/
  | tap
  /-- Time passes. -/
  | pass (nanos : Nat)
  /-- The session takes a turn. -/
  | turn (timerFirst : Bool)

/-- Whether the session takes a turn. -/
def Happening.isTurn : Happening → Bool
  | .turn _ => true
  | _ => false

/-- **Incidents.** Something that has happened to a session, the session before, and what it came
to. -/
structure Incident (σ : Type) where
  before : Session σ
  happening : Happening
  turn : Option Turn
  signals : List Signal

namespace Session

/-- **Happening.** A turn has its outcome. Without handles there is nobody to send a request or to
copy a handle. -/
def happen (a : Actuator σ) (s : Session σ) : Happening → SessionEffect σ (Option Turn)
  | .send c => ⟨none, if s.handles = 0 then s else s.send c, []⟩
  | .addHandle => ⟨none, if s.handles = 0 then s else s.addHandle, []⟩
  | .dropHandle => ⟨none, s.dropHandle, []⟩
  | .tap => ⟨none, s.raise, []⟩
  | .pass nanos => ⟨none, s.pass nanos, []⟩
  | .turn timerFirst =>
    let e := s.turn a timerFirst
    ⟨some e.value, e.session, e.signals⟩

/-- What has happened. -/
def incident (a : Actuator σ) (s : Session σ) (h : Happening) : Incident σ :=
  ⟨s, h, (s.happen a h).value, (s.happen a h).signals⟩

/-- **The history** of a session to which things happen one after the other. -/
def history (a : Actuator σ) (s : Session σ) : List Happening → List (Incident σ)
  | [] => []
  | h :: hs => s.incident a h :: history a (s.happen a h).session hs

/-- The session after things have happened to it. -/
def afterAll (a : Actuator σ) (s : Session σ) : List Happening → Session σ
  | [] => s
  | h :: hs => afterAll a (s.happen a h).session hs

/-- A history in two parts: the second part starts from the session that the first part leaves. -/
lemma afterAll_append (a : Actuator σ) (hs hs' : List Happening) : ∀ s : Session σ,
    s.afterAll a (hs ++ hs') = (s.afterAll a hs).afterAll a hs' := by
  induction hs with
  | nil => exact fun _ => rfl
  | cons h hs ih => exact fun s => ih _

/-- The incidents of a history in two parts are those of the first part, and then those of the
second part from the session that the first part leaves. -/
lemma history_append (a : Actuator σ) (hs hs' : List Happening) : ∀ s : Session σ,
    s.history a (hs ++ hs') = s.history a hs ++ (s.afterAll a hs).history a hs' := by
  induction hs with
  | nil => exact fun _ => rfl
  | cons h hs ih => exact fun s => congrArg _ (ih _)

/-- A part of a history is a history: of what has happened up to there, and from there on. -/
lemma exists_of_history_eq_append (a : Actuator σ) (before after : List (Incident σ)) :
    ∀ {s : Session σ} {hs : List Happening}, s.history a hs = before ++ after →
      ∃ hs₁ hs₂, hs = hs₁ ++ hs₂ ∧ s.history a hs₁ = before ∧
        (s.afterAll a hs₁).history a hs₂ = after := by
  induction before with
  | nil => exact fun {s hs} h => ⟨[], hs, rfl, rfl, h⟩
  | cons i before ih =>
    intro s hs h
    cases hs with
    | nil => exact absurd h (by simp [history])
    | cons first hs =>
      obtain ⟨hfirst, hrest⟩ := List.cons.inj h
      obtain ⟨hs₁, hs₂, rfl, hbefore, hafter⟩ := ih hrest
      exact ⟨first :: hs₁, hs₂, rfl, by rw [history, hfirst, hbefore], hafter⟩

/-- An incident of a history is that of something that has happened after other things. -/
lemma exists_of_mem_history {a : Actuator σ} {s : Session σ} {hs : List Happening}
    {i : Incident σ} (h : i ∈ s.history a hs) :
    ∃ hs₁ happening hs₂, hs = hs₁ ++ happening :: hs₂ ∧
      i = (s.afterAll a hs₁).incident a happening := by
  obtain ⟨before, after, heq⟩ := List.append_of_mem h
  obtain ⟨hs₁, hs₂, rfl, -, hafter⟩ := exists_of_history_eq_append a before _ heq
  cases hs₂ with
  | nil => exact absurd hafter (by simp [history])
  | cons happening hs₂ => exact ⟨hs₁, happening, hs₂, rfl, (List.cons.inj hafter).1.symm⟩

end Session

/-! ### Operations of a history -/

namespace Session

/-- **Operations** that a turn does to the machine. -/
def turnOperations (s : Session σ) : Turn → List Operation
  | .served r _ => s.operations r.command ++ if r.command.isShutdown then [.shutdown] else []
  | .executed _ | .yielded _ => [.step]
  | .ended => if s.hasEnded then [] else [.shutdown]
  | .woken | .blocked => []

/-- **Turns** do nothing to the machine but operations. One case for each outcome of a turn. A
shutdown that is served and the last handle that is dropped both shut the machine down when the
session finishes. -/
theorem Turned.operations {a : Actuator σ} {s : Session σ} {e : SessionEffect σ Turn}
    (h : s.Turned a e) : e.session.machine = s.machine.operateAll a (s.turnOperations e.value) ∧
      e.signals = s.machine.seen a (s.turnOperations e.value) := by
  cases h with
  | past h =>
    rw [turnOperations, if_pos h]
    exact ⟨rfl, rfl⟩
  | blocked hopen hmail hhandles hsleeps => exact ⟨rfl, rfl⟩
  | woken hopen hs hwake hover => exact ⟨rfl, rfl⟩
  | @served hopen r rest hmail hr e he =>
    have hoperations := handle_operations a { s with mailbox := rest } r.command
    rw [he] at hoperations
    rw [turnOperations, if_neg (by simp [hr]), List.append_nil]
    exact hoperations
  | @shutdown hopen r rest hmail hr e he =>
    obtain ⟨hmachine, hsignals⟩ := handle_operations a { s with mailbox := rest } .shutdown
    rw [he] at hmachine hsignals
    have hshutdown : s.turnOperations (.served r e.value) =
        s.operations .shutdown ++ [.shutdown] := by
      rw [turnOperations, hr]
      rfl
    rw [hshutdown, Machine.operateAll_append, Machine.seen_append, Machine.seen_singleton,
      finish_session]
    change (e.session.machine.shutdown a).machine = _ ∧
      e.signals ++ (e.session.machine.shutdown a).signals = _
    rw [hmachine, hsignals]
    exact ⟨rfl, rfl⟩
  | @executed hopen hmail hhandles hs hwake e he turn hturn sinceYield =>
    have hstep : s.turnOperations turn = [.step] := by
      cases turn <;> first | rfl | exact absurd hturn (by simp [Turn.outcome?])
    subst he
    dsimp only
    rw [hstep, Machine.seen_singleton]
    exact ⟨rfl, rfl⟩
  | closed hopen hmail hhandles =>
    have hshutdown : s.turnOperations (s.finish a).value = [.shutdown] :=
      if_neg (by simp [hopen])
    rw [hshutdown, Machine.seen_singleton, finish_session]
    exact ⟨rfl, rfl⟩

end Session

/-- **Operations** that were done to the machine when something has happened. -/
def Incident.operations (i : Incident σ) : List Operation :=
  match i.happening, i.turn with
  | .tap, _ => [.tap]
  | _, some turn => i.before.turnOperations turn
  | _, none => []

namespace Session

/-- **Happenings** do nothing to the machine but operations. Only a turn does anything to it but a
tap: sending, handles and time are matters of the session. -/
theorem happen_operations (a : Actuator σ) (s : Session σ) (h : Happening) :
    (s.happen a h).session.machine = s.machine.operateAll a (s.incident a h).operations ∧
      (s.happen a h).signals = s.machine.seen a (s.incident a h).operations := by
  cases h with
  | send c =>
    refine ⟨?_, rfl⟩
    simp only [happen, send, answer]
    split
    · rfl
    · split <;> rfl
  | addHandle =>
    refine ⟨?_, rfl⟩
    simp only [happen, addHandle]
    split <;> rfl
  | turn timerFirst => exact (turned_turn a timerFirst s).operations
  | _ => exact ⟨rfl, rfl⟩

/-- **Histories.** A session does nothing to its machine but operations, and what is seen of it is
what is seen of these. -/
theorem afterAll_operations (a : Actuator σ) (hs : List Happening) : ∀ s : Session σ,
    (s.afterAll a hs).machine =
        s.machine.operateAll a ((s.history a hs).flatMap Incident.operations) ∧
      (s.history a hs).flatMap Incident.signals =
        s.machine.seen a ((s.history a hs).flatMap Incident.operations) := by
  induction hs with
  | nil => exact fun _ => ⟨rfl, rfl⟩
  | cons h hs ih =>
    intro s
    obtain ⟨hmachine, hsignals⟩ := s.happen_operations a h
    obtain ⟨hmachines, hall⟩ := ih (s.happen a h).session
    rw [history, List.flatMap_cons, List.flatMap_cons, Machine.operateAll_append,
      Machine.seen_append, ← hmachine, ← hsignals, ← hmachines, ← hall]
    exact ⟨rfl, rfl⟩

/-! ### Consistency -/

/-- **Consistent.** There is a process exactly if the machine is not stopped, its status is
published, and no process outlives the session. -/
structure Consistent (s : Session σ) : Prop where
  orderly : s.machine.Orderly
  published : s.published = s.machine.status
  ended : s.hasEnded = true → s.machine.process = none

/-- A new session is consistent: its machine is stopped and has no process, and this is the status
that it publishes. -/
lemma consistent_start (config : MachineConfig) (robot : σ) : (start config robot).Consistent :=
  ⟨rfl, rfl, fun _ => rfl⟩

/-- Shutting a machine down ends its process. -/
lemma process_shutdown (a : Actuator σ) {m : Machine σ} (h : m.Orderly) :
    (m.shutdown a).machine.process = none := by
  have hstop := (Machine.leads_stop (a := a) h).2
  unfold Machine.shutdown
  dsimp only
  split <;> exact hstop

/-- A session that has ended is stopped, and so it is published. -/
lemma Consistent.stopped {s : Session σ} (h : s.Consistent) (hended : s.hasEnded = true) :
    s.machine.process = none ∧ s.machine.status = .stopped ∧ s.published = .stopped := by
  have hnone := h.ended hended
  have hs : s.machine.status = .stopped := by
    have horderly := h.orderly
    simpa only [Machine.Orderly, hnone] using horderly
  exact ⟨hnone, hs, h.published.trans hs⟩

/-- **Turns** keep a session consistent. The machine stays orderly because turns are operations
of it. A session ends only by finishing, which shuts the machine down, so that no process
outlives it. -/
lemma Consistent.turned {a : Actuator σ} {s : Session σ} {e : SessionEffect σ Turn}
    (h : s.Consistent) (he : s.Turned a e) : e.session.Consistent := by
  have horderly : e.session.machine.Orderly := by
    rw [he.operations.1]
    exact h.orderly.operateAll _
  have hcontinues : s.hasEnded = false → e.session.hasEnded = s.hasEnded →
      e.session.hasEnded = true → e.session.machine.process = none := fun hopen hsame hended =>
    absurd (hopen.symm.trans (hsame.symm.trans hended)) (by simp)
  cases he with
  | past hended => exact h
  | blocked hopen hmail hhandles hsleeps => exact h
  | woken hopen hs hwake hover => exact ⟨horderly, h.published, hcontinues hopen rfl⟩
  | @served hopen r rest hmail hr e he =>
    have halike := handle_alike a { s with mailbox := rest } r.command
    have hpublished := handle_published a { s with mailbox := rest } r.command h.published
    rw [he] at halike hpublished
    exact ⟨horderly, hpublished, hcontinues hopen halike.hasEnded⟩
  | @shutdown hopen r rest hmail hr e he =>
    have hmachine := (handle_operations a { s with mailbox := rest } .shutdown).1
    rw [he] at hmachine
    have horderly' : e.session.machine.Orderly := by
      rw [hmachine]
      exact h.orderly.operateAll _
    dsimp only at horderly ⊢
    rw [finish_session] at horderly ⊢
    exact ⟨horderly, rfl, fun _ => process_shutdown a horderly'⟩
  | executed hopen hmail hhandles hs hwake he hturn sinceYield =>
    exact ⟨horderly, rfl, hcontinues hopen rfl⟩
  | closed hopen hmail hhandles =>
    rw [finish_session] at horderly ⊢
    exact ⟨horderly, rfl, fun _ => process_shutdown a h.orderly⟩

/-- **Happenings** keep a session consistent. -/
theorem Consistent.happen {s : Session σ} (h : s.Consistent) (a : Actuator σ)
    (happening : Happening) : (s.happen a happening).session.Consistent := by
  cases happening with
  | send c =>
    simp only [Session.happen, send, answer]
    split
    · exact h
    · split <;> exact ⟨h.orderly, h.published, h.ended⟩
  | addHandle =>
    simp only [Session.happen]
    split <;> exact ⟨h.orderly, h.published, h.ended⟩
  | turn timerFirst => exact h.turned (turned_turn a timerFirst s)
  | _ => exact ⟨h.orderly, h.published, h.ended⟩

/-- **Histories** keep a session consistent. -/
theorem Consistent.afterAll (a : Actuator σ) (hs : List Happening) : ∀ {s : Session σ},
    s.Consistent → (s.afterAll a hs).Consistent := by
  induction hs with
  | nil => exact fun h => h
  | cons first hs ih => exact fun h => ih (h.happen a first)

end Session

end StickerBot
