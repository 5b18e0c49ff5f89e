import StickerBot.Proofs.Delivery
import StickerBot.Proofs.Owing
set_option autoImplicit false

/-!
# What is refused goes unnoticed

A command that is refused changes nothing: not the machine, nor what is published, nor the wait in
progress. Some commands end the wait in progress before they find that there is no program; but
where there is no program no process runs, and where none runs there is no wait. So whatever else
happens to a session, it goes as if the command had never been sent.

## Main definitions

* `Answer`, `Machine.reply` — what a machine answers to an operation.
* `Machine.refusal?`, `Session.refusal?` — why an operation or a command is refused, if it is.
* `Session.Without` — a session, and what it is without one of its requests.
* `Incident.face` — what others see of an incident.
* `Session.RefusesQuietly` — what is promised of commands that are refused.

## Main results

* `Machine.operate_of_refusal` — an operation that is refused does nothing.
* `Session.Restful.happen` — whatever happens, there is no wait in progress without a process.
* `Session.Restful.handle_of_refusal` — a command that is refused does nothing.
* `Session.Without.happen`, `Session.Without.afterAll` — a request that is not served makes no
  difference.
* `session_refuses_quietly` — commands that are refused go unnoticed.

## Design

To see that a request goes unnoticed, a session is compared with another to which everything has
happened but this request. The second gives other tickets to the requests behind it, so sessions
and turns are compared without tickets. Until the request is served the sessions differ by it, and
then by nothing.
-/

namespace StickerBot

variable {σ : Type}

/-! ### What a machine refuses -/

/-- **Answers** of a machine. -/
inductive Answer where
  | done
  /-- A pause is over, and the rest of the wait that it has cut short is handed back. -/
  | owed (rest : Option Nat)
  /-- What a step came to. -/
  | stepped (outcome : StepOutcome)
  /-- A copy of the process. -/
  | copied (copy : Option ProcessSnapshot)
  | refused (error : CommandError)
deriving DecidableEq

/-- The answer to an operation that answers a value. -/
def Answer.ofResult {α : Type} (answer : α → Answer) : Except CommandError α → Answer
  | .ok a => answer a
  | .error e => .refused e

namespace Machine

/-- **Answering.** What a machine answers to an operation. -/
def reply (a : Actuator σ) (m : Machine σ) : Operation → Answer
  | .loadListing text => .ofResult (fun _ => .done) (m.loadListing a text).value
  | .start => .ofResult (fun _ => .done) (m.startProcess a).value
  | .restart => .ofResult (fun _ => .done) (m.restart a).value
  | .pause remaining => .ofResult (fun _ => .done) (m.pause remaining).value
  | .resume => .ofResult .owed m.resume.value
  | .step => .stepped (m.step a).value
  | .load _ | .stop | .clear | .connect _ | .shutdown | .tap => .done

/-- **Refusals.** Why an operation is refused, if it is: a listing that does not assemble, a command
that does not fit the status, or one that needs a program where there is none. -/
def refusal? (m : Machine σ) : Operation → Option CommandError
  | .loadListing text =>
    match Listing.parseProgram text with
    | .error rejected => some (.listing rejected)
    | .ok _ => none
  | .start =>
    if m.status ≠ .stopped then some (m.refuse "start")
    else if m.program.isNone then some .noProgram
    else none
  | .restart => if m.program.isNone then some .noProgram else none
  | .pause _ => if m.status ≠ .running then some (m.refuse "pause") else none
  | .resume => if m.status ≠ .paused then some (m.refuse "resume") else none
  | .load _ | .stop | .clear | .connect _ | .shutdown | .step | .tap => none

/-- **Refusable.** An operation that is refused does nothing but answer so, and one that is not
refused answers something else. -/
inductive Refusable {α : Type} (m : Machine σ) (op : Operation)
    (e : Effect σ (Except CommandError α)) : Prop where
  | refused (error : CommandError) (h : m.refusal? op = some error)
    (he : e = m.answer (.error error))
  | accepted (h : m.refusal? op = none) {v : α} (he : e.value = .ok v)

section Refusal

variable (a : Actuator σ) (m : Machine σ)

/-- A listing is refused exactly if it does not assemble, with what the assembler reports. -/
lemma refusable_loadListing (text : String) :
    m.Refusable (.loadListing text) (m.loadListing a text) := by
  cases h : Listing.parseProgram text with
  | error rejected =>
    exact .refused (.listing rejected) (by simp [refusal?, h]) (by simp [loadListing, h])
  | ok p => exact .accepted (v := ()) (by simp [refusal?, h]) (by simp [loadListing, h])

/-- A start is refused while there is a process, and after that if there is no program. -/
lemma refusable_start : m.Refusable .start (m.startProcess a) := by
  by_cases hs : m.status = .stopped
  · by_cases hp : m.program = none
    · exact .refused .noProgram (by simp [refusal?, hs, hp]) (by simp [startProcess, hs, hp])
    · exact .accepted (v := ()) (by simp [refusal?, hs, hp]) (by simp [startProcess, hs, hp])
  · exact .refused (m.refuse "start") (by simp [refusal?, hs]) (by simp [startProcess, hs])

/-- A restart is refused only if there is no program, whatever the status is. -/
lemma refusable_restart : m.Refusable .restart (m.restart a) := by
  by_cases hp : m.program = none
  · exact .refused .noProgram (by simp [refusal?, hp]) (by simp [restart, hp])
  · exact .accepted (v := ()) (by simp [refusal?, hp]) (by simp [restart, hp])

/-- A pause is refused unless the process is running. -/
lemma refusable_pause (remaining : Option Nat) :
    m.Refusable (.pause remaining) (m.pause remaining) := by
  by_cases hs : m.status = .running
  · exact .accepted (v := ()) (by simp [refusal?, hs]) (by simp [pause, hs])
  · exact .refused (m.refuse "pause") (by simp [refusal?, hs]) (by simp [pause, hs])

/-- A resume is refused unless the process is paused. -/
lemma refusable_resume : m.Refusable .resume m.resume := by
  by_cases hs : m.status = .paused
  · exact .accepted (by simp [refusal?, hs]) (by simp only [resume, hs]; rfl)
  · exact .refused (m.refuse "resume") (by simp [refusal?, hs]) (by simp [resume, hs])

/-- What follows of an operation that may be refused, for its answer and its effect. -/
lemma Refusable.spec {α : Type} {m : Machine σ} {op : Operation}
    {e : Effect σ (Except CommandError α)} (h : m.Refusable op e) {answer : α → Answer}
    (hanswer : ∀ v error, answer v ≠ .refused error) (error : CommandError) :
    (Answer.ofResult answer e.value = .refused error ↔ m.refusal? op = some error) ∧
      (m.refusal? op = some error → e.withValue (none : Option StepOutcome) = ⟨none, m, []⟩) := by
  cases h with
  | refused _ h he =>
    subst he
    rw [h]
    exact ⟨by simp [Answer.ofResult, Machine.answer], fun _ => rfl⟩
  | accepted h he =>
    rw [h, he]
    exact ⟨by simpa [Answer.ofResult] using hanswer _ error, fun h => absurd h (by simp)⟩

/-- **Refused operations** are those that are answered so, and they do nothing. -/
theorem operate_of_refusal (op : Operation) (error : CommandError) :
    (m.reply a op = .refused error ↔ m.refusal? op = some error) ∧
      (m.refusal? op = some error → m.operate a op = ⟨none, m, []⟩) := by
  cases op with
  | loadListing text => exact (m.refusable_loadListing a text).spec (by simp) error
  | start => exact (m.refusable_start a).spec (by simp) error
  | restart => exact (m.refusable_restart a).spec (by simp) error
  | pause remaining => exact (m.refusable_pause remaining).spec (by simp) error
  | resume => exact m.refusable_resume.spec (by simp) error
  | _ => simp [reply, refusal?]

end Refusal

end Machine

/-! ### There is no wait in progress without a process -/

namespace Session

/-- What is done in no time and without an instruction leaves a session restful, if it stays
consistent and keeps its programs. -/
lemma Paced.restful {s s' : Session σ} {signals : List Signal} (h : s.Restful)
    (hs' : s.Paced s' signals) (hconsistent : s'.Consistent)
    (hprogrammed : s'.machine.Programmed) : s'.Restful := by
  refine ⟨hconsistent, hprogrammed, ?_⟩
  cases hs' with
  | kept hprocess hstatus hnext hwake hsignals =>
    rw [hwake, hstatus]
    exact h.asleep
  | woken hprocess hs hstatus hnext hover hwake hsignals => exact fun _ => hstatus
  | paused hs hprocess hstatus hnext hwake hsignals => simp [hwake]
  | resumed hs hprocess hstatus hnext hwake hsignals => exact fun _ => hstatus
  | ended hprocess hstatus hnext hwake hsignals => simp [hwake]
  | launched hprocess hstatus hnext hwake hsignals => exact fun _ => hstatus

/-- After an instruction there is a wait in progress only if the process goes on. -/
lemma Turned.asleep {a : Actuator σ} {s : Session σ} {e : SessionEffect σ Turn}
    (he : s.Turned a e) (hsome : e.value.outcome?.isSome) (hwake : e.session.wake.isSome) :
    e.session.machine.status = .running := by
  cases he with
  | @executed hopen hmail hhandles hs _ effect he turn hturn sinceYield =>
    have hstepped := Machine.stepped_step a s.machine
    rw [he] at hstepped
    cases hstepped with
    | moved p hs hp => exact hs
    | _ => exact absurd hwake Bool.false_ne_true
  | _ => exact absurd hsome Bool.false_ne_true

/-- **Happenings** keep a session restful, however much time passes. -/
theorem Restful.happen {s : Session σ} (h : s.Restful) (a : Actuator σ) (happening : Happening) :
    (s.happen a happening).session.Restful := by
  have hconsistent := h.consistent.happen a happening
  have hprogrammed : (s.happen a happening).session.machine.Programmed := by
    rw [(s.happen_operations a happening).1]
    exact h.programmed.operateAll a _
  cases h.happened a happening with
  | passed nanos => exact h.congr rfl rfl rfl rfl
  | executed timerFirst hsome =>
    exact ⟨hconsistent, hprogrammed, (turned_turn a timerFirst s).asleep hsome⟩
  | paced hpass hnone hpaced hclock => exact hpaced.restful h hconsistent hprogrammed

/-- **Histories** keep a session restful. -/
theorem Restful.afterAll (a : Actuator σ) (hs : List Happening) : ∀ {s : Session σ},
    s.Restful → (s.afterAll a hs).Restful := by
  induction hs with
  | nil => exact fun h => h
  | cons first hs ih => exact fun h => ih (h.happen a first)

/-- A new session is restful, because it is timely. -/
lemma restful_start (config : MachineConfig) (robot : σ) : (start config robot).Restful :=
  (timely_start config robot).restful

/-! ### What a session refuses -/

/-- **Refusals.** Why a command is refused, if it is: as the operation that it is for the
machine. -/
def refusal? (s : Session σ) (c : Command) : Option CommandError :=
  (s.operations c).findSome? s.machine.refusal?

/-- An operation of the machine that does nothing but answer changes nothing. -/
lemma Restful.absorb_answer {s : Session σ} (h : s.Restful) {α : Type} (answer : α) :
    s.absorb (s.machine.answer answer) = s := by
  have hpublished := h.consistent.published
  cases s
  simp_all [absorb, publish, Machine.answer]

/-- **Refusable.** A command that is refused, as some operation of the machine, does nothing but
answer so, and one that is not refused answers something else. -/
inductive Refusable (s : Session σ) (op : Operation)
    (e : SessionEffect σ (Except CommandError Unit)) : Prop where
  | refused (error : CommandError) (h : s.machine.refusal? op = some error)
    (he : e = ⟨.error error, s, []⟩)
  | accepted (h : s.machine.refusal? op = none) (he : e.value = .ok ())

section Refusal

variable {s : Session σ}

/-- The start of a session is refused as that of its machine is; the session adds nothing to it but
to publish the status, which is already published. -/
lemma refusable_start (h : s.Restful) (a : Actuator σ) :
    s.Refusable .start
      ⟨(s.machine.startProcess a).value, s.absorb (s.machine.startProcess a),
        (s.machine.startProcess a).signals⟩ := by
  cases s.machine.refusable_start a with
  | refused error hop he =>
    refine .refused error hop ?_
    rw [he, h.absorb_answer]
    rfl
  | accepted hop he => exact .accepted hop he

/-- The restart of a session is refused as that of its machine is. The session gives up its wait
before it asks the machine, but without a program there is no process and nothing is waited for. -/
lemma refusable_restart (h : s.Restful) (a : Actuator σ) :
    s.Refusable .restart (s.restart a) := by
  cases s.machine.refusable_restart a with
  | refused error hop he =>
    obtain ⟨hnone, -⟩ : s.machine.program = none ∧ CommandError.noProgram = error := by
      simpa [Machine.refusal?] using hop
    -- the wait in progress is ended before the program is looked for, but there is none
    have hwake : s.wakeUp = s := by
      rw [wakeUp, ← h.wake_eq_none_of_program hnone]
    refine .refused error hop ?_
    rw [restart, he, hwake, h.absorb_answer]
    rfl
  | accepted hop he => exact .accepted hop he

/-- The pause of a session is refused as that of its machine is; what is left of the wait in
progress is handed to the machine only then. -/
lemma refusable_pause (h : s.Restful) : s.Refusable (.pause s.remaining) s.pause := by
  cases s.machine.refusable_pause s.remaining with
  | refused error hop he =>
    refine .refused error hop ?_
    change s.machine.pause (s.wake.map fun deadline => deadline - s.clock) = _ at he
    rw [pause, he, h.absorb_answer]
    rfl
  | accepted hop he => exact .accepted hop he

/-- The resume of a session is refused as that of its machine is, and then no deadline is set. -/
lemma refusable_resume (h : s.Restful) : s.Refusable .resume s.resume := by
  cases s.machine.refusable_resume with
  | refused error hop he =>
    refine .refused error hop ?_
    rw [resume, he, h.absorb_answer]
    rfl
  | @accepted hop v he =>
    refine .accepted hop ?_
    unfold resume
    simp [he]

/-- What follows of a command that may be refused, for its reply and its effect. -/
lemma Refusable.spec {op : Operation} {e : SessionEffect σ (Except CommandError Unit)}
    (h : s.Refusable op e) {reply : Unit → Reply} (hreply : ∀ error, reply () ≠ .refused error) :
    (∀ error, Reply.ofResult reply e.value = .refused error ↔
        s.machine.refusal? op = some error) ∧
      ∀ error, s.machine.refusal? op = some error → e.session = s ∧ e.signals = [] := by
  cases h with
  | refused error' h he =>
    subst he
    rw [h]
    exact ⟨by simp [Reply.ofResult], fun _ _ => ⟨rfl, rfl⟩⟩
  | accepted h he =>
    rw [h, he]
    exact ⟨by simpa [Reply.ofResult] using hreply, fun _ h => absurd h (by simp)⟩

/-- **Refused commands** are those that are answered so, and they do nothing. Each command that can
be refused is one operation of the machine, with a lemma of its own; toggling is one of three of
them, and the others are never refused. -/
theorem Restful.handle_of_refusal (h : s.Restful) (a : Actuator σ) (c : Command) :
    (∀ error, (s.handle a c).value = .refused error ↔ s.refusal? c = some error) ∧
      ∀ error, s.refusal? c = some error →
        (s.handle a c).session = s ∧ (s.handle a c).signals = [] := by
  have hone : ∀ op, [op].findSome? s.machine.refusal? = s.machine.refusal? op := fun op => by
    rw [List.findSome?_cons]
    cases s.machine.refusal? op <;> rfl
  unfold refusal?
  cases c with
  | start =>
    simp only [operations, hone]
    exact (refusable_start h a).spec (by simp)
  | restart =>
    simp only [operations, hone]
    exact (refusable_restart h a).spec (by simp)
  | pause =>
    simp only [operations, hone]
    exact (refusable_pause h).spec (by simp)
  | resume =>
    simp only [operations, hone]
    exact (refusable_resume h).spec (by simp)
  | toggle =>
    simp only [operations, handle, toggle]
    cases s.machine.status with
    | running =>
      simp only [hone]
      exact (refusable_pause h).spec (by simp)
    | paused =>
      simp only [hone]
      exact (refusable_resume h).spec (by simp)
    | stopped =>
      simp only [hone]
      exact (refusable_restart h a).spec (by simp)
  | _ => simp [operations, handle, runCutting, Machine.refusal?]

end Refusal

end Session

/-! ### As if it had not been sent -/

/-- The same turn, whatever the ticket of the request. -/
def Turn.unnumbered : Turn → Turn
  | .served r reply => .served ⟨0, r.command⟩ reply
  | turn => turn

/-- **The face** of an incident: what a turn came to, but for the ticket, and what was seen. -/
def Incident.face (i : Incident σ) : Option Turn × List Signal :=
  (i.turn.map Turn.unnumbered, i.signals)

namespace Session

/-- The same session with other requests and answers. -/
def withRequests (s : Session σ) (sent : Nat) (mailbox : List Request)
    (answers : List (Nat × Reply)) : Session σ :=
  { s with sent := sent, mailbox := mailbox, answers := answers }

/-- The same session, whatever the tickets of its requests and whatever was answered. -/
def unnumbered (s : Session σ) : Session σ :=
  s.withRequests 0 (s.mailbox.map fun r => ⟨0, r.command⟩) []

/-- **Commands** neither read nor write requests and answers. One case for each command; pausing
and resuming branch on the status, which both sessions share, and toggling is one of the other
commands. -/
lemma handle_withRequests (a : Actuator σ) (s : Session σ) (c : Command) (sent : Nat)
    (mailbox : List Request) (answers : List (Nat × Reply)) :
    (s.withRequests sent mailbox answers).handle a c =
      ⟨(s.handle a c).value, (s.handle a c).session.withRequests sent mailbox answers,
        (s.handle a c).signals⟩ := by
  have hpause : (s.withRequests sent mailbox answers).pause =
      ⟨s.pause.value, s.pause.session.withRequests sent mailbox answers, s.pause.signals⟩ := by
    unfold pause
    dsimp only [withRequests]
    split <;> rfl
  have hresume : (s.withRequests sent mailbox answers).resume =
      ⟨s.resume.value, s.resume.session.withRequests sent mailbox answers, s.resume.signals⟩ := by
    unfold resume
    dsimp only [withRequests]
    split <;> rfl
  have htoggle : (s.withRequests sent mailbox answers).toggle a =
      ⟨(s.toggle a).value, (s.toggle a).session.withRequests sent mailbox answers,
        (s.toggle a).signals⟩ := by
    have hmachine : (s.withRequests sent mailbox answers).machine = s.machine := rfl
    unfold toggle
    rw [hmachine]
    cases s.machine.status with
    | running => exact hpause
    | paused => exact hresume
    | stopped => rfl
  cases c with
  | pause =>
    simp only [handle, hpause]
    rfl
  | resume =>
    simp only [handle, hresume]
    rfl
  | toggle =>
    simp only [handle, htoggle]
    rfl
  | _ => rfl

/-- What serves a request says so. -/
lemma serve_value (a : Actuator σ) (s : Session σ) (r : Request) (rest : List Request) :
    ∃ reply, (s.serve a r rest).value = .served r reply := by
  unfold serve
  cases r.command <;> exact ⟨_, rfl⟩

/-- **Without.** What a session is without its request of some number, maybe with other tickets and
answers. -/
inductive Without (n : Nat) (s : Session σ) : Session σ → Prop where
  | intro (sent : Nat) (mailbox : List Request) (answers : List (Nat × Reply))
    (h : mailbox.map Request.command =
      (s.mailbox.filter fun r => r.ticket ≠ n).map Request.command) :
    Without n s (s.withRequests sent mailbox answers)

/-- **Agreeing.** Two turns come to the same, and so do the sessions, but for a request. -/
structure Agree (n : Nat) (e e' : SessionEffect σ Turn) : Prop where
  session : e.session.Without n e'.session
  turn : e.value.unnumbered = e'.value.unnumbered
  signals : e.signals = e'.signals

namespace Without

variable {n : Nat} {s s' : Session σ}

/-- The first request of a session is the one that the other has not, or both have it. -/
lemma mailbox_cases (h : s.Without n s') : (s.mailbox = [] ∧ s'.mailbox = []) ∨
    (∃ r rest, s.mailbox = r :: rest ∧ r.ticket = n) ∨
    ∃ r rest ticket rest', s.mailbox = r :: rest ∧ s'.mailbox = ⟨ticket, r.command⟩ :: rest' ∧
      rest'.map Request.command = (rest.filter fun r => r.ticket ≠ n).map Request.command := by
  obtain ⟨sent, mailbox, answers, h⟩ := h
  cases hmail : s.mailbox with
  | nil =>
    rw [hmail] at h
    exact .inl ⟨rfl, List.map_eq_nil_iff.1 h⟩
  | cons r rest =>
    by_cases hr : r.ticket = n
    · exact .inr (.inl ⟨r, rest, rfl, hr⟩)
    · rw [hmail, List.filter_cons_of_pos (by simpa using hr), List.map_cons] at h
      obtain ⟨r', rest', hmail', hr', hrest'⟩ := List.map_eq_cons_iff.1 h
      refine .inr (.inr ⟨r, rest, r'.ticket, rest', rfl, ?_, hrest'⟩)
      rw [← hr']
      exact hmail'

/-- Two sessions end alike. -/
lemma finish (h : s.Without n s') (a : Actuator σ) : Agree n (s.finish a) (s'.finish a) := by
  obtain ⟨sent, mailbox, answers, h⟩ := h
  refine ⟨?_, rfl, rfl⟩
  rw [finish_session, finish_session]
  exact .intro _ _ _ rfl

/-- A request is served alike, whatever its ticket. Handling the command does not look at requests,
and what is answered is not compared. A shutdown is followed by finishing, which both sessions do
alike. -/
lemma serve (h : s.Without n s') (a : Actuator σ) (r : Request) (ticket : Nat)
    {rest rest' : List Request} (hrest : rest'.map Request.command =
      (rest.filter fun r => r.ticket ≠ n).map Request.command) :
    Agree n (s.serve a r rest) (s'.serve a ⟨ticket, r.command⟩ rest') := by
  obtain ⟨sent, mailbox, answers, h⟩ := h
  obtain ⟨t, c⟩ := r
  have hhandle : ({ s.withRequests sent mailbox answers with mailbox := rest' }).handle a c = _ :=
    handle_withRequests a { s with mailbox := rest } c sent rest' answers
  have halike := handle_alike a { s with mailbox := rest } c
  unfold Session.serve
  dsimp only
  rw [hhandle]
  generalize ({ s with mailbox := rest } : Session σ).handle a c = e at halike
  have hanswered : (e.session.answer t e.value).Without n
      ((e.session.withRequests sent rest' answers).answer ticket e.value) :=
    .intro _ _ _ (by rw [answer, halike.mailbox]; exact hrest)
  cases c with
  | shutdown =>
    obtain ⟨hsession, -, hsignals⟩ := hanswered.finish a
    exact ⟨hsession, rfl, congrArg (e.signals ++ ·) hsignals⟩
  | _ => exact ⟨hanswered, rfl, rfl⟩

/-- Sessions attend alike to another request. Either both have no request, or the next request of
both has the same command, or the next request of the one is the request that the other lacks, and
this case is excluded. -/
lemma attend (h : s.Without n s') (a : Actuator σ)
    (hn : ∀ r reply, (s.attend a).value = .served r reply → r.ticket ≠ n) :
    Agree n (s.attend a) (s'.attend a) := by
  have hhandles : s'.handles = s.handles := by
    obtain ⟨sent, mailbox, answers, h⟩ := h
    rfl
  have hfinish := h.finish a
  unfold Session.attend receive at hn ⊢
  rw [hhandles]
  rcases h.mailbox_cases with ⟨hmail, hmail'⟩ | ⟨r, rest, hmail, hr⟩ |
    ⟨r, rest, ticket, rest', hmail, hmail', hrest⟩
  · rw [hmail, hmail']
    by_cases hnobody : s.handles = 0
    · simpa only [hnobody, if_true] using hfinish
    · simp only [hnobody, if_false]
      exact ⟨h, rfl, rfl⟩
  · rw [hmail] at hn
    obtain ⟨reply, hreply⟩ := serve_value a s r rest
    exact absurd hr (hn r reply hreply)
  · rw [hmail, hmail']
    exact h.serve a r ticket hrest

/-- Sessions agree about whether there is a request, if the first is another one. -/
lemma receive_isEmpty (h : s.Without n s') (hn : ∀ r ∈ s.mailbox.head?, r.ticket ≠ n) :
    s'.receive.isEmpty = s.receive.isEmpty := by
  have hhandles : s'.handles = s.handles := by
    obtain ⟨sent, mailbox, answers, h⟩ := h
    rfl
  unfold receive
  rw [hhandles]
  rcases h.mailbox_cases with ⟨hmail, hmail'⟩ | ⟨r, rest, hmail, hr⟩ |
    ⟨r, rest, ticket, rest', hmail, hmail', -⟩
  · rw [hmail, hmail']
  · exact absurd hr (hn r (by rw [hmail]; rfl))
  · rw [hmail, hmail']
    rfl

/-- If there is no request in one session there is none in the other. -/
lemma receive_isEmpty_of_isEmpty (h : s.Without n s') (hempty : s.receive.isEmpty = true) :
    s'.receive.isEmpty = true := by
  rw [h.receive_isEmpty, hempty]
  cases hmail : s.mailbox with
  | nil => simp
  | cons r rest => simp [receive, hmail, Received.isEmpty] at hempty

/-- Who attends to another request agrees that there is one. -/
lemma receive_isEmpty_of_attend (h : s.Without n s') {a : Actuator σ}
    (hn : ∀ r reply, (s.attend a).value = .served r reply → r.ticket ≠ n) :
    s'.receive.isEmpty = s.receive.isEmpty := by
  refine h.receive_isEmpty fun r hr => ?_
  obtain ⟨rest, hmail⟩ := List.head?_eq_some_iff.1 hr
  obtain ⟨reply, hreply⟩ := serve_value a s r rest
  refine hn r reply ?_
  rw [Session.attend, receive, hmail]
  exact hreply

/-- An instruction is executed alike. -/
lemma advance (h : s.Without n s') (a : Actuator σ) : Agree n (s.advance a) (s'.advance a) := by
  obtain ⟨sent, mailbox, answers, h⟩ := h
  have hquota : (s.withRequests sent mailbox answers).quota = s.quota := rfl
  unfold Session.advance
  dsimp only
  rw [hquota]
  change Agree n _ (if s.quota ≤ s.sinceYield + 1 then _ else _)
  split
  · exact ⟨.intro _ _ _ h, rfl, rfl⟩
  · exact ⟨.intro _ _ _ h, rfl, rfl⟩

/-- **Turns.** Sessions take the same turn, if it serves another request. The branches of a turn are
taken one after the other, and in each of them both sessions have the same status, deadline and
clock. -/
theorem turn (h : s.Without n s') (a : Actuator σ) (timerFirst : Bool)
    (hn : ∀ r reply, (s.turn a timerFirst).value = .served r reply → r.ticket ≠ n) :
    Agree n (s.turn a timerFirst) (s'.turn a timerFirst) := by
  have hsame : s'.hasEnded = s.hasEnded ∧ s'.machine = s.machine ∧ s'.wake = s.wake ∧
      s'.clock = s.clock := by
    obtain ⟨sent, mailbox, answers, h⟩ := h
    exact ⟨rfl, rfl, rfl, rfl⟩
  obtain ⟨hended, hmachine, hwake, hclock⟩ := hsame
  -- the sessions could only differ about whether there is a request; but if there is one, and no
  -- wait ends before, the turn serves it, so it is another one
  have hwoken : s.wakeUp.Without n s'.wakeUp := by
    obtain ⟨sent, mailbox, answers, h⟩ := h
    exact .intro _ _ _ h
  unfold Session.turn at hn ⊢
  rw [hended, hmachine, hwake, hclock]
  by_cases hopen : s.hasEnded = true
  · simp only [hopen, if_true]
    exact ⟨h, rfl, rfl⟩
  by_cases hs : s.machine.status = .running
  · cases hdeadline : s.wake with
    | none =>
      simp only [hopen, hs, hdeadline, ne_eq, not_true_eq_false, if_false,
        Bool.false_eq_true] at hn ⊢
      cases hempty : s.receive.isEmpty with
      | true =>
        simp only [h.receive_isEmpty_of_isEmpty hempty, if_true]
        exact h.advance a
      | false =>
        simp only [hempty, if_false, Bool.false_eq_true] at hn ⊢
        rw [h.receive_isEmpty_of_attend hn, hempty]
        exact h.attend a hn
    | some deadline =>
      simp only [hopen, hs, hdeadline, ne_eq, not_true_eq_false, if_false,
        Bool.false_eq_true] at hn ⊢
      by_cases hover : deadline ≤ s.clock ∧ (timerFirst = true ∨ s.receive.isEmpty = true)
      · have hover' := hover.imp_right (Or.imp_right h.receive_isEmpty_of_isEmpty)
        rw [if_pos hover, if_pos hover']
        exact ⟨hwoken, rfl, rfl⟩
      · rw [if_neg hover] at hn ⊢
        rw [h.receive_isEmpty_of_attend hn, if_neg hover]
        exact h.attend a hn
  · simp only [hopen, hs, ne_eq, not_false_eq_true, if_true, if_false, Bool.false_eq_true] at hn ⊢
    exact h.attend a hn

/-- **Happenings.** The same happens to both sessions, if no turn serves the request. A turn is the
lemma before. Sending adds the same request to both, whose ticket is not the one that the other
session lacks, since this was given before. -/
theorem happen (h : s.Without n s') (hold : n < s.sent) (a : Actuator σ) (happening : Happening)
    (hn : ∀ x ∈ (s.incident a happening).served?, x.1.ticket ≠ n) :
    (s.happen a happening).session.Without n (s'.happen a happening).session ∧
      (s.incident a happening).face = (s'.incident a happening).face := by
  cases happening with
  | turn timerFirst =>
    have hagree := h.turn a timerFirst fun r reply hserved => hn (r, reply) (by
      simp [incident, Session.happen, Incident.served?, hserved, Turn.served?])
    exact ⟨hagree.session, congrArg₂ (fun turn signals => (some turn, signals)) hagree.turn
      hagree.signals⟩
  | send c =>
    refine ⟨?_, rfl⟩
    obtain ⟨sent, mailbox, answers, h⟩ := h
    simp only [Session.happen, Session.send]
    change Without n (if s.handles = 0 then s else _) (if s.handles = 0 then _ else
      if s.hasEnded = true then _ else _)
    split
    · exact .intro _ _ _ h
    · split
      · exact .intro _ _ _ h
      · refine .intro _ _ _ ?_
        have hkept : s.sent ≠ n := by omega
        simpa [withRequests, List.filter_append, hkept] using h
  | addHandle =>
    refine ⟨?_, rfl⟩
    obtain ⟨sent, mailbox, answers, h⟩ := h
    simp only [Session.happen]
    change Without n (if s.handles = 0 then s else _) (if s.handles = 0 then _ else _)
    split <;> exact .intro _ _ _ h
  | dropHandle | tap | pass nanos =>
    refine ⟨?_, rfl⟩
    obtain ⟨sent, mailbox, answers, h⟩ := h
    exact .intro _ _ _ h

end Without

/-- Requests are numbered one after the other. Only sending gives a ticket, whether the request is
queued or refused; whatever else happens leaves their number as it is. -/
lemma sent_le_happen (a : Actuator σ) (s : Session σ) (happening : Happening) :
    s.sent ≤ (s.happen a happening).session.sent := by
  cases happening with
  | send c =>
    simp only [happen, send, answer]
    split
    · exact Nat.le_refl _
    · split <;> exact Nat.le_succ _
  | addHandle =>
    simp only [happen, addHandle]
    split <;> exact Nat.le_refl _
  | turn timerFirst =>
    have hturned := turned_turn a timerFirst s
    simp only [happen]
    generalize s.turn a timerFirst = e at hturned
    cases hturned with
    | @served hopen r rest hmail hr e he =>
      have halike := handle_alike a { s with mailbox := rest } r.command
      rw [he] at halike
      exact halike.sent.ge
    | @shutdown hopen r rest hmail hr e he =>
      have halike := handle_alike a { s with mailbox := rest } .shutdown
      rw [he] at halike
      rw [finish_session]
      exact halike.sent.ge
    | closed hopen hmail hhandles =>
      rw [finish_session]
    | _ => exact Nat.le_refl _
  | _ => exact Nat.le_refl _

/-- **Histories.** The same happens to both sessions as long as no turn serves the request. -/
theorem Without.afterAll {n : Nat} (a : Actuator σ) (hs : List Happening) :
    ∀ {s s' : Session σ}, s.Without n s' → n < s.sent →
      (∀ i ∈ s.history a hs, ∀ x ∈ i.served?, x.1.ticket ≠ n) →
      (s.afterAll a hs).Without n (s'.afterAll a hs) ∧ n < (s.afterAll a hs).sent ∧
        (s.history a hs).map Incident.face = (s'.history a hs).map Incident.face := by
  induction hs with
  | nil => exact fun h hold _ => ⟨h, hold, rfl⟩
  | cons first hs ih =>
    intro s s' h hold hn
    obtain ⟨hfirst, hrest⟩ := List.forall_mem_cons.1 hn
    obtain ⟨hnext, hface⟩ := h.happen hold a first hfirst
    obtain ⟨hall, hold, hfaces⟩ := ih hnext (hold.trans_le (sent_le_happen a s first)) hrest
    exact ⟨hall, hold, by rw [history, history, List.map_cons, List.map_cons, hface, hfaces]⟩

/-! ### Served once -/

namespace Linear

variable {sent : List Request} {served : List (Request × Reply)} {s : Session σ}

/-- No ticket was served twice. -/
lemma nodup_served (h : s.Linear sent served) : (served.map fun x => x.1.ticket).Nodup := by
  obtain ⟨rest, hrest⟩ := h.exists_rest
  have hall : (sent.map Request.ticket).Nodup := by
    rw [h.tickets]
    exact List.nodup_range
  rw [hrest, List.map_append, List.map_map] at hall
  exact (List.nodup_append'.1 hall).1

/-- A request that was served does not wait. -/
lemma ticket_ne_of_served (h : s.Linear sent served) {x : Request × Reply} (hx : x ∈ served) :
    ∀ r ∈ s.mailbox, r.ticket ≠ x.1.ticket := by
  intro r hr heq
  cases hended : s.hasEnded with
  | true => simp [(h.ended hended).1] at hr
  | false =>
    have hall : (sent.map Request.ticket).Nodup := by
      rw [h.tickets]
      exact List.nodup_range
    rw [(h.waiting hended).1, List.map_append, List.map_map] at hall
    refine (List.nodup_append'.1 hall).2.2 (List.mem_map.2 ⟨x, hx, rfl⟩) ?_
    exact List.mem_map.2 ⟨r, hr, heq⟩

/-- A request that is still to be sent does not wait. -/
lemma ticket_lt (h : s.Linear sent served) : ∀ r ∈ s.mailbox, r.ticket < s.sent := by
  intro r hr
  have hmem : r.ticket ∈ s.answers.reverse.map Prod.fst ++ s.mailbox.map Request.ticket :=
    List.mem_append_right _ (List.mem_map.2 ⟨r, hr, rfl⟩)
  rw [h.tickets_eq_range] at hmem
  exact List.mem_range.1 hmem

/-- **Served once.** A request that was served is served neither before nor after.

**Proof sketch.** No ticket is served twice in the whole history. The request that was served stands
between those that were served before and those that are served after it. -/
lemma served_once (h : s.Linear sent served) (a : Actuator σ) (before after : List Happening)
    {happening : Happening} {x : Request × Reply}
    (hx : ((s.afterAll a before).incident a happening).served? = some x) :
    (∀ i ∈ s.history a before, ∀ y ∈ i.served?, y.1.ticket ≠ x.1.ticket) ∧
      ∀ i ∈ ((s.afterAll a before).happen a happening).session.history a after,
        ∀ y ∈ i.served?, y.1.ticket ≠ x.1.ticket := by
  have hnodup := (h.afterAll a (before ++ happening :: after)).nodup_served
  rw [history_append, history, servedIn, List.filterMap_append, List.filterMap_cons, hx,
    List.map_append, List.map_append, List.map_cons] at hnodup
  have hlater := (List.nodup_append'.1 hnodup).2.1
  constructor
  · intro i hi y hy heq
    refine (List.nodup_append'.1 hlater).2.2
      (List.mem_map.2 ⟨y, List.mem_filterMap.2 ⟨i, hi, hy⟩, rfl⟩) ?_
    rw [heq]
    exact List.mem_cons_self
  · intro i hi y hy heq
    refine (List.nodup_cons.1 (List.nodup_append'.1 hlater).2.1).1 ?_
    rw [← heq]
    exact List.mem_map.2 ⟨y, List.mem_filterMap.2 ⟨i, hi, hy⟩, rfl⟩

end Linear

/-- **Refusing** in a turn: the request is answered, and nothing else is done. Only a turn that
serves a request has this value, and the command of the request is refused by the machine, so that
handling it does nothing. A shutdown is never refused. -/
lemma Restful.turn_of_refused {s : Session σ} (h : s.Restful) {a : Actuator σ} {timerFirst : Bool}
    {r : Request} {error : CommandError}
    (hserved : (s.turn a timerFirst).value = .served r (.refused error)) :
    (s.turn a timerFirst).signals = [] ∧ ∃ rest, s.mailbox = r :: rest ∧
      (s.turn a timerFirst).session =
        { s with mailbox := rest, answers := (r.ticket, .refused error) :: s.answers } := by
  have hturned := turned_turn a timerFirst s
  generalize s.turn a timerFirst = e at hturned hserved
  cases hturned with
  | @served hopen r' rest hmail hr e' he =>
    obtain ⟨rfl, hvalue⟩ := Turn.served.inj hserved
    have hrestful : ({ s with mailbox := rest } : Session σ).Restful := h.congr rfl rfl rfl rfl
    obtain ⟨hrefused, hquiet⟩ := hrestful.handle_of_refusal a r'.command
    rw [he] at hrefused hquiet
    obtain ⟨hsession, hsignals⟩ := hquiet error ((hrefused error).1 hvalue)
    refine ⟨hsignals, rest, hmail, ?_⟩
    rw [hsession, hvalue]
    rfl
  | @shutdown hopen r' rest hmail hr e' he =>
    subst he
    exact absurd (Turn.served.inj hserved).2 (by simp [handle, runCutting])
  | @executed hopen hmail hhandles hs hwake e' he turn hturn sinceYield =>
    obtain rfl : turn = .served r (.refused error) := hserved
    exact absurd hturn (by simp [Turn.outcome?])
  | past => exact absurd hserved (by simp)
  | blocked => exact absurd hserved (by simp)
  | woken => exact absurd hserved (by simp)
  | closed => exact absurd hserved (by simp [Session.finish])

/-- A session is one without a request as soon as it differs from the other in the requests alone,
and its mailbox is the other one without those of this ticket. -/
lemma without_of_eq {n : Nat} {s s' : Session σ}
    (hsame : s' = s.withRequests s'.sent s'.mailbox s'.answers)
    (hmail : s'.mailbox = s.mailbox.filter fun r => r.ticket ≠ n) : s.Without n s' := by
  rw [hsame]
  exact .intro _ _ _ (congrArg _ hmail)

/-- A session to which a request was just sent is the session before with this request. -/
lemma Linear.without_send {sent : List Request} {served : List (Request × Reply)} {s : Session σ}
    (h : s.Linear sent served) (c : Command) : (s.send c).Without s.sent s := by
  have hothers : s.mailbox.filter (fun r => r.ticket ≠ s.sent) = s.mailbox :=
    List.filter_eq_self.2 fun r hr => decide_eq_true (h.ticket_lt r hr).ne
  unfold Session.send
  split
  · exact without_of_eq rfl hothers.symm
  · refine without_of_eq rfl ?_
    rw [List.filter_append, hothers]
    simp

/-- Where the request does not wait, two sessions have the same requests. -/
lemma Without.unnumbered_eq {n : Nat} {s s' : Session σ} (h : s.Without n s')
    (hn : ∀ r ∈ s.mailbox, r.ticket ≠ n) : s.unnumbered = s'.unnumbered := by
  obtain ⟨sent, mailbox, answers, h⟩ := h
  rw [List.filter_eq_self.2 fun r hr => decide_eq_true (hn r hr)] at h
  have hmail := congrArg (List.map fun c => Request.mk 0 c) h
  rw [List.map_map, List.map_map] at hmail
  exact congrArg (s.withRequests 0 · []) hmail.symm

/-- **Unnoticed.** What happens from when a request is sent until it is refused, and after that, is
as if the request had not been sent.

**Proof sketch.** At first the session is the other one with the request waiting in addition. As the
request is served only once, all turns are the same until it is refused; and then it is no longer
there. -/
lemma unnoticed_of_refused {sent : List Request} {served : List (Request × Reply)}
    {s : Session σ} (h : s.Restful) (hlinear : s.Linear sent served) (hhandles : s.handles ≠ 0)
    (a : Actuator σ) (c : Command) (before : List Happening) {timerFirst : Bool}
    {error : CommandError}
    (hrefused : ((s.afterAll a (.send c :: before)).turn a timerFirst).value =
      .served ⟨s.sent, c⟩ (.refused error)) :
    ((s.send c).history a before).map Incident.face = (s.history a before).map Incident.face ∧
    ∀ after, let asked := ((s.afterAll a (.send c :: before)).turn a timerFirst).session
      (asked.history a after).map Incident.face =
          ((s.afterAll a before).history a after).map Incident.face ∧
        (asked.afterAll a after).unnumbered =
          ((s.afterAll a before).afterAll a after).unnumbered := by
  have hsend : (s.happen a (.send c)).session = s.send c := if_neg hhandles
  have hrestful := h.afterAll a (.send c :: before)
  have hsent := hlinear.send hhandles c
  rw [afterAll, hsend] at hrefused hrestful ⊢
  have hserved : (((s.send c).afterAll a before).incident a (.turn timerFirst)).served? =
      some (⟨s.sent, c⟩, .refused error) := by
    change Turn.served? (((s.send c).afterAll a before).turn a timerFirst).value = _
    rw [hrefused]
    rfl
  -- until the request is served it waits in addition
  have hold : s.sent < (s.send c).sent := by
    unfold send answer
    split <;> exact Nat.lt_succ_self _
  obtain ⟨hwaiting, hold, hfaces⟩ := (hlinear.without_send c).afterAll a before hold
    (hsent.served_once a before [] hserved).1
  refine ⟨hfaces, fun after => ?_⟩
  -- when it is served it waits no longer, and nothing else has changed
  obtain ⟨-, rest, hmail, hasked⟩ := hrestful.turn_of_refused hrefused
  have hanswered : (((s.send c).afterAll a before).turn a timerFirst).session.Without s.sent
      (s.afterAll a before) := by
    rw [hasked]
    generalize s.afterAll a before = unasked at hwaiting
    obtain ⟨sent, mailbox, answers, hwaiting⟩ := hwaiting
    rw [hmail, List.filter_cons_of_neg (by simp)] at hwaiting
    exact .intro _ _ _ hwaiting
  have hold : s.sent < (((s.send c).afterAll a before).turn a timerFirst).session.sent := by
    rw [hasked]
    exact hold
  obtain ⟨hall, -, hfaces'⟩ := hanswered.afterAll a after hold
    (hsent.served_once a before after hserved).2
  refine ⟨hfaces', hall.unnumbered_eq ?_⟩
  have hlinear' := hsent.afterAll a (before ++ .turn timerFirst :: after)
  rw [afterAll_append, history_append, history, servedIn, List.filterMap_append,
    List.filterMap_cons, hserved] at hlinear'
  exact hlinear'.ticket_ne_of_served (x := (⟨s.sent, c⟩, .refused error)) (by simp)

/-! ### The promise -/

/-- **Refusing quietly.** What a session promises of commands that are refused. A command is refused
exactly if there is a reason, and an operation of the machine likewise. Then nothing changes and
nothing is seen. A listing that does not assemble is refused at once. A turn that refuses a request
does nothing but answer it; and whatever happened since the request was sent, and whatever happens
after it is refused, is as if it had never been sent. -/
structure RefusesQuietly (a : Actuator σ) (s : Session σ) : Prop where
  refused : ∀ c e, (s.handle a c).value = .refused e ↔ s.refusal? c = some e
  unchanged : ∀ c e, (s.handle a c).value = .refused e →
    (s.handle a c).session = s ∧ (s.handle a c).signals = []
  operations : ∀ op e, (s.machine.reply a op = .refused e ↔ s.machine.refusal? op = some e) ∧
    (s.machine.reply a op = .refused e → s.machine.operate a op = ⟨none, s.machine, []⟩)
  listing : ∀ text rejected, Listing.parseProgram text = .error rejected →
    s.requestListing a text = ⟨some (.refused (.listing rejected)), s, []⟩
  answered : ∀ timerFirst r e, (s.turn a timerFirst).value = .served r (.refused e) →
    (s.turn a timerFirst).signals = [] ∧ ∃ rest, s.mailbox = r :: rest ∧
      (s.turn a timerFirst).session =
        { s with mailbox := rest, answers := (r.ticket, .refused e) :: s.answers }
  unnoticed : s.handles ≠ 0 → ∀ c before timerFirst e,
    ((s.afterAll a (.send c :: before)).turn a timerFirst).value =
        .served ⟨s.sent, c⟩ (.refused e) →
      ((s.send c).history a before).map Incident.face = (s.history a before).map Incident.face ∧
      ∀ after, let asked := ((s.afterAll a (.send c :: before)).turn a timerFirst).session
        (asked.history a after).map Incident.face =
            ((s.afterAll a before).history a after).map Incident.face ∧
          (asked.afterAll a after).unnumbered =
            ((s.afterAll a before).afterAll a after).unnumbered

end Session

/-- **Refusals go unnoticed.** A session that was started refuses quietly, whatever has happened to
it.

A command that does not fit the status or lacks a program, and only such a one, is answered with an
error. The machine, the deadline and the published status are then what they were and nothing is
seen of it; and whoever does not look at the answers cannot tell, at that time or later, that the
command was sent at all. -/
theorem session_refuses_quietly (a : Actuator σ) (config : MachineConfig) (robot : σ)
    (hs : List Happening) : ((Session.start config robot).afterAll a hs).RefusesQuietly a := by
  have hrestful := (Session.restful_start config robot).afterAll a hs
  have hlinear := (Session.linear_start config robot).afterAll a hs
  refine ⟨fun c e => (hrestful.handle_of_refusal a c).1 e, fun c e h => ?_, fun op e => ?_,
    fun text rejected h => ?_, fun _ _ _ => hrestful.turn_of_refused, ?_⟩
  · exact (hrestful.handle_of_refusal a c).2 e (((hrestful.handle_of_refusal a c).1 e).1 h)
  · obtain ⟨hreply, hoperate⟩ := Machine.operate_of_refusal a _ op e
    exact ⟨hreply, fun h => hoperate (hreply.1 h)⟩
  · rw [Session.requestListing, h]
  · intro hhandles c before timerFirst e hrefused
    exact Session.unnoticed_of_refused hrestful hlinear hhandles a c before hrefused

/-- Five milliseconds of a nap of twenty. -/
def beginningOfNap : List Happening :=
  [.send (.load (.ofInstructions [.wait 20, .print "Up"])), .turn true, .send .start, .turn true,
    .turn true, .pass (5 * nanosPerMs)]

/-- The rest of the nap, and what follows. -/
def restOfNap : List Happening := [.pass (14 * nanosPerMs), .turn true, .turn true, .turn true]

/-- Whoever naps cannot be started, and naps on as if nobody had tried. -/
theorem session_refuses_quietly_nap :
    let s := (Session.start {} ()).afterAll .still beginningOfNap
    let asked := s.afterAll .still [.send .start, .pass nanosPerMs]
    s.wake = some (20 * nanosPerMs) ∧
      (asked.turn .still true).value =
        .served ⟨2, .start⟩ (.refused (.invalidTransition "start" .running)) ∧
      ((asked.turn .still true).session.history .still restOfNap).map Incident.face =
        ((s.afterAll .still [.pass nanosPerMs]).history .still restOfNap).map Incident.face := by
  intro s asked
  have hquiet := session_refuses_quietly .still {} () beginningOfNap
  have hrefused : (asked.turn .still true).value =
      .served ⟨2, .start⟩ (.refused (.invalidTransition "start" .running)) := by cbv
  refine ⟨by decide, hrefused, ?_⟩
  exact ((hquiet.unnoticed (by decide) .start [.pass nanosPerMs] true _ hrefused).2 restOfNap).1

end StickerBot
