import Mathlib.Data.List.Basic
import StickerBot.Proofs.Happening
set_option autoImplicit false

/-!
# A session answers every request once

Whatever handles send and however turns, taps and time come in between, requests are served in the
order in which they were sent, up to the first shutdown, and each is answered once. No instruction
is executed while a request waits. When a session has ended its machine is stopped, and so is
everybody told.

## Main definitions

* `sentIn`, `servedIn` — the requests sent and served in a history.
* `throughShutdown` — requests up to the first shutdown.
* `Session.Linear` — requests are served in their order and answered once.
* `Session.Delivers` — what a session promises to those who send.

## Main results

* `Session.Linear.happen` — whatever happens keeps requests in their order.
* `Session.exists_answer_of_turns` — a request that waits is answered after enough turns.
* `countP_stops` — a process that was reported to start is reported to stop once.
* `session_delivers` — a session keeps its promise.
-/

namespace StickerBot

variable {σ : Type}

/-! ### Requests sent and served -/

/-- The request that a turn has served, with its reply. -/
def Turn.served? : Turn → Option (Request × Reply)
  | .served r reply => some (r, reply)
  | _ => none

/-- The request that was sent. -/
def Incident.sent? (i : Incident σ) : Option Request :=
  match i.happening with
  | .send c => if i.before.handles = 0 then none else some ⟨i.before.sent, c⟩
  | _ => none

/-- The request that was served, with its reply. -/
def Incident.served? (i : Incident σ) : Option (Request × Reply) := i.turn.bind Turn.served?

/-- The requests sent in a history, in their order. -/
def sentIn (is : List (Incident σ)) : List Request := is.filterMap Incident.sent?

/-- The requests served in a history with their replies, in their order. -/
def servedIn (is : List (Incident σ)) : List (Request × Reply) := is.filterMap Incident.served?

/-- **Up to the first shutdown.** Requests up to the first shutdown and with it; all of them if
there is none. -/
def throughShutdown : List Request → List Request
  | [] => []
  | r :: rs => if r.command.isShutdown then [r] else r :: throughShutdown rs

/-- As long as no shutdown is among the requests, all of them count, and what counts of the later
ones is found without them. -/
lemma throughShutdown_append {rs : List Request}
    (h : ∀ r ∈ rs, r.command.isShutdown = false) (rs' : List Request) :
    throughShutdown (rs ++ rs') = rs ++ throughShutdown rs' := by
  induction rs with
  | nil => rfl
  | cons r rs ih =>
    obtain ⟨hr, hrs⟩ := List.forall_mem_cons.1 h
    rw [List.cons_append, throughShutdown, if_neg (by simp [hr]), ih hrs, List.cons_append]

/-- Nothing behind a shutdown counts. -/
lemma throughShutdown_append_of_mem {rs : List Request} {r : Request} (hmem : r ∈ rs)
    (hr : r.command.isShutdown = true) (rs' : List Request) :
    throughShutdown (rs ++ rs') = throughShutdown rs := by
  induction rs with
  | nil => exact absurd hmem List.not_mem_nil
  | cons x rs ih =>
    rw [List.cons_append, throughShutdown, throughShutdown]
    split
    · rfl
    · rename_i hx
      rcases List.mem_cons.1 hmem with rfl | hmem
      · exact absurd hr hx
      · rw [ih hmem]

/-- Up to the first shutdown come the first requests. -/
lemma throughShutdown_prefix (rs : List Request) : throughShutdown rs <+: rs := by
  induction rs with
  | nil => exact List.prefix_refl _
  | cons r rs ih =>
    rw [throughShutdown]
    split
    · exact ⟨rs, rfl⟩
    · exact (List.prefix_cons_inj r).2 ih

namespace Session

/-! ### The order of requests -/

/-- **Linear.** These requests were sent to a session, and these were served: in the order in which
they were sent, all but those that still wait; and when the session has ended, up to the first
shutdown. It has ended by a shutdown or for want of handles. Answers were given in the same order:
to each request that was served its own reply, and when the session has ended, to all others that
it is closed. -/
structure Linear (sent : List Request) (served : List (Request × Reply)) (s : Session σ) :
    Prop where
  tickets : sent.map Request.ticket = List.range s.sent
  waiting : s.hasEnded = false → sent = served.map Prod.fst ++ s.mailbox ∧
    ∀ x ∈ served, x.1.command.isShutdown = false
  ended : s.hasEnded = true → s.mailbox = [] ∧ served.map Prod.fst = throughShutdown sent ∧
    ((∃ x ∈ served, x.1.command.isShutdown = true) ∨ s.handles = 0)
  answers : s.answers.reverse = served.map (fun x => (x.1.ticket, x.2)) ++
    if s.hasEnded then (sent.drop served.length).map Request.refusal else []

namespace Linear

variable {sent : List Request} {served : List (Request × Reply)} {s s' : Session σ}

/-- What was sent are the requests that were served, and others behind them. -/
lemma exists_rest (h : s.Linear sent served) : ∃ rest, sent = served.map Prod.fst ++ rest := by
  cases hended : s.hasEnded with
  | false => exact ⟨s.mailbox, (h.waiting hended).1⟩
  | true =>
    obtain ⟨rest, hrest⟩ := throughShutdown_prefix sent
    exact ⟨rest, by rw [(h.ended hended).2.1, hrest]⟩

/-- **Answered once.** The tickets that were answered, in the order of the answers, and then those
of the requests that wait, are all tickets. -/
theorem tickets_eq_range (h : s.Linear sent served) :
    s.answers.reverse.map Prod.fst ++ s.mailbox.map Request.ticket = List.range s.sent := by
  rw [h.answers, ← h.tickets]
  cases hended : s.hasEnded with
  | false =>
    rw [(h.waiting hended).1]
    simp [Function.comp_def]
  | true =>
    obtain ⟨rest, rfl⟩ := h.exists_rest
    rw [(h.ended hended).1, List.drop_left' (by simp)]
    simp [Function.comp_def, Request.refusal]

/-- What does not touch requests keeps them. -/
lemma congr (h : s.Linear sent served) (hsent : s'.sent = s.sent)
    (hmail : s'.mailbox = s.mailbox) (hanswers : s'.answers = s.answers)
    (hended : s'.hasEnded = s.hasEnded) (hhandles : s.handles = 0 → s'.handles = 0) :
    s'.Linear sent served := by
  obtain ⟨h1, h2, h3, h4⟩ := h
  rw [← hsent] at h1
  rw [← hmail, ← hended] at h2 h3
  rw [← hanswers, ← hended] at h4
  exact ⟨h1, h2, fun h => ⟨(h3 h).1, (h3 h).2.1, (h3 h).2.2.imp_right hhandles⟩, h4⟩

/-- **Sending** adds a request. A session that has ended refuses it.

**Proof sketch.** While the session goes on the request joins the end of the mailbox, and so it is
the last one that waits. After a shutdown it is answered at once that the channel is closed, and the
requests that count stay the same. -/
lemma send (h : s.Linear sent served) (hhandles : s.handles ≠ 0) (c : Command) :
    (s.send c).Linear (sent ++ [Request.mk s.sent c]) served := by
  have htickets : (sent ++ [Request.mk s.sent c]).map Request.ticket =
      List.range (s.sent + 1) := by
    rw [List.map_append, h.tickets, List.range_succ]
    rfl
  have hanswers := h.answers
  cases hended : s.hasEnded with
  | false =>
    have hsend : s.send c =
        { s with sent := s.sent + 1, mailbox := s.mailbox ++ [⟨s.sent, c⟩] } :=
      if_neg (by simp [hended])
    obtain ⟨hsent, hserved⟩ := h.waiting hended
    rw [hsend]
    refine ⟨htickets, fun _ => ⟨?_, hserved⟩, fun hend => ?_, ?_⟩
    · simp [hsent]
    · exact absurd (hended.symm.trans hend) (by simp)
    · simpa [hended] using hanswers
  | true =>
    have hsend : s.send c =
        { s with sent := s.sent + 1, answers := Request.refusal ⟨s.sent, c⟩ :: s.answers } :=
      if_pos hended
    obtain ⟨hmail, hserved, hreason⟩ := h.ended hended
    obtain ⟨x, hx, hshutdown⟩ := hreason.resolve_right hhandles
    obtain ⟨rest, hrest⟩ := h.exists_rest
    have hmem : x.1 ∈ sent := by
      rw [hrest]
      exact List.mem_append_left _ (List.mem_map.2 ⟨x, hx, rfl⟩)
    have hle : served.length ≤ sent.length := by simp [hrest]
    rw [hsend]
    refine ⟨htickets, fun hopen => ?_, fun _ => ⟨hmail, ?_, .inl ⟨x, hx, hshutdown⟩⟩, ?_⟩
    · exact absurd (hended.symm.trans hopen) (by simp)
    · rw [hserved, throughShutdown_append_of_mem hmem hshutdown]
    · rw [List.drop_append_of_le_length hle]
      simp [hended, hanswers]

/-- **Serving** a request that is no shutdown. -/
lemma serve (h : s.Linear sent served) (hopen : s.hasEnded = false) {r : Request}
    {rest : List Request} (hmail : s.mailbox = r :: rest) (hr : r.command.isShutdown = false)
    (reply : Reply) (hsent : s'.sent = s.sent) (hmail' : s'.mailbox = rest)
    (hanswers' : s'.answers = (r.ticket, reply) :: s.answers) (hended : s'.hasEnded = false) :
    s'.Linear sent (served ++ [(r, reply)]) := by
  obtain ⟨hall, hserved⟩ := h.waiting hopen
  have hanswers := h.answers
  rw [hopen, if_neg (by simp), List.append_nil] at hanswers
  refine ⟨by rw [h.tickets, hsent], fun _ => ⟨?_, ?_⟩, fun hend => ?_, ?_⟩
  · simp [hall, hmail, hmail']
  · simpa [or_imp, forall_and, hr] using hserved
  · exact absurd (hended.symm.trans hend) (by simp)
  · simp [hanswers', hanswers, hended]

/-- **Shutting down**: the session ends with this request, and refuses the others.

**Proof sketch.** Up to this request none was a shutdown, so that it is the first one, and all up to
it were served. What waited behind it is answered in its order that the channel is closed. -/
lemma shutdown (h : s.Linear sent served) (hopen : s.hasEnded = false) {r : Request}
    {rest : List Request} (hmail : s.mailbox = r :: rest) (hr : r.command.isShutdown = true)
    (reply : Reply) (hsent : s'.sent = s.sent) (hmail' : s'.mailbox = [])
    (hanswers' : s'.answers = (rest.map Request.refusal).reverse ++ (r.ticket, reply) :: s.answers)
    (hended : s'.hasEnded = true) : s'.Linear sent (served ++ [(r, reply)]) := by
  obtain ⟨hall, hserved⟩ := h.waiting hopen
  have hanswers := h.answers
  rw [hopen, if_neg (by simp), List.append_nil] at hanswers
  rw [hmail] at hall
  have hfirst : ∀ r ∈ served.map Prod.fst, r.command.isShutdown = false :=
    List.forall_mem_map.2 hserved
  refine ⟨by rw [h.tickets, hsent], fun hend => ?_, fun _ => ⟨hmail', ?_, .inl ?_⟩, ?_⟩
  · exact absurd (hended.symm.trans hend) (by simp)
  · rw [hall, throughShutdown_append hfirst, throughShutdown, if_pos hr]
    simp
  · exact ⟨(r, reply), by simp, hr⟩
  · have hdrop : sent.drop (served ++ [(r, reply)]).length = rest := by
      rw [hall, List.append_cons (served.map Prod.fst)]
      exact List.drop_left' (by simp)
    rw [hanswers', hended, if_pos rfl, hdrop]
    simp [hanswers]

/-- **Ending** for want of handles: everything that was sent was served. There is no request left in
the mailbox, and there will be none, because no handle is left to send it; so nothing has to be
refused either. -/
lemma closed (h : s.Linear sent served) (hopen : s.hasEnded = false) (hmail : s.mailbox = [])
    (hhandles : s'.handles = 0) (hsent : s'.sent = s.sent) (hmail' : s'.mailbox = [])
    (hanswers' : s'.answers = s.answers) (hended : s'.hasEnded = true) :
    s'.Linear sent served := by
  obtain ⟨hall, hserved⟩ := h.waiting hopen
  have hanswers := h.answers
  rw [hopen, if_neg (by simp), List.append_nil] at hanswers
  rw [hmail, List.append_nil] at hall
  have hfirst : ∀ r ∈ served.map Prod.fst, r.command.isShutdown = false :=
    List.forall_mem_map.2 hserved
  refine ⟨by rw [h.tickets, hsent], fun hend => ?_, fun _ => ⟨hmail', ?_, .inr hhandles⟩, ?_⟩
  · exact absurd (hended.symm.trans hend) (by simp)
  · have hthrough := throughShutdown_append hfirst []
    rw [List.append_nil] at hthrough
    rw [hall, hthrough, throughShutdown, List.append_nil]
  · have hdrop : sent.drop served.length = [] := by
      rw [hall]
      exact List.drop_eq_nil_of_le (by simp)
    rw [hanswers', hanswers, hended, if_pos rfl, hdrop, List.map_nil, List.append_nil]

/-- **Turns** keep requests in their order. One case for each outcome of a turn: the requests served
are those that the outcome names, at most one. -/
lemma turned {a : Actuator σ} {e : SessionEffect σ Turn} (h : s.Linear sent served)
    (he : s.Turned a e) : e.session.Linear sent (served ++ (Turn.served? e.value).toList) := by
  cases he with
  | past hended => simpa [Turn.served?] using h
  | blocked hopen hmail hhandles hsleeps => simpa [Turn.served?] using h
  | woken hopen hs hwake hover =>
    rw [show Turn.served? .woken = none from rfl, Option.toList_none, List.append_nil]
    exact h.congr rfl rfl rfl rfl id
  | @served hopen r rest hmail hr e he =>
    have halike := handle_alike a { s with mailbox := rest } r.command
    rw [he] at halike
    exact h.serve hopen hmail hr e.value halike.sent halike.mailbox
      (congrArg (List.cons _) halike.answers) (halike.hasEnded.trans hopen)
  | @shutdown hopen r rest hmail hr e he =>
    have halike := handle_alike a { s with mailbox := rest } .shutdown
    rw [he] at halike
    dsimp only
    rw [finish_session]
    refine h.shutdown hopen hmail (by rw [hr]; rfl) e.value halike.sent rfl ?_ rfl
    simp only [answer, halike.mailbox, halike.answers]
  | @executed hopen hmail hhandles hs hwake e he turn hturn sinceYield =>
    have hnone : Turn.served? turn = none := by
      cases turn <;> first | rfl | exact absurd hturn (by simp [Turn.outcome?])
    rw [hnone, Option.toList_none, List.append_nil]
    exact h.congr rfl rfl rfl rfl id
  | closed hopen hmail hhandles =>
    rw [show Turn.served? (s.finish a).value = none from rfl, Option.toList_none, List.append_nil]
    refine h.closed hopen hmail ?_ ?_ ?_ ?_ ?_ <;> rw [finish_session]
    · exact hhandles
    · simp [hmail]

/-- **Happenings** keep requests in their order. Sending and turns are the happenings that matter;
handles count only in that there must be one, or a shutdown, once the session has ended. -/
theorem happen (h : s.Linear sent served) (a : Actuator σ) (happening : Happening) :
    (s.happen a happening).session.Linear
      (sent ++ (s.incident a happening).sent?.toList)
      (served ++ (s.incident a happening).served?.toList) := by
  have hkept : s.Linear (sent ++ []) (served ++ []) := by simpa using h
  cases happening with
  | send c =>
    by_cases hhandles : s.handles = 0
    · simpa [Session.happen, incident, Incident.sent?, Incident.served?, hhandles] using h
    · simpa [Session.happen, incident, Incident.sent?, Incident.served?, hhandles] using
        h.send hhandles c
  | addHandle =>
    by_cases hhandles : s.handles = 0
    · simpa [Session.happen, incident, Incident.sent?, Incident.served?, hhandles] using h
    · refine hkept.congr ?_ ?_ ?_ ?_ fun hnone => absurd hnone hhandles <;>
        rw [Session.happen, if_neg hhandles] <;> rfl
  | dropHandle =>
    refine hkept.congr rfl rfl rfl rfl fun hhandles => ?_
    simp [Session.happen, Session.dropHandle, hhandles]
  | tap => exact hkept.congr rfl rfl rfl rfl id
  | pass nanos => exact hkept.congr rfl rfl rfl rfl id
  | turn timerFirst =>
    have hturned := h.turned (turned_turn a timerFirst s)
    simpa [Session.happen, incident, Incident.sent?, Incident.served?] using hturned

/-- **Histories** keep requests in their order. By induction along the history, with the requests
sent and served so far as parameters of the induction. -/
theorem afterAll (a : Actuator σ) (hs : List Happening) :
    ∀ {s : Session σ} {sent : List Request} {served : List (Request × Reply)},
      s.Linear sent served →
        (s.afterAll a hs).Linear (sent ++ sentIn (s.history a hs))
          (served ++ servedIn (s.history a hs)) := by
  induction hs with
  | nil =>
    intro s sent served h
    simpa [sentIn, servedIn, history, Session.afterAll] using h
  | cons first hs ih =>
    intro s sent served h
    have hrest := ih (h.happen a first)
    have hcons : ∀ {α : Type} (f : Incident σ → Option α) (is : List (Incident σ)),
        (s.incident a first :: is).filterMap f =
          (f (s.incident a first)).toList ++ is.filterMap f := by
      intro α f is
      rw [List.filterMap_cons]
      cases f (s.incident a first) <;> rfl
    rw [sentIn, servedIn, history, hcons, hcons, ← List.append_assoc, ← List.append_assoc]
    exact hrest

end Linear

/-! ### Replies -/

/-- The reply of a command is not that the session is closed. Only a session that has ended gives
this answer, and it gives it without handling the command. One case for each of the commands that
can be refused. -/
lemma handle_value_ne (a : Actuator σ) (s : Session σ) (c : Command) :
    (s.handle a c).value ≠ .refused .channelClosed := by
  have hpause : s.pause.value ≠ .error .channelClosed := by
    unfold pause Machine.pause
    dsimp only
    split <;> simp [Machine.answer, Machine.refuse]
  have hresume : s.resume.value ≠ .error .channelClosed := by
    unfold resume Machine.resume
    by_cases hs : s.machine.status = .paused <;>
      simp [hs, Machine.answer, Machine.refuse]
  have hrestart : (s.restart a).value ≠ .error .channelClosed := by
    unfold restart Machine.restart
    dsimp only
    split <;> simp [Machine.answer]
  have hstart : (s.machine.startProcess a).value ≠ .error .channelClosed := by
    unfold Machine.startProcess
    split
    · simp [Machine.answer, Machine.refuse]
    · split <;> simp [Machine.answer]
  have hreply : ∀ {α : Type} {reply : α → Reply} {x : Except CommandError α},
      (∀ y, reply y ≠ .refused .channelClosed) → x ≠ .error .channelClosed →
        Reply.ofResult reply x ≠ .refused .channelClosed := by
    intro α reply x hall hx
    cases x with
    | ok y => exact hall y
    | error e =>
      intro heq
      obtain rfl : e = .channelClosed := by simpa [Reply.ofResult] using heq
      exact hx rfl
  cases c with
  | start => exact hreply (by simp) hstart
  | restart => exact hreply (by simp) hrestart
  | pause => exact hreply (by simp) hpause
  | resume => exact hreply (by simp) hresume
  | toggle =>
    refine hreply (by simp) ?_
    unfold toggle
    split
    · exact hpause
    · exact hresume
    · exact hrestart
  | _ => simp [handle, runCutting]

/-- **Own replies.** A request that a turn has served was the first that waited, and its reply is
that of its command. -/
lemma Turned.of_served {a : Actuator σ} {s : Session σ} {e : SessionEffect σ Turn}
    (h : s.Turned a e) {r : Request} {reply : Reply} (he : e.value = .served r reply) :
    ∃ rest, s.mailbox = r :: rest ∧
      reply = (({ s with mailbox := rest } : Session σ).handle a r.command).value := by
  cases h with
  | @served hopen r' rest hmail hr e' he' =>
    obtain ⟨rfl, rfl⟩ := Turn.served.inj he
    exact ⟨rest, hmail, by rw [he']⟩
  | @shutdown hopen r' rest hmail hr e' he' =>
    obtain ⟨rfl, rfl⟩ := Turn.served.inj he
    exact ⟨rest, hmail, by rw [hr, he']⟩
  | @executed hopen hmail hhandles hs hwake e' he' turn hturn sinceYield =>
    obtain rfl : turn = .served r reply := he
    exact absurd hturn (by simp [Turn.outcome?])
  | past => exact absurd he (by simp)
  | blocked => exact absurd he (by simp)
  | woken => exact absurd he (by simp)
  | closed => exact absurd he (by simp [finish])

/-- **Urgency.** While an instruction is executed no request waits. -/
lemma Turned.of_executed {a : Actuator σ} {s : Session σ} {e : SessionEffect σ Turn}
    (h : s.Turned a e) {outcome : StepOutcome} (he : Turn.outcome? e.value = some outcome) :
    s.hasEnded = false ∧ s.mailbox = [] ∧ s.machine.status = .running ∧ s.wake = none ∧
      outcome = (s.machine.step a).value := by
  cases h with
  | @executed hopen hmail hhandles hs hwake e' he' turn hturn sinceYield =>
    refine ⟨hopen, hmail, hs, hwake, ?_⟩
    rw [he']
    exact Option.some.inj (he.symm.trans hturn)
  | _ => exact absurd he (by simp [Turn.outcome?, finish])

/-! ### Requests that wait are answered -/

/-- Answers that were given stay. One case for each happening: an answer is put in front of the
others, by sending to a session that has ended or by a turn, or nothing is answered. -/
lemma answers_suffix_happen (a : Actuator σ) (s : Session σ) (happening : Happening) :
    s.answers <:+ (s.happen a happening).session.answers := by
  cases happening with
  | send c =>
    simp only [happen, send, answer]
    split
    · exact List.suffix_refl _
    · split
      · exact List.suffix_cons _ _
      · exact List.suffix_refl _
  | addHandle =>
    simp only [happen, addHandle]
    split <;> exact List.suffix_refl _
  | turn timerFirst =>
    have hturned := turned_turn a timerFirst s
    simp only [happen]
    generalize s.turn a timerFirst = e at hturned
    cases hturned with
    | @served hopen r rest hmail hr e he =>
      have halike := handle_alike a { s with mailbox := rest } r.command
      rw [he] at halike
      rw [answer, halike.answers]
      exact List.suffix_cons _ _
    | @shutdown hopen r rest hmail hr e he =>
      have halike := handle_alike a { s with mailbox := rest } .shutdown
      rw [he] at halike
      rw [finish_session, answer, halike.answers]
      exact (List.suffix_cons _ _).trans (List.suffix_append _ _)
    | closed hopen hmail hhandles =>
      rw [finish_session]
      exact List.suffix_append _ _
    | _ => exact List.suffix_refl _
  | _ => exact List.suffix_refl _

/-- Answers are only ever added: whatever happens, those that a session has given are still there,
behind the newer ones. -/
lemma answers_suffix_afterAll (a : Actuator σ) (hs : List Happening) : ∀ s : Session σ,
    s.answers <:+ (s.afterAll a hs).answers := by
  induction hs with
  | nil => exact fun s => List.suffix_refl _
  | cons first hs ih => exact fun s => (answers_suffix_happen a s first).trans (ih _)

/-- How many turns at most a request waits behind so many others. -/
def turnsBehind (s : Session σ) (others : Nat) : Nat :=
  2 * others + if s.wake.isSome then 2 else 1

/-- **A turn** answers a request that waits, or brings it closer to its answer.

**Proof sketch.** If the timer is due the turn removes the deadline, after which nothing comes
before the mailbox. Otherwise the first request is served, which is this one or one that was in
front of it; and a shutdown answers all that wait. -/
lemma Turned.approach {a : Actuator σ} {s : Session σ} {e : SessionEffect σ Turn}
    (h : s.Turned a e) (hopen : s.hasEnded = false) {front back : List Request} {r : Request}
    (hmail : s.mailbox = front ++ r :: back) :
    (∃ reply, (r.ticket, reply) ∈ e.session.answers) ∨
      e.session.hasEnded = false ∧ ∃ front', e.session.mailbox = front' ++ r :: back ∧
        e.session.turnsBehind front'.length < s.turnsBehind front.length := by
  have hnonempty : s.mailbox ≠ [] := by simp [hmail]
  cases h with
  | past hended => exact absurd (hopen.symm.trans hended) (by simp)
  | blocked _ hempty => exact absurd hempty hnonempty
  | executed _ hempty => exact absurd hempty hnonempty
  | closed _ hempty => exact absurd hempty hnonempty
  | woken _ hs hwake hover =>
    refine .inr ⟨hopen, front, hmail, ?_⟩
    simp [turnsBehind, wakeUp, hwake]
  | @served _ r' rest hmail' hr e he =>
    have halike := handle_alike a { s with mailbox := rest } r'.command
    rw [he] at halike
    rw [hmail'] at hmail
    cases front with
    | nil =>
      obtain ⟨rfl, rfl⟩ := List.cons.inj hmail
      exact .inl ⟨e.value, List.mem_cons_self⟩
    | cons x front =>
      obtain ⟨rfl, rfl⟩ := List.cons.inj hmail
      refine .inr ⟨halike.hasEnded.trans hopen, front, halike.mailbox, ?_⟩
      simp only [turnsBehind, List.length_cons]
      split <;> split <;> omega
  | @shutdown _ r' rest hmail' hr e he =>
    have halike := handle_alike a { s with mailbox := rest } .shutdown
    rw [he] at halike
    rw [hmail'] at hmail
    left
    rw [finish_session, answer, halike.answers, halike.mailbox]
    cases front with
    | nil =>
      obtain ⟨rfl, rfl⟩ := List.cons.inj hmail
      exact ⟨e.value, by simp⟩
    | cons x front =>
      obtain ⟨rfl, rfl⟩ := List.cons.inj hmail
      exact ⟨.refused .channelClosed, by simp [Request.refusal]⟩

/-- **Patience.** A request that waits is answered after enough turns, whatever happens in between.

**Proof sketch.** By induction along the history. What is sent joins the mailbox behind the request,
time alone sets no deadline, and each turn brings the answer or takes one from the number of turns
that it can take at most. -/
theorem exists_answer_of_turns (a : Actuator σ) (hs : List Happening) :
    ∀ {s : Session σ} {front back : List Request} {r : Request}, s.hasEnded = false →
      s.mailbox = front ++ r :: back → s.turnsBehind front.length ≤ hs.countP Happening.isTurn →
        ∃ reply, (r.ticket, reply) ∈ (s.afterAll a hs).answers := by
  induction hs with
  | nil =>
    intro s front back r _ _ hturns
    refine absurd hturns ?_
    simp only [turnsBehind, List.countP_nil]
    split <;> omega
  | cons first hs ih =>
    intro s front back r hopen hmail hturns
    have hlater : ∀ {s' : Session σ}, s'.hasEnded = false → ∀ more : List Request,
        s'.mailbox = front ++ r :: (back ++ more) → s'.wake = s.wake → first.isTurn = false →
          ∃ reply, (r.ticket, reply) ∈ (s'.afterAll a hs).answers := by
      intro s' hopen' more hmail' hwake hnot
      rw [List.countP_cons_of_neg (by simp [hnot])] at hturns
      exact ih hopen' hmail' (by rw [turnsBehind, hwake]; exact hturns)
    have hsame : s.mailbox = front ++ r :: (back ++ []) := by rw [List.append_nil, hmail]
    rw [afterAll]
    cases first with
    | send c =>
      simp only [happen, send, hopen, Bool.false_eq_true, if_false]
      split
      · exact hlater hopen [] hsame rfl rfl
      · exact hlater rfl [⟨s.sent, c⟩] (by simp [hmail]) rfl rfl
    | addHandle =>
      simp only [happen]
      split <;> exact hlater hopen [] hsame rfl rfl
    | dropHandle => exact hlater hopen [] hsame rfl rfl
    | tap => exact hlater hopen [] hsame rfl rfl
    | pass nanos => exact hlater hopen [] hsame rfl rfl
    | turn timerFirst =>
      have hturned := turned_turn a timerFirst s
      rw [List.countP_cons_of_pos rfl] at hturns
      simp only [happen]
      rcases hturned.approach hopen hmail with ⟨reply, hreply⟩ | ⟨hopen', front', hmail', hlt⟩
      · exact ⟨reply, (answers_suffix_afterAll a hs _).subset hreply⟩
      · exact ih hopen' hmail' (by omega)

end Session

/-! ### Processes are reported to stop -/

/-- Whether a signal reports the start of the process of a number. -/
def Signal.starts (pid : Nat) : Signal → Bool
  | .event (.processStarted info) => info.pid = pid
  | _ => false

/-- Whether a signal reports the end of the process of a number. -/
def Signal.stops (pid : Nat) : Signal → Bool
  | .event (.processStopped info) => info.pid = pid
  | _ => false

namespace Stage

/-- The number of the next process. -/
def next : Stage → Nat
  | .outside next => next
  | .inside pid | .halting pid => pid + 1

/-- The number of the process that lives, or of the next one. -/
def present : Stage → Nat
  | .outside next => next
  | .inside pid | .halting pid => pid

/-- **One more note** reports the start of the next process, or the end of the one that lives, or
leaves the process as it is. -/
lemma after?_cases {s s' : Stage} {n : Note} (h : s.after? n = some s') :
    (∃ info, n.signal = .event (.processStarted info) ∧ s = .outside info.pid ∧
        s' = .inside info.pid) ∨
      (∃ info, n.signal = .event (.processStopped info) ∧
        (s = .inside info.pid ∨ s = .halting info.pid) ∧ s' = .outside (info.pid + 1)) ∨
      s'.next = s.next ∧ s'.present = s.present ∧
        ∀ pid, n.signal.starts pid = false ∧ n.signal.stops pid = false := by
  obtain ⟨byStep, status, signal⟩ := n
  cases signal with
  | robot call =>
    refine .inr (.inr ⟨?_, ?_, fun pid => ⟨rfl, rfl⟩⟩) <;> cases s <;> cases call <;>
      simp only [after?] at h <;> grind [next, present]
  | poll tapped =>
    refine .inr (.inr ⟨?_, ?_, fun pid => ⟨rfl, rfl⟩⟩) <;> cases s <;>
      simp only [after?] at h <;> grind [next, present]
  | event event =>
    cases event with
    | processStarted info => cases s <;> simp only [after?] at h <;> grind
    | processStopped info => cases s <;> simp only [after?] at h <;> grind
    | _ =>
      refine .inr (.inr ⟨?_, ?_, fun pid => ⟨rfl, rfl⟩⟩) <;> cases s <;>
        simp only [after?] at h <;> grind [next, present]

/-- How often notes report the start and the end of a process, by the stages between which they lie.

**Proof sketch.** By induction on the notes. A start gives the next number, so that it counts
for the first number that is not below it; a stop is that of the process inside which the
automaton is. -/
lemma counts_afterAll? (pid : Nat) (notes : List Note) : ∀ {s s' : Stage},
    s.afterAll? notes = some s' →
      (notes.countP (fun n => n.signal.starts pid) + (if pid < s.next then 1 else 0) =
          if pid < s'.next then 1 else 0) ∧
        notes.countP (fun n => n.signal.stops pid) + (if pid < s.present then 1 else 0) =
          if pid < s'.present then 1 else 0 := by
  induction notes with
  | nil =>
    intro s s' h
    obtain rfl : s = s' := Option.some.inj h
    simp
  | cons n notes ih =>
    intro s s' h
    obtain ⟨s₁, hfirst, hrest⟩ := Option.bind_eq_some_iff.1 h
    obtain ⟨hstarts, hstops⟩ := ih hrest
    rw [List.countP_cons, List.countP_cons]
    rcases after?_cases hfirst with ⟨info, hn, rfl, rfl⟩ | ⟨info, hn, hs, rfl⟩ | ⟨h1, h2, hn⟩
    · simp only [hn, Signal.starts, Signal.stops, next, present] at hstarts hstops ⊢
      grind
    · rcases hs with rfl | rfl <;>
        simp only [hn, Signal.starts, Signal.stops, next, present] at hstarts hstops ⊢ <;> grind
    · obtain ⟨hno, hno'⟩ := hn pid
      rw [h1] at hstarts
      rw [h2] at hstops
      simpa [hno, hno'] using ⟨hstarts, hstops⟩

end Stage

/-- What is seen of operations is what is noted of them. -/
lemma map_signal_notes (a : Actuator σ) (m : Machine σ) (ops : List Operation) :
    ((m.record a ops).flatMap Entry.notes).map Note.signal = m.seen a ops := by
  rw [Machine.seen, List.map_flatMap]
  refine List.flatMap_congr fun e _ => ?_
  simp [Entry.notes, Function.comp_def]

/-- **Once.** When no process lives, each that was reported to start was reported to stop once.

**Proof sketch.** The stage automaton accepts the signals of all operations. It begins and ends
outside of a process, so each number has been started and stopped equally often, and no number is
given twice. -/
theorem countP_stops (a : Actuator σ) (config : MachineConfig) (robot : σ) (ops : List Operation)
    (h : ((Machine.start config robot).operateAll a ops).process = none) {info : ProcessInfo}
    (hinfo : .event (.processStarted info) ∈ (Machine.start config robot).seen a ops) :
    ((Machine.start config robot).seen a ops).countP (Signal.stops info.pid) = 1 := by
  have hlog := Machine.afterAll?_record a ops (.start config robot) rfl
  rw [Machine.stage_of_none h,
    show (Machine.start config robot).stage = .outside 1 from rfl] at hlog
  obtain ⟨hstarts, hstops⟩ := Stage.counts_afterAll? info.pid _ hlog
  have hcount : ∀ f : Signal → Bool, (((Machine.start config robot).record a ops).flatMap
      Entry.notes).countP (fun n => f n.signal) =
        ((Machine.start config robot).seen a ops).countP f := by
    intro f
    rw [← map_signal_notes, List.countP_map]
    rfl
  rw [hcount (Signal.starts info.pid)] at hstarts
  rw [hcount (Signal.stops info.pid)] at hstops
  have hpos := List.countP_pos_iff.2 ⟨_, hinfo, show Signal.starts info.pid _ = true by
    simp [Signal.starts]⟩
  simp only [Stage.next, Stage.present] at hstarts hstops
  grind

/-! ### The promise -/

namespace Session

/-- **Delivery.** What a session promises whatever happens to it. Requests are served in the order
in which they were sent, up to the first shutdown, and answered once; a reply is that of the
command. To the machine nothing is done but the operations of the requests served, in this order,
the steps, the taps and the shutdown at the end. When an instruction is executed, everything that
was sent before has been served. A request that waits is answered after enough turns. When the
session has ended, its machine is stopped, so it is published, and every process that was reported
to start was reported to stop once. -/
structure Delivers (a : Actuator σ) (s : Session σ) (hs : List Happening) : Prop where
  linear : (s.afterAll a hs).Linear (sentIn (s.history a hs)) (servedIn (s.history a hs))
  once : (s.afterAll a hs).answers.reverse.map Prod.fst ++
    (s.afterAll a hs).mailbox.map Request.ticket = List.range (s.afterAll a hs).sent
  replies : ∀ i ∈ s.history a hs, ∀ r reply, i.turn = some (.served r reply) →
    reply ≠ .refused .channelClosed ∧ ∃ rest, i.before.mailbox = r :: rest ∧
      reply = (({ i.before with mailbox := rest } : Session σ).handle a r.command).value
  applied : (s.afterAll a hs).machine =
    s.machine.operateAll a ((s.history a hs).flatMap Incident.operations)
  urgent : ∀ before i after, s.history a hs = before ++ i :: after →
    ∀ outcome, i.turn.bind Turn.outcome? = some outcome →
      sentIn before = (servedIn before).map Prod.fst
  patient : ∀ more, 2 * (s.afterAll a hs).mailbox.length ≤ more.countP Happening.isTurn →
    ∀ r ∈ (s.afterAll a hs).mailbox,
      ∃ reply, (r.ticket, reply) ∈ (s.afterAll a (hs ++ more)).answers
  stopped : (s.afterAll a hs).hasEnded = true →
    (s.afterAll a hs).machine.status = .stopped ∧ (s.afterAll a hs).published = .stopped ∧
      ∀ info, .event (.processStarted info) ∈ (s.history a hs).flatMap Incident.signals →
        ((s.history a hs).flatMap Incident.signals).countP (Signal.stops info.pid) = 1

/-- A new session has no requests. -/
lemma linear_start (config : MachineConfig) (robot : σ) : (start config robot).Linear [] [] :=
  ⟨rfl, fun _ => ⟨rfl, by simp⟩, fun h => absurd h (by simp [start]), rfl⟩

/-- Up to an instruction everything is served. -/
lemma Linear.urgent {sent : List Request} {served : List (Request × Reply)} {s : Session σ}
    (h : s.Linear sent served) {a : Actuator σ} {happening : Happening} {outcome : StepOutcome}
    (houtcome : (s.incident a happening).turn.bind Turn.outcome? = some outcome) :
    sent = served.map Prod.fst := by
  cases happening with
  | turn timerFirst =>
    obtain ⟨hopen, hmail, -⟩ := (turned_turn a timerFirst s).of_executed houtcome
    have hall := (h.waiting hopen).1
    rwa [hmail, List.append_nil] at hall
  | _ => exact absurd houtcome (by simp [incident, Session.happen])

end Session

/-- **Delivery.** A session that was started keeps its promise to those who send, whatever happens
to it: however many handles send and come and go, and however turns, taps and time come in
between. -/
theorem session_delivers (a : Actuator σ) (config : MachineConfig) (robot : σ)
    (hs : List Happening) : (Session.start config robot).Delivers a hs := by
  have hlinear : ∀ hs, ((Session.start config robot).afterAll a hs).Linear
      (sentIn ((Session.start config robot).history a hs))
      (servedIn ((Session.start config robot).history a hs)) := fun hs =>
    (Session.linear_start config robot).afterAll a hs
  have hconsistent := (Session.consistent_start config robot).afterAll a hs
  obtain ⟨hmachine, hsignals⟩ :=
    (Session.start config robot).afterAll_operations a hs
  refine ⟨hlinear hs, (hlinear hs).tickets_eq_range, ?_, hmachine, ?_, ?_, ?_⟩
  · intro i hi r reply hturn
    obtain ⟨hs₁, happening, hs₂, rfl, rfl⟩ := Session.exists_of_mem_history hi
    cases happening with
    | turn timerFirst =>
      obtain ⟨rest, hmail, rfl⟩ :=
        (Session.turned_turn a timerFirst _).of_served (Option.some.inj hturn)
      exact ⟨Session.handle_value_ne a _ _, rest, hmail, rfl⟩
    | _ => exact absurd hturn (by simp [Session.incident, Session.happen])
  · intro before i after heq outcome houtcome
    obtain ⟨hs₁, hs₂, rfl, rfl, hafter⟩ := Session.exists_of_history_eq_append a before _ heq
    cases hs₂ with
    | nil => exact absurd hafter (by simp [Session.history])
    | cons happening hs₂ =>
      obtain rfl := (List.cons.inj hafter).1
      exact (hlinear hs₁).urgent houtcome
  · intro more hturns r hr
    obtain ⟨front, back, hmail⟩ := List.append_of_mem hr
    have hopen : ((Session.start config robot).afterAll a hs).hasEnded = false := by
      by_contra hended
      have hnil := ((hlinear hs).ended (by simpa using hended)).1
      simp [hnil] at hmail
    rw [Session.afterAll_append]
    refine Session.exists_answer_of_turns a more hopen hmail ?_
    rw [hmail, List.length_append, List.length_cons] at hturns
    unfold Session.turnsBehind
    split <;> omega
  · intro hended
    obtain ⟨hnone, hstatus, hpublished⟩ := hconsistent.stopped hended
    refine ⟨hstatus, hpublished, fun info hinfo => ?_⟩
    rw [hmachine] at hnone
    rw [hsignals] at hinfo ⊢
    exact countP_stops a config robot _ hnone hinfo

end StickerBot
