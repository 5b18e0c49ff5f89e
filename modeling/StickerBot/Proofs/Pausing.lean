import StickerBot.Proofs.Refusing
set_option autoImplicit false

/-!
# Pausing is invisible

A run of a machine may be interrupted by pauses, as often and wherever somebody likes. Whatever is
done to no effect while the process is paused, the run goes on as if there had been no pause: its
own steps come to the same, the same is seen of them, taps are found where they would have been, and
at the end the machine is the same. Every pause hands back the rest of the wait that it was given.

## Main definitions

* `Move`, `Machine.play` — what is done in a run, and what it comes to.
* `Machine.transcript`, `Machine.afterMoves` — moves one after the other.
* `Aside`, `Stretch`, `interrupted` — runs with pauses.
* `Machine.Unpaused` — a machine between the stretches of such a run.

## Main results

* `Machine.asides_spec` — what is done while no process runs changes nothing but the sensor.
* `Machine.stretch_spec` — a pause is as nothing.
* `pausing_invisible` — so are all pauses of a run.

## Design

What somebody else does is marked in the moves, so that the run without pauses is what is left when
these moves are dropped, and what is seen of it is what is left of the transcript.
-/

namespace StickerBot

variable {σ : Type}

/-! ### Moves -/

/-- **Moves** of a run that may be interrupted. -/
inductive Move where
  /-- What the run does by itself: a start, a step or a tap. -/
  | own (op : Operation)
  | pause (rest : Option Nat)
  | resume
  /-- A step that is taken while the process is paused. -/
  | idle
  /-- A copy of the process is taken. -/
  | snapshot
  /-- A command that is to be refused. -/
  | futile (op : Operation)
deriving DecidableEq

namespace Move

/-- Whether the run makes a move by itself. -/
def isOwn : Move → Bool
  | .own _ => true
  | _ => false

/-- Whether a move is a command that is to be refused. -/
def isFutile : Move → Bool
  | .futile _ => true
  | _ => false

/-- The operation that a move is. Taking a copy is none. -/
def operation? : Move → Option Operation
  | .own op | .futile op => some op
  | .pause rest => some (.pause rest)
  | .resume => some .resume
  | .idle => some .step
  | .snapshot => none

end Move

/-- Whether an answer is a refusal. -/
def Answer.isRefusal : Answer → Bool
  | .refused _ => true
  | _ => false

/-- **Exchanges.** A move, what it was answered, and what was seen of it. -/
structure Exchange where
  move : Move
  answer : Answer
  signals : List Signal
deriving DecidableEq

namespace Machine

/-- **Playing** a move. -/
def play (a : Actuator σ) (m : Machine σ) (v : Move) : Effect σ Answer :=
  match v.operation? with
  | some op => (m.operate a op).withValue (m.reply a op)
  | none => m.answer (.copied m.snapshot)

/-- The exchange of a move. -/
def exchange (a : Actuator σ) (m : Machine σ) (v : Move) : Exchange :=
  ⟨v, (m.play a v).value, (m.play a v).signals⟩

/-- **The transcript** of moves one after the other. -/
def transcript (a : Actuator σ) (m : Machine σ) : List Move → List Exchange
  | [] => []
  | v :: vs => m.exchange a v :: transcript a (m.play a v).machine vs

/-- The machine after moves. -/
def afterMoves (a : Actuator σ) (m : Machine σ) : List Move → Machine σ
  | [] => m
  | v :: vs => afterMoves a (m.play a v).machine vs

/-- The transcript of moves in a row is that of the first ones, and then that of the others on the
machine that they leave. -/
lemma transcript_append (a : Actuator σ) (vs vs' : List Move) : ∀ m : Machine σ,
    m.transcript a (vs ++ vs') = m.transcript a vs ++ (m.afterMoves a vs).transcript a vs' := by
  induction vs with
  | nil => exact fun _ => rfl
  | cons v vs ih => exact fun m => congrArg _ (ih _)

/-- Moves in a row are the first ones and, on the machine that they leave, the others. -/
lemma afterMoves_append (a : Actuator σ) (vs vs' : List Move) : ∀ m : Machine σ,
    m.afterMoves a (vs ++ vs') = (m.afterMoves a vs).afterMoves a vs' := by
  induction vs with
  | nil => exact fun _ => rfl
  | cons v vs ih => exact fun m => ih _

end Machine

/-! ### Runs with pauses -/

/-- **Asides.** What is done between a pause and its end. -/
inductive Aside where
  | step
  | snapshot
  /-- A command that is to be refused. -/
  | command (op : Operation)
  | tap
deriving DecidableEq

/-- The move that an aside is. Only a tap belongs to the run. -/
def Aside.move : Aside → Move
  | .step => .idle
  | .snapshot => .snapshot
  | .command op => .futile op
  | .tap => .own .tap

/-- **Stretches** of a run: steps, taps, and pauses with all that is done meanwhile. -/
inductive Stretch where
  | step
  | tap
  | pausing (rest : Option Nat) (asides : List Aside)
deriving DecidableEq

/-- The moves of a stretch. -/
def Stretch.moves : Stretch → List Move
  | .step => [.own .step]
  | .tap => [.own .tap]
  | .pausing rest asides => .pause rest :: (asides.map Aside.move ++ [.resume])

/-- **An interrupted run**: a start, and stretches one after the other. Without its pauses it is the
run of its own moves. -/
def interrupted (stretches : List Stretch) : List Move :=
  .own .start :: stretches.flatMap Stretch.moves

namespace Machine

/-! ### What is done meanwhile -/

/-- Commands that are to be refused are refused. -/
def Refuses (a : Actuator σ) (m : Machine σ) (vs : List Move) : Prop :=
  ∀ x ∈ m.transcript a vs, x.move.isFutile = true → x.answer.isRefusal = true

/-- Exchanges that do not belong to a run: nothing is seen of them, and a step is idle. -/
def Silent (xs : List Exchange) : Prop :=
  ∀ x ∈ xs, x.move.isOwn = false → x.signals = [] ∧ (x.move = .idle → x.answer = .stepped .idle)

/-- Taps the sensor, or does not. -/
def tapIf (m : Machine σ) (b : Bool) : Machine σ := { m with tapped := m.tapped || b }

/-- The exchange of a tap. -/
def tapping : Exchange := ⟨.own .tap, .done, []⟩

/-- A further tap changes nothing about a sensor that was tapped: it keeps one tap, not their
number. -/
lemma tapIf_raise (m : Machine σ) (b : Bool) : m.raise.tapIf b = m.tapIf true := by
  simp [raise, tapIf]

/-- **Taps** are all that a run has of asides. By induction on the asides: a tap sets the sensor, as
often as it comes, and each of the taps leaves the same exchange in the transcript. -/
lemma taps_spec (a : Actuator σ) (asides : List Aside) : ∀ m : Machine σ,
    m.afterMoves a ((asides.map Aside.move).filter Move.isOwn) =
        m.tapIf (asides.any (· = .tap)) ∧
      m.transcript a ((asides.map Aside.move).filter Move.isOwn) =
        List.replicate (asides.count .tap) tapping := by
  induction asides with
  | nil => exact fun m => ⟨by simp [tapIf, afterMoves], rfl⟩
  | cons x asides ih =>
    intro m
    cases x with
    | tap =>
      obtain ⟨hmachine, htranscript⟩ := ih m.raise
      rw [tapIf_raise] at hmachine
      rw [List.any_cons, List.count_cons_self, List.replicate_succ]
      exact ⟨hmachine.trans (by simp), congrArg (tapping :: ·) htranscript⟩
    | _ => simpa [Aside.move, Move.isOwn] using ih m

/-- An aside that is no tap does nothing. A step is idle because nothing runs, a snapshot only
copies, and a command is refused by assumption; a refused operation has no effect. -/
lemma play_aside (a : Actuator σ) {m : Machine σ} (hs : m.status ≠ .running) {x : Aside}
    (hx : x ≠ .tap) (hrefused : x.move.isFutile = true → (m.play a x.move).value.isRefusal = true) :
    ∃ answer, m.play a x.move = ⟨answer, m, []⟩ ∧ (x.move = .idle → answer = .stepped .idle) := by
  cases x with
  | step =>
    refine ⟨.stepped .idle, ?_, fun _ => rfl⟩
    have hstep : m.step a = m.answer .idle := step_of_idle a fun h => absurd h hs
    simp only [Aside.move, play, Move.operation?, operate, reply, hstep]
    rfl
  | snapshot => exact ⟨_, rfl, by simp [Aside.move]⟩
  | command op =>
    have hreply : (m.reply a op).isRefusal = true := hrefused rfl
    cases h : m.reply a op with
    | refused error =>
      obtain ⟨hiff, hoperate⟩ := m.operate_of_refusal a op error
      refine ⟨.refused error, ?_, by simp [Aside.move]⟩
      simp only [Aside.move, play, Move.operation?, hoperate (hiff.1 h), h]
      rfl
    | _ => simp [h, Answer.isRefusal] at hreply
  | tap => exact absurd rfl hx

/-- **Asides.** What is done while no process runs changes nothing but the sensor, and nothing is
seen of it.

**Proof sketch.** By induction on the asides. A tap sets the sensor and belongs to the run as well,
and all others leave the machine as it is. -/
lemma asides_spec (a : Actuator σ) (asides : List Aside) : ∀ {m : Machine σ},
    m.status ≠ .running → m.Refuses a (asides.map Aside.move) →
      m.afterMoves a (asides.map Aside.move) = m.tapIf (asides.any (· = .tap)) ∧
      (m.transcript a (asides.map Aside.move)).filter (·.move.isOwn) =
        List.replicate (asides.count .tap) tapping ∧
      Silent (m.transcript a (asides.map Aside.move)) := by
  induction asides with
  | nil => exact fun _ _ => ⟨by simp [tapIf, afterMoves], rfl, by simp [Silent, transcript]⟩
  | cons x asides ih =>
    intro m hs hrefuses
    obtain ⟨hfirst, hrest⟩ := List.forall_mem_cons.1 hrefuses
    -- only a tap belongs to the run and changes the machine
    by_cases hx : x = .tap
    · subst hx
      obtain ⟨hmachine, htranscript, hsilent⟩ := ih (m := m.raise) hs hrest
      rw [tapIf_raise] at hmachine
      rw [List.any_cons, List.count_cons_self, List.replicate_succ]
      refine ⟨hmachine.trans (by simp), congrArg (tapping :: ·) htranscript, ?_⟩
      exact List.forall_mem_cons.2 ⟨by simp [exchange, Aside.move, Move.isOwn], hsilent⟩
    · obtain ⟨answer, hplay, hidle⟩ := play_aside a hs hx hfirst
      have hown : x.move.isOwn = false := by cases x <;> first | rfl | exact absurd rfl hx
      rw [hplay] at hrest
      obtain ⟨hmachine, htranscript, hsilent⟩ := ih hs hrest
      rw [List.map_cons, afterMoves, transcript, exchange, hplay,
        List.filter_cons_of_neg (by simp [hown]), List.any_cons, List.count_cons_of_ne hx]
      refine ⟨by simpa [hx] using hmachine, htranscript, ?_⟩
      exact List.forall_mem_cons.2 ⟨fun _ => ⟨rfl, hidle⟩, hsilent⟩

/-! ### Stretches -/

/-- **Unpaused.** No process is paused, and one that runs owes no rest of a wait. -/
structure Unpaused (m : Machine σ) : Prop where
  status : m.status ≠ .paused
  process : m.status = .running → ∃ p, m.process = some p ∧ p.pendingWait = none

/-- **As nothing.** Moves come to the same as those that a run makes by itself: the others leave no
trace, neither in what is answered to the run and seen of it, nor in the machine. -/
structure AsNothing (a : Actuator σ) (m : Machine σ) (vs : List Move) : Prop where
  machine : m.afterMoves a vs = m.afterMoves a (vs.filter Move.isOwn)
  transcript : (m.transcript a vs).filter (·.move.isOwn) = m.transcript a (vs.filter Move.isOwn)
  silent : Silent (m.transcript a vs)

/-- Moves after moves. -/
lemma AsNothing.append {a : Actuator σ} {m : Machine σ} {vs vs' : List Move}
    (h : m.AsNothing a vs) (h' : (m.afterMoves a vs).AsNothing a vs') :
    m.AsNothing a (vs ++ vs') := by
  refine ⟨?_, ?_, ?_⟩
  · rw [List.filter_append, afterMoves_append, afterMoves_append, h'.machine, h.machine]
  · rw [List.filter_append, transcript_append, transcript_append, List.filter_append,
      h'.transcript, h.transcript, h.machine]
  · rw [transcript_append]
    exact List.forall_mem_append.2 ⟨h.silent, h'.silent⟩

/-- A move that a run makes by itself. -/
lemma asNothing_own (a : Actuator σ) (m : Machine σ) (op : Operation) :
    m.AsNothing a [.own op] :=
  ⟨rfl, rfl, by simp [Silent, Machine.transcript, exchange, Move.isOwn]⟩

/-- In moves in a row the futile ones are refused exactly if those of the first part are, and those
of the second part are on the machine that the first part leaves. -/
lemma refuses_append {a : Actuator σ} {m : Machine σ} {vs vs' : List Move} :
    m.Refuses a (vs ++ vs') ↔ m.Refuses a vs ∧ (m.afterMoves a vs).Refuses a vs' := by
  rw [Refuses, transcript_append]
  exact List.forall_mem_append

/-- The moves of a pause that belong to the run are the taps. -/
lemma filter_pausing (rest : Option Nat) (asides : List Aside) :
    (Stretch.moves (.pausing rest asides)).filter Move.isOwn =
      (asides.map Aside.move).filter Move.isOwn := by
  rw [Stretch.moves, List.filter_cons_of_neg (by simp [Move.isOwn]), List.filter_append]
  simp [Move.isOwn]

/-- **A pause** is as nothing if its end undoes what its beginning has done, but for taps.

**Proof sketch.** The machine is paused, the asides change nothing but the sensor, and resuming
leads back to the machine from before with the sensor as it is by then. Taps are the only moves that
the run has too, and they lead there as well. -/
lemma asNothing_pausing (a : Actuator σ) {m paused : Machine σ} {rest : Option Nat}
    {asides : List Aside} {granted resumed : Answer}
    (hpause : m.play a (.pause rest) = ⟨granted, paused, []⟩) (hs : paused.status ≠ .running)
    (hresume : ∀ b, (paused.tapIf b).play a .resume = ⟨resumed, m.tapIf b, []⟩)
    (hrefuses : m.Refuses a (Stretch.moves (.pausing rest asides))) :
    m.AsNothing a (Stretch.moves (.pausing rest asides)) ∧
      ∃ inner, m.transcript a (Stretch.moves (.pausing rest asides)) =
        ⟨.pause rest, granted, []⟩ :: (inner ++ [⟨.resume, resumed, []⟩]) := by
  obtain ⟨hownMachine, hownTranscript⟩ := taps_spec a asides m
  -- what is done meanwhile is done to the paused machine, and only taps are left of it at the end
  have htranscript : m.transcript a (Stretch.moves (.pausing rest asides)) =
      ⟨.pause rest, granted, []⟩ :: paused.transcript a (asides.map Aside.move ++ [.resume]) := by
    rw [Stretch.moves, transcript, exchange, hpause]
  have hafter : m.afterMoves a (Stretch.moves (.pausing rest asides)) =
      paused.afterMoves a (asides.map Aside.move ++ [.resume]) := by
    rw [Stretch.moves, afterMoves, hpause]
  rw [Refuses, htranscript] at hrefuses
  have hmeanwhile := (refuses_append.1 (List.forall_mem_cons.1 hrefuses).2).1
  obtain ⟨hmachine, hasides, hsilent⟩ := asides_spec a asides hs hmeanwhile
  rw [transcript_append, hmachine, transcript, transcript, exchange, hresume] at htranscript
  rw [afterMoves_append, hmachine, afterMoves, afterMoves, hresume] at hafter
  refine ⟨⟨?_, ?_, ?_⟩, _, htranscript⟩
  · rw [hafter, filter_pausing, hownMachine]
  · rw [htranscript, filter_pausing, hownTranscript, List.filter_cons_of_neg (by simp [Move.isOwn]),
      List.filter_append, hasides]
    simp [Move.isOwn]
  · rw [htranscript]
    refine List.forall_mem_cons.2 ⟨by simp, List.forall_mem_append.2 ⟨hsilent, ?_⟩⟩
    simp

/-- **A pause** of a running process: it is granted, what is done meanwhile is as nothing, and at
its end the rest of the wait is handed back. -/
lemma pausing_running (a : Actuator σ) {m : Machine σ} (h : m.Unpaused) (hs : m.status = .running)
    (rest : Option Nat) (asides : List Aside)
    (hrefuses : m.Refuses a (Stretch.moves (.pausing rest asides))) :
    m.AsNothing a (Stretch.moves (.pausing rest asides)) ∧
      ∃ inner, m.transcript a (Stretch.moves (.pausing rest asides)) =
        ⟨.pause rest, .done, []⟩ :: (inner ++ [⟨.resume, .owed rest, []⟩]) := by
  obtain ⟨p, hp, hpending⟩ := h.process hs
  let paused : Machine σ :=
    { m with process := some { p with pendingWait := rest }, status := .paused }
  have hpause : m.play a (.pause rest) = ⟨.done, paused, []⟩ := by
    simp [paused, play, Move.operation?, operate, reply, pause, hs, hp, Effect.withValue,
      Answer.ofResult]
  have hresume : ∀ b, (paused.tapIf b).play a .resume = ⟨.owed rest, m.tapIf b, []⟩ := by
    intro b
    have hback : { p with pendingWait := none } = p := by rw [← hpending]
    simp [paused, play, Move.operation?, operate, reply, resume, tapIf, Effect.withValue,
      Answer.ofResult, hback, ← hp, ← hs]
  exact asNothing_pausing a hpause (by simp [paused]) hresume hrefuses

/-- **A pause** while no process runs is not granted, and what is done meanwhile is as nothing. -/
lemma pausing_stopped (a : Actuator σ) {m : Machine σ} (hs : m.status = .stopped)
    (rest : Option Nat) (asides : List Aside)
    (hrefuses : m.Refuses a (Stretch.moves (.pausing rest asides))) :
    m.AsNothing a (Stretch.moves (.pausing rest asides)) := by
  have hpause : m.play a (.pause rest) = ⟨.refused (m.refuse "pause"), m, []⟩ := by
    simp [play, Move.operation?, operate, reply, pause, hs, Effect.withValue, Answer.ofResult,
      answer]
  have hresume : ∀ b, (m.tapIf b).play a .resume =
      ⟨.refused (m.refuse "resume"), m.tapIf b, []⟩ := by
    intro b
    simp [play, Move.operation?, operate, reply, resume, tapIf, hs, Effect.withValue,
      Answer.ofResult, answer, refuse]
  exact (asNothing_pausing a hpause (by simp [hs]) hresume hrefuses).1

/-! ### Stretches one after the other -/

/-- A tap does not pause an unpaused machine: it touches neither the status nor the process. -/
lemma Unpaused.tapIf {m : Machine σ} (h : m.Unpaused) (b : Bool) : (m.tapIf b).Unpaused :=
  ⟨h.status, h.process⟩

/-- A stopped machine is unpaused, and so it is when it was started. -/
lemma unpaused_start (a : Actuator σ) {m : Machine σ} (hs : m.status = .stopped) :
    (m.play a (.own .start)).machine.Unpaused := by
  have hstopped : m.Unpaused := ⟨by simp [hs], by simp [hs]⟩
  simp only [play, Move.operation?, operate, Effect.withValue, startProcess]
  split
  · exact hstopped
  · split
    · exact hstopped
    · exact ⟨by simp [launch], fun _ => ⟨_, rfl, rfl⟩⟩

/-- **Steps** keep a machine unpaused. -/
lemma Unpaused.step {m : Machine σ} (h : m.Unpaused) (a : Actuator σ) :
    (m.step a).machine.Unpaused := by
  have hstepped := m.stepped_step a
  generalize m.step a = e at hstepped
  cases hstepped with
  | idle _ => exact h
  | finished p hs hp => exact ⟨by simp, by simp⟩
  | moved p hs hp =>
    obtain ⟨p', hp', hpending⟩ := h.process hs
    obtain rfl : p = p' := Option.some.inj (hp.symm.trans hp')
    exact ⟨h.status, fun _ => ⟨_, rfl, hpending⟩⟩
  | faulted p hs hp => exact ⟨by simp, by simp⟩

/-- **A stretch** comes to the same as its own moves, and keeps a machine unpaused. -/
lemma stretch_spec (a : Actuator σ) {m : Machine σ} (h : m.Unpaused) (stretch : Stretch)
    (hrefuses : m.Refuses a stretch.moves) :
    m.AsNothing a stretch.moves ∧ (m.afterMoves a stretch.moves).Unpaused := by
  cases stretch with
  | step => exact ⟨asNothing_own a m .step, h.step a⟩
  | tap => exact ⟨asNothing_own a m .tap, h.status, h.process⟩
  | pausing rest asides =>
    have hnothing : m.AsNothing a (Stretch.moves (.pausing rest asides)) := by
      cases hs : m.status with
      | running => exact (pausing_running a h hs rest asides hrefuses).1
      | paused => exact absurd hs h.status
      | stopped => exact pausing_stopped a hs rest asides hrefuses
    refine ⟨hnothing, ?_⟩
    rw [hnothing.machine, filter_pausing, (taps_spec a asides m).1]
    exact h.tapIf _

/-- **Stretches** come to the same as their own moves, and keep a machine unpaused. -/
lemma stretches_spec (a : Actuator σ) (stretches : List Stretch) : ∀ {m : Machine σ}, m.Unpaused →
    m.Refuses a (stretches.flatMap Stretch.moves) →
      m.AsNothing a (stretches.flatMap Stretch.moves) ∧
        (m.afterMoves a (stretches.flatMap Stretch.moves)).Unpaused := by
  induction stretches with
  | nil => exact fun h _ => ⟨⟨rfl, rfl, by simp [Silent, transcript]⟩, h⟩
  | cons stretch stretches ih =>
    intro m h hrefuses
    rw [List.flatMap_cons] at hrefuses ⊢
    obtain ⟨hfirst, hrest⟩ := refuses_append.1 hrefuses
    obtain ⟨hstretch, hnext⟩ := stretch_spec a h stretch hfirst
    obtain ⟨hstretches, hlast⟩ := ih hnext hrest
    exact ⟨hstretch.append hstretches, by rwa [afterMoves_append]⟩

/-- **A run** comes to the same as its own moves, and leaves a machine unpaused. -/
lemma interrupted_spec (a : Actuator σ) {m : Machine σ} (hs : m.status = .stopped)
    (stretches : List Stretch) (hrefuses : m.Refuses a (interrupted stretches)) :
    m.AsNothing a (interrupted stretches) ∧ (m.afterMoves a (interrupted stretches)).Unpaused := by
  obtain ⟨-, hrest⟩ := List.forall_mem_cons.1 hrefuses
  obtain ⟨hstretches, hlast⟩ := stretches_spec a stretches (unpaused_start a hs) hrest
  exact ⟨(asNothing_own a m .start).append hstretches, hlast⟩

end Machine

/-- **Pausing is invisible.** A run of a stopped machine that is interrupted by pauses comes to the
same as without them, whatever steps are taken, copies are made and commands are refused meanwhile,
and also if the sensor is tapped meanwhile. And every pause of a running process is granted, and
hands back the rest of the wait that it was given. -/
theorem pausing_invisible (a : Actuator σ) {m : Machine σ} (hs : m.status = .stopped)
    {stretches : List Stretch} (hrefuses : m.Refuses a (interrupted stretches)) :
    m.AsNothing a (interrupted stretches) ∧
      ∀ before rest asides after, stretches = before ++ .pausing rest asides :: after →
        (m.afterMoves a (interrupted before)).status = .running →
          ∃ inner, (m.afterMoves a (interrupted before)).transcript a
              (Stretch.moves (.pausing rest asides)) =
            ⟨.pause rest, .done, []⟩ :: (inner ++ [⟨.resume, .owed rest, []⟩]) := by
  refine ⟨(m.interrupted_spec a hs stretches hrefuses).1, ?_⟩
  rintro before rest asides after rfl hrunning
  have hsplit : interrupted (before ++ .pausing rest asides :: after) =
      interrupted before ++
        (Stretch.moves (.pausing rest asides) ++ after.flatMap Stretch.moves) := by
    simp [interrupted]
  rw [hsplit] at hrefuses
  obtain ⟨hbefore, hrest⟩ := Machine.refuses_append.1 hrefuses
  obtain ⟨-, hunpaused⟩ := m.interrupted_spec a hs before hbefore
  exact (Machine.pausing_running a hunpaused hrunning rest asides
    (Machine.refuses_append.1 hrest).1).2

/-- A nap and a loop that ends at a tap, with two pauses. The first one keeps seven milliseconds of
the nap, and meanwhile the sensor is tapped, and the machine steps, is looked at and refuses what it
is told. -/
def interruptedGame : List Stretch :=
  [.step, .pausing (some 7) [.step, .tap, .snapshot, .command .start, .command (.pause none)],
    .step, .pausing none [], .step, .step]

/-- A machine that is to play the game. -/
def gameMachine : Machine Unit :=
  ((Machine.start {} ()).load .still (.ofInstructions
    [.wait 20, .loop (.sensorNotRaised "getTouchSensor"), .close, .print "Up"])).machine

/-- The game is played as if it had not been interrupted: the tap during the first pause ends the
loop. -/
theorem pausing_invisible_game :
    gameMachine.status = .stopped ∧ gameMachine.Refuses .still (interrupted interruptedGame) ∧
      (gameMachine.transcript .still (interrupted interruptedGame)).flatMap Exchange.signals =
        [.event (.processStarted ⟨1, 0, .running⟩), .poll true,
          .event (.print ⟨1, 3, .running⟩ "Up"),
          .event (.processStopped ⟨1, 4, .stopped⟩)] ∧
      gameMachine.AsNothing .still (interrupted interruptedGame) ∧
      ∃ inner, (gameMachine.afterMoves .still (interrupted [.step])).transcript .still
          (Stretch.moves (.pausing (some 7)
            [.step, .tap, .snapshot, .command .start, .command (.pause none)])) =
        ⟨.pause (some 7), .done, []⟩ :: (inner ++ [⟨.resume, .owed (some 7), []⟩]) := by
  have hs : gameMachine.status = .stopped := by decide
  have hrefuses : gameMachine.Refuses .still (interrupted interruptedGame) := by
    unfold Machine.Refuses
    decide
  obtain ⟨hnothing, hpauses⟩ := pausing_invisible .still hs hrefuses
  have hrunning : (gameMachine.afterMoves .still (interrupted [.step])).status = .running := by
    decide
  exact ⟨hs, hrefuses, by decide, hnothing, hpauses [.step] _ _ _ rfl hrunning⟩

end StickerBot
