import StickerBot.Proofs.Owing
set_option autoImplicit false

/-!
# No tap is lost or seen twice

Whatever is done with a machine, in whatever order, and whenever the sensor is tapped in between: a
question to the sensor is answered yes exactly if there was a tap since it was last asked and since
a process was last started. Only a start forgets a tap. So there are no more such answers than
taps, and a tap that comes while a process waits or is paused is told to it when it asks next.

## Main definitions

* `Touch`, `Machine.touches` — what happens to the sensor, in order.
* `Awaited` — a tap has come that no one has been told of.
* `Machine.AsksNext` — the next instruction asks the sensor.
* `Machine.Senses` — all that an operation can do to the sensor.
* `Machine.HeedsTaps` — what is promised of the taps of a run.

## Main results

* `Machine.senses_operate` — what an operation does to the sensor.
* `Machine.tapped_operateAll`, `Machine.answered_touches` — the sensor keeps the tap that is
  awaited, and questions are answered so.
* `taps_seen_once` — every run heeds its taps.

## Design

An operation touches the sensor at most once. A tap that comes in the middle of one comes before
or after that, so for the sensor it comes before or after the operation.
-/

namespace StickerBot

/-- **Touches.** What can happen to the sensor. -/
inductive Touch where
  /-- It is tapped. -/
  | tap
  /-- It is asked, and answers. -/
  | poll (tapped : Bool)
  /-- A process starts, and a tap from before is forgotten. -/
  | start
deriving DecidableEq, Repr

/-- What a signal tells of the sensor. -/
def Signal.touch? : Signal → Option Touch
  | .poll tapped => some (.poll tapped)
  | .event (.processStarted _) => some .start
  | _ => none

/-- What an operation does to the sensor. -/
def Entry.touches (e : Entry) : List Touch :=
  match e.operation with
  | .tap => [.tap]
  | _ => e.signals.filterMap Signal.touch?

/-- **Awaited.** A tap has come after the last question and after the last start. -/
def Awaited (touches : List Touch) : Prop :=
  ∃ before after, touches = before ++ .tap :: after ∧ ∀ t ∈ after, t = .tap

/-- Nothing is awaited at first. -/
lemma not_awaited_nil : ¬ Awaited [] := by
  rintro ⟨before, after, h, -⟩
  simp at h

/-- After a tap one is awaited, and after a question or a start none is. -/
lemma awaited_concat_iff {touches : List Touch} {t : Touch} :
    Awaited (touches ++ [t]) ↔ t = .tap := by
  constructor
  · rintro ⟨before, after, h, hafter⟩
    rcases List.eq_nil_or_concat' after with rfl | ⟨after, last, rfl⟩
    · exact List.singleton_inj.1 (List.append_inj_right' h rfl)
    · rw [← List.cons_append, ← List.append_assoc] at h
      obtain rfl : t = last := List.singleton_inj.1 (List.append_inj_right' h rfl)
      exact hafter t (by simp)
  · rintro rfl
    exact ⟨touches, [], rfl, by simp⟩

/-! ### Who asks the sensor -/

/-- Whether an instruction asks the sensor: a call that does, or the header of a loop that runs
until it was tapped. -/
def Instruction.asksSensor : Instruction → Bool
  | .call name _ | .loop (.sensorNotRaised name) =>
    (NativeAction.ofName? name).any NativeAction.isSensor
  | _ => false

namespace Machine

variable {σ : Type} {a : Actuator σ} {m : Machine σ}

/-- **Asking next.** A process runs whose next instruction asks the sensor. -/
def AsksNext (m : Machine σ) : Prop :=
  m.status = .running ∧ ∃ p i, m.process = some p ∧ m.instruction? p.pc = some i ∧
    i.asksSensor = true

/-- The sensor was asked exactly if this says so, and has told whether it was tapped. -/
def AnswersIf (m : Machine σ) (asks : Prop) (signals : List Signal) : Prop :=
  asks ∧ answersOf signals = [m.tapped] ∨ ¬ asks ∧ answersOf signals = []

/-- A call asks the sensor if it is one of the sensor. An unknown action is a fault without a
question, and every action but the sensor is performed by the robot, of which the signals hold no
answer. -/
lemma answersIf_callNative (a : Actuator σ) (m : Machine σ) (p : Process) (name : String)
    (arguments : List Int32) : m.AnswersIf ((Instruction.call name arguments).asksSensor = true)
      (m.callNative a p name arguments).signals := by
  change m.AnswersIf ((NativeAction.ofName? name).any NativeAction.isSensor = true) _
  unfold callNative
  split
  · rename_i hnone
    exact .inr ⟨by simp [hnone], rfl⟩
  · rename_i action hsome
    cases hsensor : action.isSensor with
    | true => exact .inl ⟨by simp [hsome, hsensor], rfl⟩
    | false =>
      refine .inr ⟨by simp [hsome, hsensor], ?_⟩
      rw [if_neg Bool.false_ne_true]
      dsimp only
      split <;> rfl

/-- A header asks the sensor if its loop runs until it was tapped. -/
lemma answersIf_holds (m : Machine σ) (p : Process) (c : Condition) :
    m.AnswersIf ((Instruction.loop c).asksSensor = true) (m.holds p c).signals := by
  cases c with
  | below x limit => exact .inr ⟨Bool.false_ne_true, m.answersOf_read p x⟩
  | sensorNotRaised sensor =>
    change m.AnswersIf ((NativeAction.ofName? sensor).any NativeAction.isSensor = true) _
    unfold holds
    dsimp only
    split
    · rename_i hnone
      exact .inr ⟨by simp [hnone], rfl⟩
    · rename_i action hsome
      cases hsensor : action.isSensor with
      | true => exact .inl ⟨by simp [hsome, hsensor], rfl⟩
      | false => exact .inr ⟨by simp [hsome, hsensor], rfl⟩

/-- An instruction is told whether the sensor was tapped exactly if it asks. One case for each
instruction: only the header of a loop and a call may ask, and whether they do can be told from the
instruction alone. -/
lemma answersIf_execute (a : Actuator σ) (m : Machine σ) (p : Process) (i : Instruction) :
    m.AnswersIf (i.asksSensor = true) (m.execute a p i).signals := by
  cases i with
  | call name arguments => exact m.answersIf_callNative a p name arguments
  | increment x n => exact .inr ⟨Bool.false_ne_true, m.answersOf_read p x⟩
  | loop c =>
    have hholds := m.answersIf_holds p c
    rcases hh : m.holds p c with ⟨_ | _ | _, m', signals⟩ <;> rw [hh] at hholds <;>
      simp only [execute, hh]
    · exact hholds
    · split <;> exact hholds
    · exact hholds
  | close =>
    simp only [execute]
    split <;> exact .inr ⟨Bool.false_ne_true, rfl⟩
  | _ => exact .inr ⟨Bool.false_ne_true, rfl⟩

/-- What an instruction comes to asks nothing more. -/
lemma answersOf_conclude (p : Process) (e : Effect σ (Except Fault Flow)) :
    answersOf (conclude p e).signals = answersOf e.signals := by
  rcases e with ⟨_ | _ | _ | _, m', signals⟩
  · simp [endProcess]
  all_goals rfl

/-- **Steps** ask the sensor exactly if their instruction does. Nothing is asked where no
instruction is executed, and there is an instruction to execute exactly if the machine is running
and its process is not at the end. -/
lemma answersIf_step (a : Actuator σ) (m : Machine σ) :
    m.AnswersIf m.AsksNext (m.step a).signals := by
  have hadvances := m.advances_step a
  generalize m.step a = e at hadvances
  cases hadvances with
  | idle hidle =>
    refine .inr ⟨?_, rfl⟩
    rintro ⟨hs, p, -, hp, -⟩
    exact absurd (hp.symm.trans (hidle hs)) (by simp)
  | @ended p hs hp hi =>
    refine .inr ⟨?_, rfl⟩
    rintro ⟨-, q, i, hq, hi', -⟩
    obtain rfl := Option.some.inj (hp.symm.trans hq)
    exact absurd (hi.symm.trans hi') (by simp)
  | @concluded p i hs hp hi =>
    have hasks : i.asksSensor = true ↔ m.AsksNext := by
      refine ⟨fun hasks => ⟨hs, p, i, hp, hi, hasks⟩, ?_⟩
      rintro ⟨-, q, i', hq, hi', hasks⟩
      obtain rfl := Option.some.inj (hp.symm.trans hq)
      obtain rfl := Option.some.inj (hi.symm.trans hi')
      exact hasks
    rw [AnswersIf, answersOf_conclude, ← hasks]
    exact m.answersIf_execute a p i

/-! ### What an operation does to the sensor -/

/-- What operations do to the sensor, one after the other. -/
def touches (a : Actuator σ) (m : Machine σ) (ops : List Operation) : List Touch :=
  (m.record a ops).flatMap Entry.touches

/-- **Sensing.** All that an operation can do to the sensor, and the machine after it. -/
inductive Senses (m m' : Machine σ) : Operation → List Touch → Prop where
  /-- It is a tap. -/
  | taps (htapped : m'.tapped = true) (hnext : m'.nextPid = m.nextPid) : Senses m m' .tap [.tap]
  /-- It is a step that asks. -/
  | asks (hasks : m.AsksNext) (htapped : m'.tapped = false) (hnext : m'.nextPid = m.nextPid) :
    Senses m m' .step [.poll m.tapped]
  /-- It starts a process. -/
  | starts {op : Operation} (hop : op = .start ∨ op = .restart) (htapped : m'.tapped = false)
    (hnext : m'.nextPid = m.nextPid + 1) : Senses m m' op [.start]
  /-- It leaves the sensor alone. -/
  | quiet {op : Operation} (hop : op ≠ .tap) (hquiet : op = .step → ¬ m.AsksNext)
    (htapped : m'.tapped = m.tapped) (hnext : m'.nextPid = m.nextPid) : Senses m m' op []

/-- Signals that start no process tell of the sensor what it has answered. -/
lemma filterMap_touch? {signals : List Signal} (h : ∀ x ∈ signals, x.isStart = false) :
    signals.filterMap Signal.touch? = (answersOf signals).map .poll := by
  rw [answersOf, List.map_filterMap]
  refine List.filterMap_congr fun x hx => ?_
  have hstart := h x hx
  unfold Signal.isStart at hstart
  unfold Signal.touch? Signal.answer?
  split <;> simp_all

/-- Stopping leaves the sensor alone. -/
lemma touches_stop (a : Actuator σ) (m : Machine σ) :
    (m.stop a).signals.filterMap Signal.touch? = [] ∧
      (m.stop a).machine.tapped = m.tapped ∧ (m.stop a).machine.nextPid = m.nextPid := by
  unfold stop
  split <;> exact ⟨rfl, rfl, rfl⟩

/-- Launching forgets a tap. -/
lemma touches_launch (a : Actuator σ) (m : Machine σ) :
    (m.launch a).signals.filterMap Signal.touch? = [.start] := by
  unfold launch
  cases a.isConnected m.robot <;> rfl

/-- What stops the machine and is no step leaves the sensor alone. -/
lemma Senses.of_stop {a : Actuator σ} {m m' : Machine σ} {op : Operation} {touches : List Touch}
    (htap : op ≠ .tap) (hstep : op ≠ .step) (htapped : m'.tapped = (m.stop a).machine.tapped)
    (hnext : m'.nextPid = (m.stop a).machine.nextPid)
    (htouches : touches = (m.stop a).signals.filterMap Signal.touch?) :
    m.Senses m' op touches := by
  obtain ⟨hnone, hkept, hsame⟩ := touches_stop a m
  rw [htouches, hnone]
  exact .quiet htap (fun h => absurd h hstep) (htapped.trans hkept) (hnext.trans hsame)

/-- **A step** asks the sensor or leaves it alone. If it asks, it forgets the tap, and otherwise the
sensor is what it was; and no step starts a process, so that all its touches are answers. -/
lemma senses_step (a : Actuator σ) (m : Machine σ) :
    m.Senses (m.step a).machine .step (m.entry a .step).touches := by
  have hstep := m.stepped_step a
  have hsame : (m.step a).machine.nextPid = m.nextPid := by
    generalize m.step a = e at hstep
    cases hstep <;> rfl
  have htouches : (m.entry a .step).touches = (answersOf (m.step a).signals).map .poll :=
    filterMap_touch? hstep.isStart_eq_false
  rw [htouches]
  rcases m.answersIf_step a with ⟨hasks, hanswers⟩ | ⟨hasks, hanswers⟩
  · have hforgets : (m.step a).machine.tapped = false := by
      simpa [Asks, hanswers] using m.asks_step a
    rw [hanswers]
    exact .asks hasks hforgets hsame
  · have hkeeps : (m.step a).machine.tapped = m.tapped := by
      simpa [Asks, hanswers] using m.asks_step a
    rw [hanswers]
    exact .quiet (by simp) (fun _ => hasks) hkeeps hsame

/-- **Operations** do one of these to the sensor. One case for each operation. Only a tap raises the
sensor; starting and restarting forget what it was; a step may ask it; and whatever else is done
leaves it alone. -/
theorem senses_operate (a : Actuator σ) (m : Machine σ) (op : Operation) :
    m.Senses (m.operate a op).machine op (m.entry a op).touches := by
  have hquiet : ∀ {op : Operation} {m' : Machine σ}, op ≠ .tap → op ≠ .step →
      m'.tapped = m.tapped → m'.nextPid = m.nextPid → m.Senses m' op [] :=
    fun htap hstep => .quiet htap fun h => absurd h hstep
  have hstart : ∀ {op : Operation} {m' : Machine σ} {touches : List Touch},
      op = .start ∨ op = .restart → touches = [.start] → m'.tapped = false →
      m'.nextPid = m.nextPid + 1 → m.Senses m' op touches := by
    rintro op m' _ hop rfl
    exact .starts hop
  cases op with
  | load p => exact .of_stop (by simp) (by simp) rfl rfl rfl
  | loadListing text =>
    simp only [entry, operate, loadListing]
    split
    · exact hquiet (by simp) (by simp) rfl rfl
    · exact .of_stop (by simp) (by simp) rfl rfl rfl
  | start =>
    simp only [entry, operate, startProcess]
    split
    · exact hquiet (by simp) (by simp) rfl rfl
    · split
      · exact hquiet (by simp) (by simp) rfl rfl
      · exact hstart (.inl rfl) (touches_launch a m) rfl rfl
  | restart =>
    simp only [entry, operate, restart]
    split
    · exact hquiet (by simp) (by simp) rfl rfl
    · obtain ⟨hnone, -, hnext⟩ := touches_stop a m
      refine hstart (.inr rfl) ?_ rfl (congrArg (· + 1) hnext)
      exact List.filterMap_append.trans (by rw [hnone, touches_launch]; rfl)
  | pause remaining =>
    simp only [entry, operate, pause]
    split <;> exact hquiet (by simp) (by simp) rfl rfl
  | resume =>
    simp only [entry, operate, resume]
    split <;> exact hquiet (by simp) (by simp) rfl rfl
  | stop => exact .of_stop (by simp) (by simp) rfl rfl rfl
  | clear => exact .of_stop (by simp) (by simp) rfl rfl rfl
  | connect address => exact hquiet (by simp) (by simp) rfl rfl
  | shutdown =>
    simp only [entry, operate, shutdown]
    split
    · refine .of_stop (by simp) (by simp) rfl rfl ?_
      exact List.filterMap_append.trans (List.append_nil _)
    · exact .of_stop (by simp) (by simp) rfl rfl rfl
  | step => exact senses_step a m
  | tap => exact .taps rfl rfl

/-! ### Runs -/

/-- The touches of operations in a row are those of the first one, and then those of the others on
the machine that it leaves. -/
lemma touches_cons (a : Actuator σ) (m : Machine σ) (op : Operation) (ops : List Operation) :
    m.touches a (op :: ops) = (m.entry a op).touches ++ (m.operate a op).machine.touches a ops :=
  List.flatMap_cons

/-- An operation keeps the tap that is awaited. -/
lemma Senses.tapped_iff {m' : Machine σ} {op : Operation} {touches past : List Touch}
    (h : m.Senses m' op touches) (hpast : m.tapped = true ↔ Awaited past) :
    m'.tapped = true ↔ Awaited (past ++ touches) := by
  cases h with
  | taps htapped hnext => simp [htapped, awaited_concat_iff]
  | asks hasks htapped hnext => simp [htapped, awaited_concat_iff]
  | starts hop htapped hnext => simp [htapped, awaited_concat_iff]
  | quiet hop hquiet htapped hnext => rw [htapped, List.append_nil, hpast]

/-- **The tap that is awaited** is kept by the sensor, whatever is done. -/
theorem tapped_operateAll (a : Actuator σ) (ops : List Operation) : ∀ {m : Machine σ}
    {past : List Touch}, (m.tapped = true ↔ Awaited past) →
      ((m.operateAll a ops).tapped = true ↔ Awaited (past ++ m.touches a ops)) := by
  induction ops with
  | nil =>
    intro m past hpast
    rw [show m.touches a [] = [] from rfl, List.append_nil]
    exact hpast
  | cons op ops ih =>
    intro m past hpast
    rw [touches_cons, ← List.append_assoc]
    exact ih ((senses_operate a m op).tapped_iff hpast)

/-- **Questions** are answered yes exactly if a tap is awaited.

**Proof sketch.** Induction along the operations. An operation touches the sensor at most once, and
if this is a question then it is answered with the tap that the sensor has kept. -/
theorem answered_touches (a : Actuator σ) (ops : List Operation) : ∀ {m : Machine σ}
    {past : List Touch}, (m.tapped = true ↔ Awaited past) → ∀ before tapped after,
      m.touches a ops = before ++ .poll tapped :: after →
        (tapped = true ↔ Awaited (past ++ before)) := by
  induction ops with
  | nil =>
    intro m past _ before tapped after h
    exact absurd (congrArg List.length h) (by simp [touches, record])
  | cons op ops ih =>
    intro m past hpast before tapped after h
    rw [touches_cons] at h
    have hsenses := senses_operate a m op
    have hlater := ih (hsenses.tapped_iff hpast)
    generalize (m.entry a op).touches = first at h hsenses hlater
    cases first with
    | nil =>
      rw [List.append_nil] at hlater
      exact hlater before tapped after h
    | cons t rest =>
      obtain rfl : rest = [] := by cases hsenses <;> rfl
      cases before with
      | nil =>
        obtain rfl : t = .poll tapped := (List.cons.inj h).1
        cases hsenses with
        | asks hasks htapped hnext => rwa [List.append_nil]
      | cons t' before =>
        obtain ⟨rfl, hrest⟩ := List.cons.inj h
        rw [List.append_cons]
        exact hlater before tapped after hrest

/-- Every answer that there was a tap is paid for by a tap. By induction along the operations. A
sensor that is raised counts like an answer that is still to be given, so that a poll only moves
what has been paid for. -/
lemma count_touches_le (a : Actuator σ) (ops : List Operation) : ∀ m : Machine σ,
    (m.touches a ops).count (.poll true) + (m.operateAll a ops).tapped.toNat ≤
      ops.count .tap + m.tapped.toNat := by
  induction ops with
  | nil => exact fun m => Nat.le_refl _
  | cons op ops ih =>
    intro m
    have hrest := ih (m.operate a op).machine
    rw [touches_cons, List.count_append, List.count_cons]
    have hsenses := senses_operate a m op
    have hfirst : (m.entry a op).touches.count (.poll true) +
        (m.operate a op).machine.tapped.toNat ≤ (if op == .tap then 1 else 0) + m.tapped.toNat := by
      generalize (m.entry a op).touches = touches at hsenses
      cases hsenses with
      | taps htapped hnext => simp [htapped]
      | asks hasks htapped hnext => cases m.tapped <;> simp [htapped]
      | starts hop htapped hnext => simp [htapped]
      | quiet hop hquiet htapped hnext => simp [htapped]
    rw [operateAll]
    omega

/-- The numbers of processes grow with each start. By induction along the operations: a start gives
the next number, and nothing else that is done to the sensor gives one. -/
lemma nextPid_operateAll (a : Actuator σ) (ops : List Operation) : ∀ m : Machine σ,
    (m.operateAll a ops).nextPid = m.nextPid + (m.touches a ops).count .start := by
  induction ops with
  | nil => exact fun _ => rfl
  | cons op ops ih =>
    intro m
    have hsenses := senses_operate a m op
    have hfirst : (m.operate a op).machine.nextPid =
        m.nextPid + (m.entry a op).touches.count .start := by
      generalize (m.entry a op).touches = touches at hsenses
      cases hsenses with
      | taps htapped hnext => simp [hnext]
      | asks hasks htapped hnext => simp [hnext]
      | starts hop htapped hnext => simp [hnext]
      | quiet hop hquiet htapped hnext => simp [hnext]
    rw [operateAll, ih, hfirst, touches_cons, List.count_append, Nat.add_assoc]

/-- While the same process lives none is started. -/
lemma start_not_mem_touches (h : m.Orderly) (a : Actuator σ) (ops : List Operation) {pid : Nat}
    (hbefore : m.process.map Process.pid = some pid)
    (hafter : (m.operateAll a ops).process.map Process.pid = some pid) :
    .start ∉ m.touches a ops := by
  have hnext : ∀ {m : Machine σ}, m.Orderly → m.process.map Process.pid = some pid →
      m.nextPid = pid + 1 := fun h hpid => by
    obtain ⟨p, hp, rfl⟩ := Option.map_eq_some_iff.1 hpid
    exact (h.of_some hp).2
  have hcount := nextPid_operateAll a ops m
  rw [hnext h hbefore, hnext (h.operateAll ops) hafter] at hcount
  exact List.count_eq_zero.1 (by omega)

/-- **Taps are heeded.** What is promised of the taps that come while operations are done with a
machine. -/
structure HeedsTaps (a : Actuator σ) (m : Machine σ) (ops : List Operation) : Prop where
  /-- A step asks the sensor exactly if its instruction does. -/
  asked : ∀ before after, ops = before ++ .step :: after →
    ((∃ tapped, .poll tapped ∈ ((m.operateAll a before).step a).signals) ↔
      (m.operateAll a before).AsksNext)
  /-- An operation touches the sensor at most once. -/
  once : ∀ e ∈ m.record a ops, e.touches.length ≤ 1
  /-- It is answered yes exactly if there was a tap after the last question and the last start. -/
  answered : ∀ before tapped after, m.touches a ops = before ++ .poll tapped :: after →
    (tapped = true ↔ Awaited before)
  /-- Such a tap is kept. -/
  kept : (m.operateAll a ops).tapped = true ↔ Awaited (m.touches a ops)
  /-- Only a start and a restart forget it. -/
  forgotten : ∀ e ∈ m.record a ops, .start ∈ e.touches →
    e.operation = .start ∨ e.operation = .restart
  /-- There are no more answers that there was a tap than taps. -/
  bounded : (m.touches a ops).count (.poll true) ≤ ops.count .tap
  /-- A tap that comes while a process lives, also while it waits or is paused, is told to it when
  it asks next. -/
  told : ∀ before between, ops = before ++ .tap :: between → ∀ pid,
    (m.operateAll a before).process.map Process.pid = some pid →
    (m.operateAll a ops).process.map Process.pid = some pid →
    (∀ tapped, .poll tapped ∉ ((m.operateAll a before).operate a .tap).machine.touches a between) →
    ∀ tapped, .poll tapped ∈ ((m.operateAll a ops).step a).signals → tapped = true

/-- The answers of the sensor are the signals that tell them. -/
lemma mem_answersOf_iff {tapped : Bool} {signals : List Signal} :
    tapped ∈ answersOf signals ↔ .poll tapped ∈ signals := by
  have hpoll : ∀ x : Signal, x.answer? = some tapped ↔ x = .poll tapped := fun x => by
    cases x <;> simp [Signal.answer?]
  simp [answersOf, hpoll]

/-- A step asks the sensor exactly if its instruction does. -/
lemma exists_poll_iff (a : Actuator σ) (m : Machine σ) :
    (∃ tapped, .poll tapped ∈ (m.step a).signals) ↔ m.AsksNext := by
  simp only [← mem_answersOf_iff]
  rcases m.answersIf_step a with ⟨hasks, hanswers⟩ | ⟨hasks, hanswers⟩
  · simp [hanswers, hasks]
  · simp [hanswers, hasks]

/-- A step is told whether the sensor was tapped. -/
lemma eq_tapped_of_poll {tapped : Bool} (h : .poll tapped ∈ (m.step a).signals) :
    tapped = m.tapped := by
  rw [← mem_answersOf_iff] at h
  rcases m.answersIf_step a with ⟨-, hanswers⟩ | ⟨-, hanswers⟩ <;> rw [hanswers] at h
  · exact List.mem_singleton.1 h
  · exact absurd h List.not_mem_nil

/-- An entry of a log is that of an operation after other ones. -/
lemma exists_of_mem_record (a : Actuator σ) (ops : List Operation) : ∀ {m : Machine σ} {e : Entry},
    e ∈ m.record a ops → ∃ (m' : Machine σ) (op : Operation), e = m'.entry a op := by
  induction ops with
  | nil => exact fun h => absurd h List.not_mem_nil
  | cons op ops ih =>
    intro m e h
    rcases List.mem_cons.1 h with rfl | h
    · exact ⟨m, op, rfl⟩
    · exact ih h

/-- A tap that comes while a process lives is kept until this process asks. -/
lemma tapped_of_tap (h : m.Orderly) (a : Actuator σ) (between : List Operation) {pid : Nat}
    (htapped : m.tapped = true) (hbefore : m.process.map Process.pid = some pid)
    (hafter : (m.operateAll a between).process.map Process.pid = some pid)
    (hunasked : ∀ tapped, .poll tapped ∉ m.touches a between) :
    (m.operateAll a between).tapped = true := by
  have hstart := start_not_mem_touches h a between hbefore hafter
  have htaps : ∀ t ∈ m.touches a between, t = .tap := fun t ht => by
    cases t with
    | tap => rfl
    | poll tapped => exact absurd ht (hunasked tapped)
    | start => exact absurd ht hstart
  have hpast : m.tapped = true ↔ Awaited [.tap] := iff_of_true htapped ⟨[], [], rfl, by simp⟩
  exact (tapped_operateAll a between hpast).2 ⟨[], _, rfl, htaps⟩

end Machine

/-- **No tap is lost or seen twice.** Whatever is done with a new machine, in whatever order and
with taps in between, its taps are heeded: a question to the sensor is answered yes exactly if there
was a tap after the last question and after the last start of a process.

**Proof sketch.** An operation does one of four things to the sensor: it taps it, asks it, starts a
process, or leaves it alone. In each case the sensor keeps a tap exactly if one is awaited. -/
theorem taps_seen_once {σ : Type} (a : Actuator σ) (config : MachineConfig) (robot : σ)
    (ops : List Operation) : (Machine.start config robot).HeedsTaps a ops := by
  have hnone : (Machine.start config robot).tapped = true ↔ Awaited [] :=
    iff_of_false Bool.false_ne_true not_awaited_nil
  constructor
  · exact fun before _ _ => Machine.exists_poll_iff a _
  · intro e he
    obtain ⟨m, op, rfl⟩ := Machine.exists_of_mem_record a ops he
    have hsenses := Machine.senses_operate a m op
    generalize (m.entry a op).touches = touches at hsenses ⊢
    cases hsenses <;> simp
  · exact fun before tapped after h => Machine.answered_touches a ops hnone before tapped after h
  · exact Machine.tapped_operateAll a ops hnone
  · intro e he hstart
    obtain ⟨m, op, rfl⟩ := Machine.exists_of_mem_record a ops he
    have hsenses := Machine.senses_operate a m op
    generalize (m.entry a op).touches = touches at hsenses hstart
    cases hsenses with
    | starts hop htapped hnext => exact hop
    | _ => simp at hstart
  · have hcount := Machine.count_touches_le a ops (.start config robot)
    have hfirst : (Machine.start config robot).tapped.toNat = 0 := rfl
    omega
  · rintro before between rfl pid hbefore hafter hunasked tapped hpoll
    rw [Machine.operateAll_append] at hafter hpoll
    have horderly : (Machine.start config robot).Orderly := rfl
    rw [Machine.eq_tapped_of_poll hpoll]
    exact Machine.tapped_of_tap ((horderly.operateAll before).operateAll [.tap]) a between rfl
      hbefore hafter hunasked

/-- A nap that is paused, with a tap before the start and one while the process is paused. -/
def pausedNap : List Operation :=
  [.load (.ofInstructions [.wait 20, .loop (.sensorNotRaised "getTouchSensor"), .close]), .tap,
    .start, .step, .pause (some 7), .tap, .resume]

/-- The second tap is told to the process when it asks, and the first one is forgotten. -/
theorem taps_seen_once_pausedNap :
    (Machine.start {} ()).touches .still pausedNap = [.tap, .start, .tap] ∧
      Awaited [.tap, .start, .tap] ∧
      .poll true ∈ (((Machine.start {} ()).operateAll .still pausedNap).step .still).signals := by
  have hheeds := taps_seen_once .still {} () pausedNap
  have htouches : (Machine.start {} ()).touches .still pausedNap = [.tap, .start, .tap] := by decide
  have hasks : ((Machine.start {} ()).operateAll .still pausedNap).AsksNext :=
    ⟨by decide, ⟨1, 1, .empty, none⟩, .loop (.sensorNotRaised "getTouchSensor"), by decide,
      by decide, by decide⟩
  have hkept := hheeds.kept
  rw [htouches] at hkept
  -- the pause is after the fifth operation, and nothing asks between the tap and the end
  obtain ⟨tapped, hpoll⟩ := (taps_seen_once .still {} () (pausedNap ++ [.step])).asked pausedNap []
    rfl |>.2 hasks
  have htold := hheeds.told (pausedNap.take 5) [.resume] rfl 1 (by decide) (by decide) (by decide)
    tapped hpoll
  exact ⟨htouches, hkept.1 (by decide), by rwa [htold] at hpoll⟩

end StickerBot
