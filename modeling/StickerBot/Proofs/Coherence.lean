import StickerBot.Proofs.Partners
import StickerBot.Proofs.Refusing
set_option autoImplicit false

/-!
# The parts of a session agree

A session keeps many things that depend on each other: the program with its links, the process with
its place and the rest of a wait, the status and the one that is published, and the wait in
progress. They agree all the time, whatever has happened, and also right after a command, when it
is answered. In particular a wait in progress always belongs to the process that lives, and to the
instruction that it has executed last: none is left over from a process that has ended.

## Main definitions

* `Machine.Strides` — all that an instruction can do to a process that goes on.
* `Machine.Settled` — what holds of the place and of the wait of a process.
* `Incident.executed`, `lastExecuted` — the instructions that a process has executed.
* `Session.WaitsLast` — a process that waits has executed a wait last.
* `Session.Steady` — what everything that happens keeps.
* `Session.Coherent` — what is promised of the parts of a session.

## Main results

* `Machine.strides_conclude` — where an instruction leaves its process.
* `Machine.Settled.operate` — operations keep a machine settled.
* `Session.Paced.waitsLast`, `Session.Turned.waitsLast` — a command or an instruction keeps this.
* `Session.Steady.afterAll`, `Session.Steady.handle` — a session stays steady.
* `session_coherent` — the parts of a session agree.

## Design

Which instruction was executed last can be told from the history of a session only. So what
everything that happens keeps is about a session and its past.
-/

namespace StickerBot

variable {σ : Type}

namespace Machine

variable {config : MachineConfig} {a : Actuator σ} {m : Machine σ} {p : Process}

/-! ### Where a process goes -/

/-- **Striding.** What an instruction has done to its process if that goes on. -/
structure Strides (m : Machine σ) (p : Process) (i : Instruction) (e : Effect σ StepOutcome)
    (q : Process) : Prop where
  machine : ∃ robot tapped, e.machine =
    { m with robot := robot, tapped := tapped, process := some q }
  pid : q.pid = p.pid
  pendingWait : q.pendingWait = p.pendingWait
  /-- It goes on at the next instruction, or along the link of a brace. -/
  place : q.pc = p.pc + 1 ∨
    ∃ place, m.partner? p.pc = some place ∧ (q.pc = place ∨ q.pc = place + 1)
  /-- It has to be waited for only after a wait. -/
  wait : e.value.wait?.isSome → ∃ units, i = .wait units

/-- **An instruction** ends its process, or leaves it where it may. The cases are those of the flow
of control: to the next place, to a wait behind which the next place comes, to the partner of a
brace, or to a fault. -/
theorem strides_conclude (a : Actuator σ) (hs : m.status = .running) (hp : m.process = some p)
    (i : Instruction) :
    ((conclude p (m.execute a p i)).value.wait? = none ∧
        ∃ robot tapped, (conclude p (m.execute a p i)).machine =
          { m with robot := robot, tapped := tapped, status := .stopped, process := none }) ∨
      ∃ q, m.Strides p i (conclude p (m.execute a p i)) q := by
  obtain ⟨⟨robot, tapped, values, hm⟩, -, -⟩ := execute_spec a hs hp i
  have hflow := m.flows_execute a p i
  generalize m.execute a p i = e at hm hflow
  obtain ⟨value, m', signals⟩ := e
  subst hm
  cases hflow with
  | next hi =>
    exact .inr ⟨_, ⟨robot, tapped, rfl⟩, rfl, rfl, .inl rfl, fun h => absurd h Bool.false_ne_true⟩
  | wait units => exact .inr ⟨_, ⟨robot, tapped, rfl⟩, rfl, rfl, .inl rfl, fun _ => ⟨units, rfl⟩⟩
  | leave c hpartner =>
    exact .inr ⟨_, ⟨robot, tapped, rfl⟩, rfl, rfl, .inr ⟨_, hpartner, .inr rfl⟩,
      fun h => absurd h Bool.false_ne_true⟩
  | back hpartner =>
    exact .inr ⟨_, ⟨robot, tapped, rfl⟩, rfl, rfl, .inr ⟨_, hpartner, .inl rfl⟩,
      fun h => absurd h Bool.false_ne_true⟩
  | stuck hi hpartner => exact .inl ⟨rfl, robot, tapped, rfl⟩
  | fault hf => exact .inl ⟨rfl, robot, tapped, rfl⟩

/-! ### Where a process stands -/

/-- **Settled.** Without a program there are no links. The process stands at an instruction of the
program or at its end, and keeps the rest of a wait only while it is paused. -/
structure Settled (m : Machine σ) : Prop where
  unlinked : m.program = none → m.jumps = []
  placed : ∀ prog p, m.program = some prog → m.process = some p → p.pc ≤ prog.instructions.length
  pending : ∀ p, m.process = some p → p.pendingWait.isSome → m.status = .paused

/-- The links of a program lead to its instructions. -/
lemma Linked.partner?_lt (h : m.Linked config) {prog : Program} (hprog : m.program = some prog)
    {i j : Nat} (hpartner : m.partner? i = some j) : j < prog.instructions.length := by
  rw [partner?, h.jumps prog hprog] at hpartner
  rcases (partner?_linkBlocks_iff _ i j).1 hpartner with hcloses | hcloses
  · obtain ⟨-, c, hc⟩ := hcloses.header_spec
    exact (List.getElem?_eq_some_iff.1 hc).1
  · exact (List.getElem?_eq_some_iff.1 hcloses.1).1

namespace Settled

/-- A machine without a process is settled if it forgets the links with the program. -/
lemma of_none (hprocess : m.process = none) (hunlinked : m.program = none → m.jumps = []) :
    m.Settled := by
  refine ⟨hunlinked, fun prog p _ hp => ?_, fun p hp => ?_⟩ <;>
    exact absurd (hprocess.symm.trans hp) (by simp)

/-- A process that is paused or resumed stays where it is. -/
lemma withWait (h : m.Settled) {rest : Option Nat} {status : Status}
    (hrest : rest.isSome → status = .paused) : Settled { m with
      process := m.process.map fun p => { p with pendingWait := rest }, status := status } := by
  refine ⟨h.unlinked, fun prog p' hprog hp' => ?_, fun p' hp' hpending => ?_⟩
  all_goals obtain ⟨p, hp, rfl⟩ := Option.map_eq_some_iff.1 hp'
  · exact h.placed prog p hprog hp
  · exact hrest hpending

/-- **Steps** keep a process within its program.

**Proof sketch.** A place that is reached by a link is that of an instruction or behind one, since
links lead to instructions only; the next place is at most the one behind the last. No rest of a
wait is left by an instruction. -/
lemma step (h : m.Settled) (hlinked : m.Linked config) (a : Actuator σ) :
    (m.step a).machine.Settled := by
  have hadvances := m.advances_step a
  generalize m.step a = e at hadvances
  cases hadvances with
  | idle hidle => exact h
  | ended hs hp hi => exact .of_none rfl h.unlinked
  | @concluded p i hs hp hi =>
    rcases strides_conclude a hs hp i with ⟨-, robot, tapped, hm⟩ | ⟨q, hstrides⟩
    · rw [hm]
      exact .of_none rfl h.unlinked
    · obtain ⟨robot, tapped, hm⟩ := hstrides.machine
      rw [hm]
      refine ⟨h.unlinked, fun prog q' hprog hq' => ?_, fun q' hq' hpending => ?_⟩
      all_goals obtain rfl : q = q' := Option.some.inj hq'
      · have hprog : m.program = some prog := hprog
        rw [instruction?, hprog, Option.bind_some] at hi
        have hpc : p.pc < prog.instructions.length := (List.getElem?_eq_some_iff.1 hi).1
        -- an instruction stands here and at the other end of a link, so the end is not passed
        rcases hstrides.place with hnext | ⟨place, hpartner, hplace⟩
        · omega
        · have hplace' := hlinked.partner?_lt hprog hpartner
          omega
      · rw [hstrides.pendingWait] at hpending
        exact absurd (hs.symm.trans (h.pending p hp hpending)) (by simp)

/-- **Operations** keep a machine settled. One case for each machine that an operation may leave.
Those without a process are settled at once, and a pause and a resume change nothing of it but the
rest of the wait. -/
theorem operate (h : m.Settled) (hlinked : m.Linked config) (a : Actuator σ) (op : Operation) :
    (m.operate a op).machine.Settled := by
  have hoperated := operated_operate a m op
  generalize (m.operate a op).machine = m' at hoperated
  cases hoperated with
  | kept robot tapped => exact ⟨h.unlinked, h.placed, h.pending⟩
  | halted robot => exact .of_none rfl h.unlinked
  | loaded robot prog => exact .of_none rfl (by rintro ⟨⟩)
  | cleared robot => exact .of_none rfl fun _ => rfl
  | launched robot hprogram =>
    -- a process begins at the first place, which every program has
    refine ⟨h.unlinked, fun prog p _ hp => ?_, fun p hp hpending => ?_⟩
    all_goals obtain rfl : Process.start m.nextPid = p := Option.some.inj hp
    · exact Nat.zero_le _
    · exact absurd hpending Bool.false_ne_true
  | paused rest hs => exact h.withWait fun _ => rfl
  | resumed hs => exact h.withWait (by simp)
  | stepped => exact h.step hlinked a

/-- A settled machine stays settled through any operations, by induction along them. That the links
of its program come from its own instructions is carried along, since each step needs it. -/
lemma operateAll (a : Actuator σ) (ops : List Operation) : ∀ {m : Machine σ},
    m.Settled → m.Linked config → (m.operateAll a ops).Settled := by
  induction ops with
  | nil => exact fun h _ => h
  | cons op ops ih => exact fun h hlinked => ih (h.operate hlinked a op) (hlinked.operate a op)

end Settled

end Machine

/-! ### What a process has executed -/

/-- The instruction that a process executes, if it does. -/
def Incident.executed (pid : Nat) (i : Incident σ) : Option Instruction :=
  if i.Executes pid then
    i.before.machine.process.bind fun p => i.before.machine.instruction? p.pc
  else none

/-- The last instruction that a process has executed. -/
def lastExecuted (pid : Nat) (past : List (Incident σ)) : Option Instruction :=
  (past.filterMap (Incident.executed pid)).getLast?

/-- Where a process executes nothing it has executed what it had before. -/
lemma lastExecuted_concat_of_none {pid : Nat} {past : List (Incident σ)} {i : Incident σ}
    (h : i.executed pid = none) : lastExecuted pid (past ++ [i]) = lastExecuted pid past := by
  simp [lastExecuted, h]

/-- Where a process executes an instruction, this is the last one that it has executed. -/
lemma lastExecuted_concat_of_some {pid : Nat} {past : List (Incident σ)} {i : Incident σ}
    {instruction : Instruction} (h : i.executed pid = some instruction) :
    lastExecuted pid (past ++ [i]) = some instruction := by
  simp [lastExecuted, h]

namespace Session

variable {s : Session σ} {past : List (Incident σ)}

/-- **Waiting last.** If there is a wait in progress, or the rest of one, then a process lives, and
the last instruction that it has executed is a wait. -/
def WaitsLast (s : Session σ) (past : List (Incident σ)) : Prop :=
  s.wake.isSome ∨ s.pending.isSome →
    ∃ p units, s.machine.process = some p ∧ lastExecuted p.pid past = some (.wait units)

/-- Only the number of the process matters, and whether it waits. -/
lemma WaitsLast.of_same {s' : Session σ} {past' : List (Incident σ)} (h : s.WaitsLast past)
    (hpid : s'.machine.process.map Process.pid = s.machine.process.map Process.pid)
    (hwaits : s'.wake.isSome ∨ s'.pending.isSome → s.wake.isSome ∨ s.pending.isSome)
    (hpast : ∀ pid, lastExecuted pid past' = lastExecuted pid past) : s'.WaitsLast past' := by
  intro hwaits'
  obtain ⟨p, units, hp, hlast⟩ := h (hwaits hwaits')
  obtain ⟨p', hp', hsame⟩ := Option.map_eq_some_iff.1 (hpid.trans (by rw [hp]; rfl))
  exact ⟨p', units, hp', by rw [hpast, hsame, hlast]⟩

/-- **Pace.** What is done without an instruction neither begins a wait nor leaves one to another
process.

**Proof sketch.** A pause hands what is left of the wait from the session to the process, and
resuming hands it back, so that one of the two waits exactly if it did before. An end and a launch
leave no wait at all. -/
theorem Paced.waitsLast {s' : Session σ} {signals : List Signal} (h : s.WaitsLast past)
    (hpaced : s.Paced s' signals) : s'.WaitsLast past := by
  cases hpaced with
  | kept hprocess hstatus hnext hwake hsignals =>
    exact h.of_same (by rw [hprocess]) (by rw [hwake, pending, hprocess]; exact id) fun _ => rfl
  | woken hprocess hs hstatus hnext hover hwake hsignals =>
    refine h.of_same (by rw [hprocess]) (fun hwaits => .inr ?_) fun _ => rfl
    simpa [hwake, pending, hprocess] using hwaits
  | paused hs hprocess hstatus hnext hwake hsignals =>
    -- the process keeps what is left of the wait in progress
    refine h.of_same (by simp [hprocess, Function.comp_def]) (fun hwaits => .inl ?_) fun _ => rfl
    cases hp : s.machine.process with
    | none => simp [hwake, pending, hprocess, hp] at hwaits
    | some p => simpa [hwake, pending, hprocess, hp, remaining] using hwaits
  | resumed hs hprocess hstatus hnext hwake hsignals =>
    -- and the session waits for what the process has kept
    refine h.of_same (by simp [hprocess, Function.comp_def]) (fun hwaits => .inr ?_) fun _ => rfl
    have hnone : s'.pending = none := by
      rw [pending, hprocess]
      cases s.machine.process <;> rfl
    simpa [hwake, hnone] using hwaits
  | ended hprocess hstatus hnext hwake hsignals =>
    exact fun hwaits => absurd hwaits (by simp [hwake, pending, hprocess])
  | launched hprocess hstatus hnext hwake hsignals =>
    exact fun hwaits => absurd hwaits (by simp [hwake, pending, hprocess, Process.start])

/-- **Instructions.** After an instruction a process waits only if that is a wait.

**Proof sketch.** A deadline is set only by the outcome of the instruction that was executed, and
only a wait has such an outcome. No rest of an earlier wait is kept while the process runs. -/
theorem Turned.waitsLast {a : Actuator σ} {e : SessionEffect σ Turn} (he : s.Turned a e)
    (hsettled : s.machine.Settled) (hsome : e.value.outcome?.isSome) {i : Incident σ}
    (hbefore : i.before = s) (hturn : i.turn = some e.value) :
    e.session.WaitsLast (past ++ [i]) := by
  cases he with
  | @executed hopen hmail hhandles hs hwake effect he turn houtcome sinceYield =>
    subst he
    intro hwaits
    have hadvances := s.machine.advances_step a
    generalize hstep : s.machine.step a = stepped at hadvances hwaits houtcome
    cases hadvances with
    | idle hidle =>
      have hnone : s.machine.process = none := hidle hs
      exact absurd hwaits (by simp [pending, Machine.answer, StepOutcome.wait?, hnone])
    | ended _ hp hi =>
      exact absurd hwaits (by simp [pending, Machine.endProcess, StepOutcome.wait?])
    | @concluded p instruction _ hp hi =>
      rcases Machine.strides_conclude a hs hp instruction with
        ⟨hnone, robot, tapped, hm⟩ | ⟨q, hstrides⟩
      · exact absurd hwaits (by simp [pending, hm, hnone])
      · obtain ⟨robot, tapped, hm⟩ := hstrides.machine
        -- no rest is kept while a process runs, so it is this instruction that it waits after
        have hnot : q.pendingWait = none := by
          rw [hstrides.pendingWait, ← Option.not_isSome_iff_eq_none]
          exact fun hsome => absurd (hs.symm.trans (hsettled.pending p hp hsome)) (by simp)
        obtain ⟨units, rfl⟩ : ∃ units, instruction = .wait units :=
          hstrides.wait (by simpa [pending, hm, hnot] using hwaits)
        have hexecuted : i.executed q.pid = some (.wait units) := by
          have hexecutes : i.Executes q.pid := by
            refine ⟨?_, ?_⟩
            · rw [Lives, hbefore, hp, hstrides.pid]
              rfl
            · rw [hturn]
              exact hsome
          rw [Incident.executed, if_pos hexecutes, hbefore, hp]
          exact hi
        exact ⟨q, units, by rw [hm], lastExecuted_concat_of_some hexecuted⟩
  | _ => exact absurd hsome Bool.false_ne_true

/-! ### Sessions and their past -/

/-- **Steady.** What everything that happens keeps, of a session and its past. -/
structure Steady (config : MachineConfig) (s : Session σ) (past : List (Incident σ)) : Prop where
  restful : s.Restful
  linked : s.machine.Linked config
  settled : s.machine.Settled
  waitsLast : s.WaitsLast past

/-- **Coherent.** What is promised of a session with a past. -/
structure Coherent (s : Session σ) (past : List (Incident σ)) : Prop where
  /-- There is a process exactly if the machine is not stopped. -/
  alive : s.machine.process.isSome ↔ s.machine.status ≠ .stopped
  /-- Without a program there is neither a process nor a link. -/
  unloaded : s.machine.program = none → s.machine.process = none ∧ s.machine.jumps = []
  /-- With a program the links are those of the program, and the process stands at one of its
  instructions or at its end. -/
  loaded : ∀ prog, s.machine.program = some prog →
    s.machine.jumps = linkBlocks prog.instructions ∧
      ∀ p, s.machine.process = some p → p.pc ≤ prog.instructions.length
  /-- The rest of a wait is kept only while the process is paused. -/
  pending : s.pending.isSome → s.machine.status = .paused
  /-- There is a wait in progress only while the process runs. -/
  asleep : s.wake.isSome → s.machine.status = .running
  /-- In both cases the last instruction that the process has executed is a wait. -/
  waitsLast : s.WaitsLast past
  /-- The status of the machine is the one that others see. -/
  published : s.published = s.machine.status

namespace Steady

variable {config : MachineConfig}

/-- A new session has nothing that could disagree. -/
lemma start (config : MachineConfig) (robot : σ) : Steady config (.start config robot) [] := by
  refine ⟨restful_start config robot, Machine.linked_start config robot,
    .of_none rfl fun _ => rfl, fun hwaits => ?_⟩
  exact absurd hwaits (by simp [pending, Session.start, Machine.start])

/-- **Happenings** keep a session steady. -/
theorem happen (h : s.Steady config past) (a : Actuator σ) (happening : Happening) :
    (s.happen a happening).session.Steady config (past ++ [s.incident a happening]) := by
  have hmachine := (s.happen_operations a happening).1
  refine ⟨h.restful.happen a happening, hmachine ▸ h.linked.operateAll a _,
    hmachine ▸ h.settled.operateAll a _ h.linked, ?_⟩
  have hquiet : ¬ ((s.happen a happening).value.bind Turn.outcome?).isSome → ∀ pid,
      lastExecuted pid (past ++ [s.incident a happening]) = lastExecuted pid past :=
    fun hnone pid => lastExecuted_concat_of_none (if_neg fun hexecutes => hnone hexecutes.2)
  cases h.restful.happened a happening with
  | passed nanos => exact h.waitsLast.of_same rfl id (hquiet Bool.false_ne_true)
  | executed timerFirst hsome =>
    exact (turned_turn a timerFirst s).waitsLast h.settled hsome rfl rfl
  | paced hpass hnone hpaced hclock =>
    exact (hpaced.waitsLast h.waitsLast).of_same rfl id (hquiet (by simp [hnone]))

/-- **Histories** keep a session steady. -/
theorem afterAll (a : Actuator σ) (hs : List Happening) : ∀ {s : Session σ}
    {past : List (Incident σ)}, s.Steady config past →
      (s.afterAll a hs).Steady config (past ++ s.history a hs) := by
  induction hs with
  | nil =>
    intro s past h
    rwa [history, List.append_nil]
  | cons first hs ih =>
    intro s past h
    have hlast := ih (h.happen a first)
    rwa [List.append_assoc] at hlast

/-- **Commands** keep a session steady that takes them. -/
theorem handle (h : s.Steady config past) (hopen : s.hasEnded = false) (a : Actuator σ)
    (c : Command) : (s.handle a c).session.Steady config past := by
  have hmachine := (handle_operations a s c).1
  have hpaced := paced_handle a h.restful c
  have hconsistent : (s.handle a c).session.Consistent := by
    refine ⟨hmachine ▸ h.restful.consistent.orderly.operateAll _,
      handle_published a s c h.restful.consistent.published, fun hended => ?_⟩
    rw [(handle_alike a s c).hasEnded, hopen] at hended
    exact absurd hended Bool.false_ne_true
  exact ⟨hpaced.restful h.restful hconsistent (hmachine ▸ h.restful.programmed.operateAll a _),
    hmachine ▸ h.linked.operateAll a _, hmachine ▸ h.settled.operateAll a _ h.linked,
    hpaced.waitsLast h.waitsLast⟩

/-- The parts of a steady session agree. Each field is one of the invariants, in the words of the
statement about sessions. -/
lemma coherent (h : s.Steady config past) : s.Coherent past := by
  have horderly := h.restful.consistent.orderly
  constructor
  · refine ⟨fun hsome => ?_, fun hs => ?_⟩
    · obtain ⟨p, hp⟩ := Option.isSome_iff_exists.1 hsome
      exact (horderly.of_some hp).1
    · exact Option.isSome_iff_exists.2 (horderly.exists_process hs)
  · refine fun hprog => ⟨?_, h.settled.unlinked hprog⟩
    rw [← Option.not_isSome_iff_eq_none]
    exact fun hsome => absurd (h.restful.programmed hsome) (by simp [hprog])
  · exact fun prog hprog => ⟨h.linked.jumps prog hprog, fun p => h.settled.placed prog p hprog⟩
  · intro hpending
    obtain ⟨rest, hrest⟩ := Option.isSome_iff_exists.1 hpending
    obtain ⟨p, hp, hrest⟩ := Option.bind_eq_some_iff.1 hrest
    exact h.settled.pending p hp (Option.isSome_of_mem hrest)
  · exact h.restful.asleep
  · exact h.waitsLast
  · exact h.restful.consistent.published

end Steady

end Session

/-- **The parts of a session agree**, whatever has happened to it: whatever requests were sent and
served, however much time has passed, and whenever waits were over and the sensor was tapped. They
agree whenever a session takes a request from its mailbox, and also right when it has answered one,
even if that is a shutdown and the session is about to end.

**Proof sketch.** No step leads a process out of its program, since links lead into it. Whatever is
done without an instruction hands a wait only from the session to its process and back, or forgets
it together with the process; and a wait that begins is that of the instruction just executed. -/
theorem session_coherent (a : Actuator σ) (config : MachineConfig) (robot : σ)
    (hs : List Happening) {s : Session σ} {past : List (Incident σ)}
    (hafter : s = (Session.start config robot).afterAll a hs)
    (hpast : past = (Session.start config robot).history a hs) :
    s.Coherent past ∧ (s.hasEnded = false → ∀ (c : Command) (mailbox : List Request),
      ({ s with mailbox := mailbox }.handle a c).session.Coherent past) := by
  have hsteady : s.Steady config past := by
    rw [hafter, hpast]
    exact (Session.Steady.start config robot).afterAll a hs
  refine ⟨hsteady.coherent, fun hopen c mailbox => ?_⟩
  have hsteady' : { s with mailbox := mailbox }.Steady config past :=
    ⟨hsteady.restful.congr rfl rfl rfl rfl, hsteady.linked, hsteady.settled, hsteady.waitsLast⟩
  exact (hsteady'.handle hopen a c).coherent

/-- A quarter of a nap, in the middle of which the sensor is tapped. -/
def quarterNap : List Happening :=
  [.send (.load (.ofInstructions [.assign "a" 1, .wait 20])), .turn true, .send .start, .turn true,
    .turn true, .turn true, .pass (4 * nanosPerMs), .tap, .pass (1 * nanosPerMs)]

/-- A pause keeps what is left of the nap with the process, and a restart forgets it. -/
theorem session_coherent_quarterNap :
    ∃ (s : Session Unit) (past : List (Incident Unit)),
      s = (Session.start {} ()).afterAll .still quarterNap ∧
        past = (Session.start {} ()).history .still quarterNap ∧
      s.wake = some (20 * nanosPerMs) ∧ lastExecuted 1 past = some (.wait 20) ∧ s.Coherent past ∧
      (s.handle .still .pause).session.pending = some (15 * nanosPerMs) ∧
      (s.handle .still .pause).session.Coherent past ∧
      (s.handle .still .restart).session.wake = none ∧
      (s.handle .still .restart).session.Coherent past := by
  let s := (Session.start {} ()).afterAll .still quarterNap
  let past := (Session.start {} ()).history .still quarterNap
  have hopen : s.hasEnded = false := by decide
  obtain ⟨hcoherent, hanswered⟩ := session_coherent .still {} () quarterNap (s := s) rfl rfl
  exact ⟨s, past, rfl, rfl, by decide, by decide, hcoherent, by decide, hanswered hopen .pause [],
    by decide, hanswered hopen .restart []⟩

end StickerBot
