import StickerBot.Proofs.LifeCycle
import StickerBot.Proofs.Links
import StickerBot.Proofs.StructuredRun
set_option autoImplicit false

/-!
# Sound code runs without faults

A variable that is given a value right before the header of a loop has one all through the loop,
for the loop is only entered there. If a program reads no other variables, calls what the robot
knows, asks sensors and closes only loops that are open, then all that can go wrong in a run is
that a loop is left that is never closed.

## Main definitions

* `Assured` — variables that are sure to have a value at a place.
* `SoundCode` — programs in which each instruction finds what it needs.
* `Machine.Guarded` — every variable that is sure to have a value has one.
* `Fault.Allowed` — what may go wrong.

## Main results

* `Machine.guarded_step` — a step keeps a machine guarded, and goes wrong only as it may.
* `Machine.guarded_record` — so do operations one after the other that load nothing.
-/

namespace StickerBot

/-! ### Sound code -/

/-- Right before a header a variable is given a value. -/
def CountsWith (is : List Instruction) (header : Nat) (x : String) : Prop :=
  ∃ before n, header = before + 1 ∧ is[before]? = some (.assign x n)

/-- **Assured.** A variable is sure to have a value at a place: it is given one right before the
place or right before the header of a loop around it. -/
def Assured (is : List Instruction) (place : Nat) (x : String) : Prop :=
  ∃ header ∈ place :: openAt is place, CountsWith is header x

/-- **Sound instructions** find what they need at their place: an action or a sensor of their
name, a value of their variable, or a loop to close. -/
def Instruction.SoundAt (is : List Instruction) (place : Nat) : Instruction → Prop
  | .call name _ => ∃ b : NativeAction, name = b.name
  | .loop (.sensorNotRaised sensor) => ∃ b : NativeAction, sensor = b.name ∧ b.isSensor = true
  | .loop (.below x _) | .increment x _ => Assured is place x
  | .close => openAt is place ≠ []
  | _ => True

/-- **Sound code.** Every instruction is sound. -/
def SoundCode (is : List Instruction) : Prop :=
  ∀ (place : Nat) (i : Instruction), is[place]? = some i → i.SoundAt is place

section Assured

variable {is : List Instruction} {place closing header : Nat} {x : String}

/-- What is assured behind an instruction was assured before it, or is assigned by it. -/
lemma Assured.of_succ {i : Instruction} (hi : is[place]? = some i)
    (h : Assured is (place + 1) x) : Assured is place x ∨ ∃ n, i = .assign x n := by
  obtain ⟨header, hmem, hcounts⟩ := h
  rw [openAt_succ hi] at hmem
  rcases List.mem_cons.1 hmem with rfl | hmem
  · obtain ⟨before, n, heq, hn⟩ := hcounts
    obtain rfl := Nat.succ.inj heq
    exact .inr ⟨n, Option.some.inj (hi.symm.trans hn)⟩
  · refine .inl ⟨header, ?_, hcounts⟩
    cases i with
    | loop c => exact hmem
    | close => exact List.mem_cons_of_mem _ (List.mem_of_mem_tail hmem)
    | _ => exact List.mem_cons_of_mem _ hmem

/-- What is assured behind a loop is assured at its header. -/
lemma Assured.of_exit (hclose : Closes is closing header) (h : Assured is (closing + 1) x) :
    Assured is header x := by
  obtain ⟨other, hmem, hcounts⟩ := h
  rw [hclose.openAt_succ] at hmem
  rcases List.mem_cons.1 hmem with rfl | hmem
  · obtain ⟨before, n, heq, hn⟩ := hcounts
    obtain rfl := Nat.succ.inj heq
    exact absurd (hclose.1.symm.trans hn) (by simp)
  · exact ⟨other, List.mem_cons_of_mem _ hmem, hcounts⟩

/-- What is assured at a header is assured where its loop is closed. -/
lemma Assured.of_back (hclose : Closes is closing header) (h : Assured is header x) :
    Assured is closing x := by
  obtain ⟨other, hmem, hcounts⟩ := h
  exact ⟨other, List.mem_cons_of_mem _ (by rwa [hclose.openAt_eq]), hcounts⟩

/-- At the beginning nothing is assured. -/
lemma not_assured_zero : ¬ Assured is 0 x := by
  rintro ⟨header, hmem, before, n, rfl, -⟩
  simp [openAt] at hmem

end Assured

/-! ### What may go wrong -/

/-- **Allowed faults.** An action of the robot may answer with a status, and a loop may be left
that is never closed. -/
inductive Fault.Allowed (is : List Instruction) : Fault → Prop where
  | status (b : NativeAction) (n : Int32) : Allowed is (.nativeStatus b.name n)
  | jump {place : Nat} (h : place ∈ unclosed is) : Allowed is (.unresolvableJump place)

/-- An error that is reported is an allowed fault. -/
def Signal.Tells (is : List Instruction) (s : Signal) : Prop :=
  ∀ info text, s = .event (.error info text) → ∃ f, Fault.Allowed is f ∧ text = f.message

/-- Allowed faults may be reported. -/
lemma Signal.tells_error {is : List Instruction} {f : Fault} (hf : f.Allowed is)
    (info : ProcessInfo) : Signal.Tells is (.event (.error info f.message)) := by
  intro info' text heq
  obtain ⟨-, rfl⟩ := Event.error.inj (Signal.event.inj heq)
  exact ⟨f, hf, rfl⟩

/-- A step that ends by a fault has left a loop that is never closed. -/
def StepOutcome.EndsWell (is : List Instruction) (o : StepOutcome) : Prop :=
  ∀ f, o = .faulted f → ∃ place ∈ unclosed is, f = .unresolvableJump place

namespace Machine

variable {σ : Type}

/-- **Guarded.** The machine has loaded a program of these instructions, or none, and every
variable that is sure to have a value at the place of the process has one. -/
structure Guarded (is : List Instruction) (m : Machine σ) : Prop where
  program : ∀ p, m.program = some p → p.instructions = is ∧ m.jumps = linkBlocks is
  assured : ∀ p, m.process = some p → ∀ x, Assured is p.pc x → (p.values.get? x).isSome

/-- **Guarded effects.** The machine is guarded afterwards, and only allowed faults were
reported. -/
structure GuardedEffect (is : List Instruction) {α : Type} (e : Effect σ α) : Prop where
  machine : e.machine.Guarded is
  signals : ∀ s ∈ e.signals, s.Tells is

/-- **Guarded steps.** Moreover a step ended, if it did, as it may. -/
structure GuardedStep (is : List Instruction) (e : Effect σ StepOutcome) : Prop
    extends GuardedEffect is e where
  outcome : e.value.EndsWell is

section Step

variable {is : List Instruction} {m m' : Machine σ} {p : Process}

/-- A machine without a process whose program is the same is guarded. -/
lemma Guarded.of_none (h : m.Guarded is) (hprogram : m'.program = m.program)
    (hjumps : m'.jumps = m.jumps) (hprocess : m'.process = none) : m'.Guarded is :=
  ⟨fun p hp => by rw [hjumps]; exact h.program p (hprogram.symm.trans hp),
    fun p hp => by simp [hprocess] at hp⟩

/-- A machine whose process goes to another place is guarded if what is assured there has a
value. -/
lemma Guarded.land (h : m.Guarded is) (hprogram : m'.program = m.program)
    (hjumps : m'.jumps = m.jumps) (p' : Process) (hprocess : m'.process = some p')
    (hassured : ∀ x, Assured is p'.pc x → (p'.values.get? x).isSome) : m'.Guarded is := by
  refine ⟨fun q hq => by rw [hjumps]; exact h.program q (hprogram.symm.trans hq), ?_⟩
  intro q hq
  obtain rfl := Option.some.inj (hprocess.symm.trans hq)
  exact hassured

/-- A variable that is assured is read without a report. -/
lemma Guarded.read_eq (h : m.Guarded is) (hp : m.process = some p) {x : String}
    (hx : Assured is p.pc x) : ∃ n, m.read p x = (n, []) := by
  obtain ⟨n, hn⟩ := Option.isSome_iff_exists.1 (h.assured p hp x hx)
  exact ⟨n, by simp [read, hn]⟩

/-- The instructions of a guarded machine. -/
lemma Guarded.instruction_spec (h : m.Guarded is) {place : Nat} {i : Instruction}
    (hi : m.instruction? place = some i) : is[place]? = some i ∧ m.jumps = linkBlocks is := by
  obtain ⟨p, hp, hget⟩ := Option.bind_eq_some_iff.1 hi
  obtain ⟨rfl, hjumps⟩ := h.program p hp
  exact ⟨hget, hjumps⟩

/-- Going on at the next place. -/
lemma Guarded.next (h : m.Guarded is) (hp : m.process = some p) {i : Instruction}
    (hi : is[p.pc]? = some i) (hquiet : ∀ x n, i ≠ .assign x n) (robot : σ) (tapped : Bool) :
    ({ m with robot := robot, tapped := tapped }.goto (p.pc + 1)).Guarded is := by
  refine h.land rfl rfl { p with pc := p.pc + 1 } (by simp [goto, hp]) fun x hx => ?_
  rcases hx.of_succ hi with hx | ⟨n, rfl⟩
  · exact h.assured p hp x hx
  · exact absurd rfl (hquiet x n)

/-- Going on at the next place after a variable was given a value. -/
lemma Guarded.write (h : m.Guarded is) (hp : m.process = some p) {i : Instruction}
    (hi : is[p.pc]? = some i) {x : String} (hwrites : ∀ y n, i = .assign y n → y = x)
    (n : Int32) : ((m.write p x n).goto (p.pc + 1)).Guarded is := by
  refine h.land rfl rfl { p with values := p.values.insert x n, pc := p.pc + 1 }
    (by simp [goto, Machine.write]) fun y hy => ?_
  by_cases hxy : y = x
  · subst hxy
    simp
  · rw [Table.get?_insert_of_ne _ _ hxy]
    rcases hy.of_succ hi with hy | ⟨k, rfl⟩
    · exact h.assured p hp y hy
    · exact absurd (hwrites y k rfl) hxy

/-- Going on where everything assured was assured before. -/
lemma Guarded.jump (h : m.Guarded is) (hp : m.process = some p) {target : Nat}
    (htarget : ∀ x, Assured is target x → Assured is p.pc x) (tapped : Bool) :
    ({ m with tapped := tapped }.goto target).Guarded is :=
  h.land rfl rfl { p with pc := target } (by simp [goto, hp])
    fun x hx => h.assured p hp x (htarget x hx)

/-- Effects in which nothing goes wrong. -/
lemma GuardedStep.of_goesOn {e : Effect σ StepOutcome} (hm : e.machine.Guarded is)
    (hsignals : ∀ s ∈ e.signals, s.Tells is) (ho : StepOutcome.goesOn e.value = true) :
    GuardedStep is e := by
  refine ⟨⟨hm, hsignals⟩, fun f hf => ?_⟩
  rw [hf] at ho
  exact absurd ho (by simp [StepOutcome.goesOn])

/-- A loop is gone through, or left if there is no further pass. A loop that is never closed
cannot be left. -/
lemma guardedStep_loop (h : m.Guarded is) (hp : m.process = some p) (a : Actuator σ)
    {c : Condition} (hi : m.instruction? p.pc = some (.loop c)) {goesRound tapped : Bool}
    {signals : List Signal} (hsignals : ∀ s ∈ signals, s.Tells is)
    (hholds : m.holds p c = ⟨.ok goesRound, { m with tapped := tapped }, signals⟩) :
    GuardedStep is (conclude p (m.execute a p (.loop c))) := by
  obtain ⟨hget, hjumps⟩ := h.instruction_spec hi
  rw [execute, hholds]
  cases goesRound with
  | true => exact .of_goesOn (h.next hp hget (by simp) m.robot tapped) hsignals rfl
  | false =>
    have hiff := fun j => partner?_linkBlocks_iff is p.pc j
    have hnot : ∀ j, ¬ Closes is p.pc j := fun j hj =>
      absurd (hget.symm.trans hj.1) (by simp)
    dsimp only
    cases hpartner : { m with tapped := tapped }.partner? p.pc with
    | some closing =>
      have hlink : ((linkBlocks is)[p.pc]?).join = some closing := by
        rw [← hjumps]
        exact hpartner
      have hclose := ((hiff closing).1 hlink).resolve_left (hnot closing)
      exact .of_goesOn (h.jump hp (fun x => Assured.of_exit hclose) tapped) hsignals rfl
    | none =>
      have hlink : ((linkBlocks is)[p.pc]?).join = none := by
        rw [← hjumps]
        exact hpartner
      have hopen : p.pc ∈ unclosed is := mem_unclosed_iff.2 ⟨⟨c, hget⟩,
        fun closing hclose => by simp [(hiff closing).2 (.inr hclose)] at hlink⟩
      refine ⟨⟨h.of_none rfl rfl rfl, fun s hs => ?_⟩, ?_⟩
      · rcases List.mem_append.1 hs with hs | hs
        · exact hsignals s hs
        · rcases List.mem_cons.1 hs with rfl | hs
          · exact Signal.tells_error (.jump hopen) _
          · obtain rfl := List.mem_singleton.1 hs
            simp [Signal.Tells]
      · rintro f hf
        exact ⟨p.pc, hopen, (StepOutcome.faulted.inj hf).symm⟩

/-- Signals of a call: the action may answer with a status. A status that is not zero is reported as
an error, but it does not end the process, and no other error can come of a call. -/
lemma guardedStep_call (h : m.Guarded is) (hp : m.process = some p) (a : Actuator σ)
    (b : NativeAction) (arguments : List Int32)
    (hget : is[p.pc]? = some (.call b.name arguments)) :
    GuardedStep is (conclude p (m.callNative a p b.name arguments)) := by
  have hnext := h.next hp hget (by simp)
  unfold callNative
  rw [NativeAction.ofName?_name]
  dsimp only
  split
  · exact .of_goesOn (hnext m.robot false) (by simp [Signal.Tells]) rfl
  · refine .of_goesOn (hnext _ m.tapped) ?_ rfl
    rw [conclude_next]
    dsimp only
    have hquiet : ∀ s ∈
        [Signal.event (.print (m.info p) (Instruction.call b.name arguments).render),
          .robot (.perform b arguments)], s.Tells is := by simp [Signal.Tells]
    split
    · exact hquiet
    · intro s hs
      rcases List.mem_append.1 (show s ∈ [_, _] ++ [_] from hs) with hs | hs
      · exact hquiet s hs
      · obtain rfl := List.mem_singleton.1 hs
        exact Signal.tells_error (.status b _) _

/-- **Instructions.** A sound instruction keeps a machine guarded.

**Proof sketch.** A variable that it reads is assured. Where the process goes on nothing is
assured that was not assured before, but for what the instruction assigns: behind a loop is
assured what is assured at its header, and there what is assured where it is closed. -/
lemma guardedStep_conclude (h : m.Guarded is) (hp : m.process = some p) (a : Actuator σ)
    {i : Instruction} (hi : m.instruction? p.pc = some i) (hsound : i.SoundAt is p.pc) :
    GuardedStep is (conclude p (m.execute a p i)) := by
  obtain ⟨hget, hjumps⟩ := h.instruction_spec hi
  cases i with
  | call name arguments =>
    obtain ⟨b, rfl⟩ := hsound
    exact guardedStep_call h hp a b arguments hget
  | wait units =>
    exact .of_goesOn (h.next hp hget (by simp) m.robot m.tapped) (by simp [execute, answer]) rfl
  | assign x n =>
    exact .of_goesOn (h.write hp hget (by simp +contextual) n) (by simp [execute]) rfl
  | increment x n =>
    obtain ⟨old, hread⟩ := h.read_eq hp hsound
    rw [execute, hread]
    exact .of_goesOn (h.write hp hget (by simp) _) (by simp) rfl
  | loop c =>
    cases c with
    | below x limit =>
      obtain ⟨n, hread⟩ := h.read_eq hp hsound
      have hholds : m.holds p (.below x limit) =
          ⟨.ok (decide (n < limit)), { m with tapped := m.tapped }, []⟩ := by rw [holds, hread]
      exact guardedStep_loop h hp a hi (by simp) hholds
    | sensorNotRaised sensor =>
      obtain ⟨b, rfl, hsensor⟩ := hsound
      have hholds : m.holds p (.sensorNotRaised b.name) =
          ⟨.ok (!m.tapped), { m with tapped := false }, [.poll m.tapped]⟩ := by
        simp only [holds, NativeAction.ofName?_name, hsensor, if_true, poll, resetSensor]
      exact guardedStep_loop h hp a hi (by simp [Signal.Tells]) hholds
  | close =>
    obtain ⟨header, outer, hopen⟩ := List.exists_cons_of_ne_nil hsound
    have hclose : Closes is p.pc header := ⟨hget, by rw [hopen]; rfl⟩
    have hpartner : m.partner? p.pc = some header := by
      rw [partner?, hjumps]
      exact (partner?_linkBlocks_iff is p.pc header).2 (.inl hclose)
    rw [execute, hpartner]
    exact .of_goesOn (h.jump hp (fun x => Assured.of_back hclose) m.tapped) (by simp [answer]) rfl
  | trace point =>
    exact .of_goesOn (h.next hp hget (by simp) m.robot m.tapped)
      (by simp [execute, Signal.Tells]) rfl
  | print text =>
    exact .of_goesOn (h.next hp hget (by simp) m.robot m.tapped)
      (by simp [execute, Signal.Tells]) rfl

/-- **Steps.** A step of sound code keeps a machine guarded, and goes wrong only as it may. -/
theorem guarded_step (hcode : SoundCode is) (h : m.Guarded is) (a : Actuator σ) :
    GuardedStep is (m.step a) := by
  have hadvances := m.advances_step a
  generalize m.step a = e at hadvances
  cases hadvances with
  | idle hidle => exact ⟨⟨h, by simp [answer]⟩, by simp [answer, StepOutcome.EndsWell]⟩
  | ended hs hp hi =>
    exact ⟨⟨h.of_none rfl rfl rfl, by simp [endProcess, Signal.Tells]⟩,
      by simp [StepOutcome.EndsWell]⟩
  | @concluded p i hs hp hi =>
    exact guardedStep_conclude h hp a hi (hcode p.pc i (h.instruction_spec hi).1)

end Step

end Machine

/-! ### Operations -/

/-- Whether an operation replaces the program. -/
def Operation.loads : Operation → Bool
  | .load _ | .loadListing _ => true
  | _ => false

/-- **Sound entries.** What was reported and what a step came to was allowed. -/
structure Entry.Sound (is : List Instruction) (e : Entry) : Prop where
  signals : ∀ s ∈ e.signals, s.Tells is
  outcome : ∀ o, e.outcome = some o → o.EndsWell is

namespace Machine

variable {σ : Type} {is : List Instruction} {m : Machine σ} (a : Actuator σ)

/-- An answer changes nothing. -/
lemma guarded_answer (h : m.Guarded is) {α : Type} (x : α) : GuardedEffect is (m.answer x) :=
  ⟨h, by simp [answer]⟩

/-- Stopping leaves a guarded machine without a process. -/
lemma guarded_stop (h : m.Guarded is) : GuardedEffect is (m.stop a) := by
  unfold stop
  cases m.process with
  | none => exact ⟨h.of_none rfl rfl rfl, by simp⟩
  | some p => exact ⟨h.of_none rfl rfl rfl, by simp [Effect.after, endProcess, Signal.Tells]⟩

/-- A process begins where nothing is assured. -/
lemma guarded_launch (h : m.Guarded is) : GuardedEffect is (m.launch a) := by
  refine ⟨h.land rfl rfl (.start m.nextPid) rfl fun x hx => absurd hx not_assured_zero, ?_⟩
  unfold launch
  cases a.isConnected m.robot <;> simp [Signal.Tells]

/-- Starting begins a process or changes nothing. -/
lemma guarded_startProcess (h : m.Guarded is) : GuardedEffect is (m.startProcess a) := by
  unfold startProcess
  split
  · exact guarded_answer h _
  · split
    · exact guarded_answer h _
    · exact ⟨(guarded_launch a h).machine, (guarded_launch a h).signals⟩

/-- Restarting stops and begins a process, or changes nothing. -/
lemma guarded_restart (h : m.Guarded is) : GuardedEffect is (m.restart a) := by
  have hstop := guarded_stop a h
  have hlaunch := guarded_launch a hstop.machine
  unfold restart
  split
  · exact guarded_answer h _
  · exact ⟨hlaunch.machine, List.forall_mem_append.2 ⟨hstop.signals, hlaunch.signals⟩⟩

/-- A process that keeps its place and its variables keeps what it needs. -/
lemma guarded_withWait (h : m.Guarded is) (rest : Option Nat) (status : Status) :
    Guarded is { m with
      process := m.process.map fun p => { p with pendingWait := rest }, status := status } := by
  refine ⟨h.program, fun p' hp' => ?_⟩
  obtain ⟨p, hp, rfl⟩ := Option.map_eq_some_iff.1 hp'
  exact h.assured p hp

/-- Pausing keeps a process where it is. -/
lemma guarded_pause (h : m.Guarded is) (remaining : Option Nat) :
    GuardedEffect is (m.pause remaining) := by
  unfold pause
  split
  · exact guarded_answer h _
  · exact ⟨guarded_withWait h remaining .paused, by simp⟩

/-- Resuming keeps a process where it is. -/
lemma guarded_resume (h : m.Guarded is) : GuardedEffect is m.resume := by
  unfold resume
  split
  · exact guarded_answer h _
  · exact ⟨guarded_withWait h none .running, by simp⟩

/-- A machine without a program is guarded. -/
lemma guarded_clear (h : m.Guarded is) : GuardedEffect is (m.clear a) := by
  have hstop := guarded_stop a h
  refine ⟨⟨fun p hp => absurd hp (by simp [clear]), fun p hp => ?_⟩, hstop.signals⟩
  exact hstop.machine.assured p hp

/-- Shutting down stops and disconnects the robot. -/
lemma guarded_shutdown (h : m.Guarded is) : GuardedEffect is (m.shutdown a) := by
  have hstop := guarded_stop a h
  unfold shutdown
  dsimp only
  split
  · refine ⟨⟨hstop.machine.program, hstop.machine.assured⟩, ?_⟩
    exact List.forall_mem_append.2 ⟨hstop.signals, by simp [Signal.Tells]⟩
  · exact hstop

/-- A new program is a guarded one. -/
lemma guarded_load (m : Machine σ) (p : Program) :
    (m.load a p).machine.Guarded p.instructions := by
  refine ⟨fun q hq => ?_, fun q hq => ?_⟩
  · obtain rfl : p = q := Option.some.inj hq
    exact ⟨rfl, rfl⟩
  · obtain ⟨robot, hstop⟩ := exists_stop_machine a m
    have hnone : (m.stop a).machine.process = none := by rw [hstop]
    exact absurd (hnone.symm.trans hq) (by simp)

/-- **Operations.** An operation that loads nothing keeps a machine guarded, and goes wrong only as
it may. One case for each operation, by the lemma about it; only a step has an outcome, and this is
the one of the instruction that was executed. -/
theorem guarded_operate (hcode : SoundCode is) (h : m.Guarded is) {op : Operation}
    (hop : op.loads = false) :
    (m.operate a op).machine.Guarded is ∧ (m.entry a op).Sound is := by
  -- commands have no outcome
  have hcommand : GuardedEffect is (m.operate a op) → (m.operate a op).value = none →
      (m.operate a op).machine.Guarded is ∧ (m.entry a op).Sound is := fun heffect hvalue =>
    ⟨heffect.machine, heffect.signals, fun o ho => absurd (hvalue.symm.trans ho) (by simp)⟩
  cases op with
  | load p => exact absurd hop (by simp [Operation.loads])
  | loadListing text => exact absurd hop (by simp [Operation.loads])
  | start =>
    have heffect := guarded_startProcess a h
    exact hcommand ⟨heffect.machine, heffect.signals⟩ rfl
  | restart =>
    have heffect := guarded_restart a h
    exact hcommand ⟨heffect.machine, heffect.signals⟩ rfl
  | pause remaining =>
    have heffect := guarded_pause h remaining
    exact hcommand ⟨heffect.machine, heffect.signals⟩ rfl
  | resume =>
    have heffect := guarded_resume h
    exact hcommand ⟨heffect.machine, heffect.signals⟩ rfl
  | stop =>
    have heffect := guarded_stop a h
    exact hcommand ⟨heffect.machine, heffect.signals⟩ rfl
  | clear =>
    have heffect := guarded_clear a h
    exact hcommand ⟨heffect.machine, heffect.signals⟩ rfl
  | connect address =>
    refine hcommand ⟨⟨h.program, h.assured⟩, ?_⟩ rfl
    simp [operate, connect, Effect.withValue, Signal.Tells]
  | shutdown =>
    have heffect := guarded_shutdown a h
    exact hcommand ⟨heffect.machine, heffect.signals⟩ rfl
  | step =>
    have hstep := guarded_step hcode h a
    refine ⟨hstep.machine, hstep.signals, fun o ho => ?_⟩
    obtain rfl := Option.some.inj ho
    exact hstep.outcome
  | tap => exact hcommand ⟨⟨h.program, h.assured⟩, by simp [operate]⟩ rfl

/-- **Runs.** Whatever is done with a guarded machine but loading, only what may go wrong does. -/
theorem guarded_record (hcode : SoundCode is) (ops : List Operation) :
    ∀ {m : Machine σ}, m.Guarded is → (∀ op ∈ ops, op.loads = false) →
      ∀ e ∈ m.record a ops, e.Sound is := by
  induction ops with
  | nil => intro m _ _ e he; simp [record] at he
  | cons op ops ih =>
    intro m h hops e he
    obtain ⟨hop, hops⟩ := List.forall_mem_cons.1 hops
    obtain ⟨hnext, hentry⟩ := guarded_operate a hcode h hop
    rcases List.mem_cons.1 he with rfl | he
    · exact hentry
    · exact ih hnext hops e he

end Machine

end StickerBot
