import StickerBot.Proofs.StructuredRun
import StickerBot.Proofs.Thinning
set_option autoImplicit false

/-!
# Remarks change nothing

Traces and prints tell whoever watches a run where it is, and do nothing else. A program from which
any of them are taken out lets the robot do the same: the machine calls it alike and asks the sensor
alike, waits, writes and reports alike, and ends alike, each thing at the place to which its place
has moved.

## Main definitions

* `Act` — what a run does besides remarking.
* `Beat`, `Machine.beats` — what a run does, step by step, while the sensor answers as said.
* `Course`, `Machine.course` — what a run has done after some steps, and how it has ended.
* `Machine.shift` — a machine that stands alike in the other program.

## Main results

* `step_shift` — a step at a place that is kept does the same in both programs.
* `step_out` — a step at a remark moves the process on and does nothing else.
* `beats_shift`, `exists_beats_shift` — the runs do the same, except for the steps at remarks.
* `remarks_inert` — a program without some remarks has the same course.
-/

namespace StickerBot

variable {σ : Type}

/-! ### What a run does -/

/-- **Acts.** What a run does besides remarking: calls to the robot, questions to the sensor with
their answers, waits, changes of variables, and reports of faults that do not end it. -/
inductive Act where
  | robot (call : RobotCall)
  | poll (tapped : Bool)
  | wait (ms : Nat)
  | write (variableName : String) (value : Int32)
  | report (info : ProcessInfo) (text : String)
deriving DecidableEq, Repr

/-- The act that a signal tells of. -/
def Signal.act? : Signal → Option Act
  | .robot call => some (.robot call)
  | .poll tapped => some (.poll tapped)
  | .event (.error info text) => some (.report info text)
  | .event _ => none

/-- The acts that signals tell of. -/
def actsOf (signals : List Signal) : List Act := signals.filterMap Signal.act?

/-- What is done in signals in a row is done in the first ones and then in the others. -/
@[simp] lemma actsOf_append (signals later : List Signal) :
    actsOf (signals ++ later) = actsOf signals ++ actsOf later := List.filterMap_append

/-- The acts that a step tells of. The report of a fault that ends the process comes last and is
none of them. -/
def Effect.acts (e : Effect σ StepOutcome) : List Act :=
  match e.value with
  | .wait ms => actsOf e.signals ++ [.wait ms]
  | .faulted _ => (actsOf e.signals).dropLast
  | _ => actsOf e.signals

/-- The variable that an instruction gives a value. -/
def Instruction.variable? : Instruction → Option String
  | .assign x _ | .increment x _ => some x
  | _ => none

/-- **Beats.** What is done in one step: where the process stood, the acts in order, and what the
step came to. -/
structure Beat where
  place : Nat
  acts : List Act
  outcome : StepOutcome
deriving DecidableEq, Repr

namespace Machine

/-- The place of the process. -/
def place (m : Machine σ) : Nat := m.process.elim 0 Process.pc

/-- The instruction that is executed next. -/
def next? (m : Machine σ) : Option Instruction := m.process.bind fun p => m.instruction? p.pc

/-- The change of a variable in the next step: what the variable is after it. -/
def written? (a : Actuator σ) (m : Machine σ) : Option Act :=
  (m.next?.bind Instruction.variable?).bind fun x =>
    ((m.step a).machine.process.bind fun p => p.values.get? x).map (.write x)

/-- The acts of the next step. -/
def acts (a : Actuator σ) (m : Machine σ) : List Act :=
  (m.step a).acts ++ (m.written? a).toList

/-- The beat of the next step. -/
def beat (a : Actuator σ) (m : Machine σ) : Beat := ⟨m.place, m.acts a, (m.step a).value⟩

/-- The machine whose sensor gives an answer when it is asked next: it was tapped, or a tap was
forgotten. -/
def answering (m : Machine σ) (tapped : Bool) : Machine σ :=
  if tapped then m.raise else m.resetSensor

/-- **The beats of a run** of some steps, while the sensor answers as a sequence says, from a place
of the sequence on. No step comes after one that ends the run. -/
def beats (a : Actuator σ) (answers : Nat → Bool) (asked : Nat) (m : Machine σ) :
    Nat → List Beat
  | 0 => []
  | n + 1 =>
    let ready := m.answering (answers asked)
    let e := ready.step a
    if StepOutcome.goesOn e.value then
      ready.beat a :: beats a answers (asked + (answersOf e.signals).length) e.machine n
    else [ready.beat a]

end Machine

/-- **Course.** All acts of a run in order, and, if it has ended, where and how. -/
structure Course where
  acts : List Act
  ending : Option (Nat × StepOutcome)
deriving DecidableEq, Repr

/-- The course of beats. They end with the first after which a run does not go on. -/
def Course.ofBeats (beats : List Beat) : Course where
  acts := beats.flatMap Beat.acts
  ending := (beats.find? fun b => !Machine.StepOutcome.goesOn b.outcome).map fun b =>
    (b.place, b.outcome)

/-- **The course of a run** of some steps, while the sensor answers as a sequence says. -/
def Machine.course (a : Actuator σ) (answers : Nat → Bool) (m : Machine σ) (n : Nat) : Course :=
  .ofBeats (m.beats a answers 0 n)

/-! ### Shifting places -/

section Shift

variable (μ : Nat → Nat)

/-- What is told of a process at another place. -/
def ProcessInfo.shift (info : ProcessInfo) : ProcessInfo := { info with pc := μ info.pc }

/-- A fault at another place. -/
def Fault.shift : Fault → Fault
  | .unresolvableJump pc => .unresolvableJump (μ pc)
  | .unknownNative name pc => .unknownNative name (μ pc)
  | f => f

/-- What a step comes to at another place. -/
def StepOutcome.shift : StepOutcome → StepOutcome
  | .faulted f => .faulted (f.shift μ)
  | o => o

/-- Where a process goes on from another place. -/
def Flow.shift : Flow → Flow
  | .jump target => .jump (μ target)
  | flow => flow

/-- An act at another place. -/
def Act.shift : Act → Act
  | .report info text => .report (info.shift μ) text
  | act => act

/-- A beat at another place. -/
def Beat.shift (b : Beat) : Beat := ⟨μ b.place, b.acts.map (Act.shift μ), b.outcome.shift μ⟩

/-- **A course that is moved**: the same acts, and the same ending. -/
def Course.shift (c : Course) : Course :=
  ⟨c.acts.map (Act.shift μ), c.ending.map fun x => (μ x.1, x.2.shift μ)⟩

/-- A process at another place. -/
def Process.shift (p : Process) : Process := { p with pc := μ p.pc }

/-- **A machine that stands alike** in another program. -/
def Machine.shift (q : Program) (m : Machine σ) : Machine σ :=
  { m with
    program := some q
    jumps := linkBlocks q.instructions
    process := m.process.map (Process.shift μ) }

/-- What an instruction comes to at another place. -/
def shiftResult {α : Type} (f : α → α) : Except Fault α → Except Fault α
  | .ok x => .ok (f x)
  | .error fault => .error (fault.shift μ)

end Shift

/-- Moved runs go on alike. -/
@[simp] lemma Machine.goesOn_shift (μ : Nat → Nat) (o : StepOutcome) :
    StepOutcome.goesOn (o.shift μ) = StepOutcome.goesOn o := by cases o <;> rfl

/-- **Shifted effects.** An instruction does the same at another place. -/
structure Effect.Shifted {α : Type} (μ : Nat → Nat) (q : Program) (f : α → α)
    (e e' : Effect σ (Except Fault α)) : Prop where
  value : e'.value = shiftResult μ f e.value
  machine : e'.machine = e.machine.shift μ q
  acts : actsOf e'.signals = (actsOf e.signals).map (Act.shift μ)
  answers : answersOf e'.signals = answersOf e.signals

/-- **Shifted steps.** A step does the same at another place. -/
structure Effect.ShiftedStep (μ : Nat → Nat) (q : Program) (e e' : Effect σ StepOutcome) :
    Prop where
  value : e'.value = e.value.shift μ
  machine : e'.machine = e.machine.shift μ q
  acts : e'.acts = e.acts.map (Act.shift μ)
  answers : answersOf e'.signals = answersOf e.signals

/-! ### Instructions at other places -/

namespace Machine

variable {μ : Nat → Nat} {q : Program}

/-- An effect that only answers does so at any place. -/
lemma shifted_answer {α : Type} {f : α → α} (m : Machine σ) {x x' : Except Fault α}
    (h : x' = shiftResult μ f x) :
    Effect.Shifted μ q f (m.answer x) ((m.shift μ q).answer x') := ⟨h, rfl, rfl, rfl⟩

/-- A variable is read alike. -/
lemma read_shift (m : Machine σ) (p : Process) (x : String) :
    ((m.shift μ q).read (p.shift μ) x).1 = (m.read p x).1 ∧
      actsOf ((m.shift μ q).read (p.shift μ) x).2 =
        (actsOf (m.read p x).2).map (Act.shift μ) := by
  have hvalues : (p.shift μ).values = p.values := rfl
  unfold read
  rw [hvalues]
  cases p.values.get? x with
  | none => exact ⟨rfl, rfl⟩
  | some n => exact ⟨rfl, rfl⟩

/-- A loop header asks alike. A counter is read the same at both places, and a sensor answers the
same; that a sensor is unknown, or none, is the same fault. -/
lemma holds_shift (m : Machine σ) (p : Process) (c : Condition) :
    Effect.Shifted μ q id (m.holds p c) ((m.shift μ q).holds (p.shift μ) c) := by
  cases c with
  | below x limit =>
    obtain ⟨hvalue, hacts⟩ := m.read_shift (μ := μ) (q := q) p x
    refine ⟨?_, rfl, hacts, ?_⟩
    · simp only [holds, shiftResult, hvalue, id_eq]
    · simp [holds, answersOf_read]
  | sensorNotRaised sensor =>
    simp only [holds]
    cases NativeAction.ofName? sensor with
    | none => exact m.shifted_answer rfl
    | some action =>
      dsimp only
      cases action.isSensor with
      | true => exact ⟨rfl, rfl, rfl, rfl⟩
      | false => exact m.shifted_answer rfl

/-- An action is called alike. Calling does not look at the place of the process, except to report
it, and the robot is asked the same in both machines. -/
lemma callNative_shift (a : Actuator σ) (m : Machine σ) (p : Process) (name : String)
    (arguments : List Int32) :
    Effect.Shifted μ q (Flow.shift μ) (m.callNative a p name arguments)
      ((m.shift μ q).callNative a (p.shift μ) name arguments) := by
  unfold callNative
  cases NativeAction.ofName? name with
  | none => exact m.shifted_answer rfl
  | some action =>
    dsimp only
    cases action.isSensor with
    | true => exact ⟨rfl, rfl, rfl, rfl⟩
    | false =>
      simp only [Bool.false_eq_true, if_false]
      have hrobot : (m.shift μ q).robot = m.robot := rfl
      rw [hrobot]
      rcases a.perform action arguments m.robot with ⟨status, robot⟩
      refine ⟨rfl, rfl, ?_, ?_⟩
      · dsimp only
        split <;> rfl
      · dsimp only
        split <;> rfl

/-- **An instruction at another place** does the same, if the braces there have the same partners.
One case for each instruction. Only the two braces name other places, and of their partners it is
assumed that they are moved like everything else; the rest reads counters, the sensor and the robot
alone. -/
lemma execute_shift (a : Actuator σ) (m : Machine σ) (p : Process) (i : Instruction)
    (hpartner : (m.shift μ q).partner? (μ p.pc) = (m.partner? p.pc).map μ)
    (hbehind : ∀ closing, m.partner? p.pc = some closing → μ (closing + 1) = μ closing + 1) :
    Effect.Shifted μ q (Flow.shift μ) (m.execute a p i)
      ((m.shift μ q).execute a (p.shift μ) i) := by
  cases i with
  | call name arguments => exact m.callNative_shift a p name arguments
  | wait units => exact m.shifted_answer rfl
  | assign x n => exact ⟨rfl, rfl, rfl, rfl⟩
  | increment x n =>
    obtain ⟨hvalue, hacts⟩ := m.read_shift (μ := μ) (q := q) p x
    refine ⟨rfl, ?_, hacts, ?_⟩
    · simp only [execute, hvalue]
      rfl
    · simp [execute, answersOf_read]
  | loop c =>
    have hholds := m.holds_shift (μ := μ) (q := q) p c
    have hjumps : (m.holds p c).machine.jumps = m.jumps := by
      cases c with
      | below x limit => rfl
      | sensorNotRaised sensor =>
        simp only [holds]
        cases NativeAction.ofName? sensor with
        | none => rfl
        | some action =>
          dsimp only
          split <;> rfl
    rcases he : m.holds p c with ⟨value, m₁, signals⟩
    rcases he' : (m.shift μ q).holds (p.shift μ) c with ⟨value', m₁', signals'⟩
    rw [he, he'] at hholds
    rw [he] at hjumps
    obtain ⟨rfl, rfl, hacts, hanswers⟩ := hholds
    have hpartner' : (m₁.shift μ q).partner? (p.shift μ).pc = (m₁.partner? p.pc).map μ := by
      have hsame : m₁.partner? p.pc = m.partner? p.pc := by unfold partner?; rw [hjumps]
      rw [hsame]
      exact hpartner
    simp only [execute, he, he']
    rcases value with fault | _ | _
    · exact ⟨rfl, rfl, hacts, hanswers⟩
    · have hsame : m₁.partner? p.pc = m.partner? p.pc := by unfold partner?; rw [hjumps]
      simp only [shiftResult, id_eq, hpartner']
      cases hclosing : m₁.partner? p.pc with
      | none => exact ⟨rfl, rfl, hacts, hanswers⟩
      | some closing =>
        have hnext := hbehind closing (hsame.symm.trans hclosing)
        refine ⟨?_, rfl, hacts, hanswers⟩
        simp [shiftResult, Flow.shift, hnext]
    · exact ⟨rfl, rfl, hacts, hanswers⟩
  | close =>
    simp only [execute]
    rw [show (p.shift μ).pc = μ p.pc from rfl, hpartner]
    cases m.partner? p.pc with
    | none => exact m.shifted_answer rfl
    | some header => exact m.shifted_answer rfl
  | trace point => exact ⟨rfl, rfl, rfl, rfl⟩
  | print text => exact ⟨rfl, rfl, rfl, rfl⟩

/-- A step does the same if its instruction does, and if the next place moves as this one.

**Proof sketch.** What decides the next place is the flow that the instruction came to. A fault ends
the process and adds an end to what is done, so that it is the part before this end which is
compared. -/
lemma conclude_shift {p : Process} {e e' : Effect σ (Except Fault Flow)}
    (h : Effect.Shifted μ q (Flow.shift μ) e e') (hnext : μ (p.pc + 1) = μ p.pc + 1) :
    Effect.ShiftedStep μ q (conclude p e) (conclude (p.shift μ) e') := by
  have hgoto : ∀ (m : Machine σ) (place : Nat),
      (m.shift μ q).goto (μ place) = (m.goto place).shift μ q := by
    intro m place
    unfold goto shift
    rw [Option.map_map, Option.map_map]
    rfl
  obtain ⟨value, m, signals⟩ := e
  obtain ⟨value', m', signals'⟩ := e'
  obtain ⟨rfl, rfl, hacts, hanswers⟩ := h
  dsimp only at hacts hanswers
  rcases value with fault | _ | target | ms
  · refine ⟨rfl, rfl, ?_, ?_⟩
    · have hlast : ∀ (later : List Signal) (act : Act), actsOf later = [act] →
          ∀ earlier, (actsOf (earlier ++ later)).dropLast = actsOf earlier := by
        intro later act hlater earlier
        rw [actsOf_append, hlater, List.dropLast_concat]
      exact (hlast _ _ rfl signals').trans
        (hacts.trans (congrArg (List.map (Act.shift μ)) (hlast _ _ rfl signals).symm))
    · simp [shiftResult, hanswers, endProcess]
  · refine ⟨rfl, ?_, hacts, hanswers⟩
    exact (congrArg (goto _) hnext.symm).trans (hgoto m (p.pc + 1))
  · exact ⟨rfl, hgoto m target, hacts, hanswers⟩
  · refine ⟨rfl, ?_, ?_, hanswers⟩
    · exact (congrArg (goto _) hnext.symm).trans (hgoto m (p.pc + 1))
    · change actsOf signals' ++ [Act.wait ms] = (actsOf signals ++ [Act.wait ms]).map (Act.shift μ)
      rw [hacts, List.map_append]
      rfl

/-! ### Steps in both programs -/

/-- **Running** a program. -/
structure Runs (m : Machine σ) (p : Program) : Prop where
  program : m.program = some p
  jumps : m.jumps = linkBlocks p.instructions
  status : m.status = .running
  process : ∃ x, m.process = some x

section Step

variable {a : Actuator σ} {m : Machine σ} {p : Program}

/-- A machine that runs a program runs it whatever the sensor will answer. -/
lemma Runs.answering (h : m.Runs p) (tapped : Bool) : (m.answering tapped).Runs p := by
  cases tapped <;> exact ⟨h.program, h.jumps, h.status, h.process⟩

/-- What the sensor will answer does not move a process. -/
@[simp] lemma place_answering (m : Machine σ) (tapped : Bool) :
    (m.answering tapped).place = m.place := by cases tapped <;> rfl

/-- A machine runs its program as long as it goes on. -/
lemma Runs.step (h : m.Runs p) (hgoes : StepOutcome.goesOn (m.step a).value = true) :
    (m.step a).machine.Runs p := by
  have hstep := m.stepped_step a
  generalize m.step a = stepped at hgoes hstep
  cases hstep with
  | moved => exact ⟨h.program, h.jumps, h.status, ⟨_, rfl⟩⟩
  | _ => exact absurd hgoes (by simp [answer, StepOutcome.goesOn])

/-- What is executed next. -/
lemma Runs.next?_eq (h : m.Runs p) : m.next? = p.instructions[m.place]? := by
  obtain ⟨x, hx⟩ := h.process
  simp [next?, place, instruction?, hx, h.program]

variable {out : Nat → Bool} {q : Program} (hout : OnlyRemarks out p.instructions)
  (hq : q.instructions = kept out p.instructions)
include hq

/-- At a place that is kept the same instruction is next. -/
lemma next?_shift (h : m.Runs p) (hplace : out m.place = false) :
    (m.shift (movedTo out) q).next? = m.next? := by
  obtain ⟨x, hx⟩ := h.process
  have hkept : out x.pc = false := by simpa [place, hx] using hplace
  simp [next?, instruction?, shift, hx, h.program, Process.shift, hq, getElem?_kept _ hkept]

include hout

/-- **A step at a place that is kept** does the same in both programs.

**Proof sketch.** The instruction is the same. If it jumps, it does so along a link, and links move
with the places. -/
theorem step_shift (h : m.Runs p) (hplace : out m.place = false) :
    Effect.ShiftedStep (movedTo out) q (m.step a) ((m.shift (movedTo out) q).step a) := by
  obtain ⟨x, hx⟩ := h.process
  have hkept : out x.pc = false := by simpa [place, hx] using hplace
  have hstatus : (m.shift (movedTo out) q).status = .running := h.status
  have hx' : (m.shift (movedTo out) q).process = some (x.shift (movedTo out)) := by
    simp [shift, hx]
  have hnext := next?_shift hq h hplace
  unfold next? at hnext
  rw [hx', hx, Option.bind_some, Option.bind_some] at hnext
  cases hi : m.instruction? x.pc with
  | none =>
    rw [step_of_end a h.status hx hi, step_of_end a hstatus hx' (hnext.trans hi)]
    exact ⟨rfl, rfl, rfl, rfl⟩
  | some i =>
    rw [step_eq_conclude a h.status hx hi, step_eq_conclude a hstatus hx' (hnext.trans hi)]
    have hpartner : ∀ place, m.partner? place = ((linkBlocks p.instructions)[place]?).join := by
      intro place
      rw [partner?, h.jumps]
    refine conclude_shift (execute_shift a m x i ?_ ?_) (movedTo_succ_of_kept hkept)
    · rw [hpartner, ← hout.partner?_kept hkept, ← hq]
      rfl
    · intro closing hclosing
      refine movedTo_succ_of_kept ?_
      rw [hpartner, partner?_linkBlocks_iff] at hclosing
      rcases hclosing with hclose | hclose
      · exact hout.header_kept hclose
      · exact hout.out_eq_false hclose.1 rfl

/-- What is done at a place that is kept is done in both programs. What a beat holds is the place,
the deeds, the counter that was written and the outcome; each of these is moved on its own. -/
theorem beat_shift (h : m.Runs p) (hplace : out m.place = false) :
    (m.shift (movedTo out) q).beat a = (m.beat a).shift (movedTo out) := by
  have hstep := step_shift (a := a) hout hq h hplace
  obtain ⟨x, hx⟩ := h.process
  have hplace' : (m.shift (movedTo out) q).place = movedTo out m.place := by
    simp [place, shift, hx, Process.shift]
  have hvalues : ∀ (o : Option Process) (y : String),
      ((o.map (Process.shift (movedTo out))).bind fun z => z.values.get? y) =
        o.bind fun z => z.values.get? y := by
    intro o y
    cases o <;> rfl
  have hwritten : (m.shift (movedTo out) q).written? a =
      (m.written? a).map (Act.shift (movedTo out)) := by
    unfold written?
    rw [next?_shift hq h hplace, hstep.machine]
    cases m.next?.bind Instruction.variable? with
    | none => rfl
    | some y =>
      change Option.map (Act.write y) (Option.bind (Option.map _ _) _) = _
      rw [hvalues, Option.bind_some, Option.map_map]
      rfl
  unfold beat acts Beat.shift
  rw [hplace', hstep.acts, hwritten, hstep.value, List.map_append]
  cases m.written? a <;> rfl

omit hq in
/-- **A step at a place that is taken out** is one at a remark: it moves the process on and does
nothing else. -/
theorem step_out (q : Program) (h : m.Runs p) (hplace : out m.place = true) :
    (m.step a).value = .continue ∧ m.acts a = [] ∧ answersOf (m.step a).signals = [] ∧
      (m.step a).machine.place = m.place + 1 ∧
      (m.step a).machine.shift (movedTo out) q = m.shift (movedTo out) q := by
  obtain ⟨x, hx⟩ := h.process
  have hpc : m.place = x.pc := by simp [place, hx]
  obtain ⟨i, hi, hremark⟩ := hout m.place hplace
  have hnext : m.next? = some i := h.next?_eq.trans hi
  have hinstruction : m.instruction? x.pc = some i := by simpa [next?, hx] using hnext
  have hmoved : movedTo out (x.pc + 1) = movedTo out x.pc :=
    movedTo_succ_of_out (by rw [← hpc]; exact hplace)
  have hquiet : ∀ event : Event, Signal.act? (.event event) = none →
      m.execute a x i = ⟨.ok .next, m, [.event event]⟩ → i.variable? = none →
      (m.step a).value = .continue ∧ m.acts a = [] ∧ answersOf (m.step a).signals = [] ∧
        (m.step a).machine.place = m.place + 1 ∧
        (m.step a).machine.shift (movedTo out) q = m.shift (movedTo out) q := by
    intro event hact hexecute hvariable
    have hstep : m.step a = ⟨.continue, m.goto (x.pc + 1), [.event event]⟩ := by
      rw [step_eq_conclude a h.status hx hinstruction, hexecute]
      rfl
    refine ⟨by rw [hstep], ?_, by rw [hstep]; rfl, ?_, ?_⟩
    · simp [acts, Effect.acts, hstep, actsOf, hact, written?, hnext, hvariable]
    · simp [hstep, place, goto, hx]
    · simp [hstep, shift, goto, hx, Process.shift, hmoved]
  cases i with
  | trace point => exact hquiet _ rfl rfl rfl
  | print text => exact hquiet _ rfl rfl rfl
  | _ => exact absurd hremark (by simp [Instruction.isRemark])

end Step

end Machine

/-! ### Runs of both programs -/

/-- **The beats that are left**: those at places that are kept, moved. -/
def thin (out : Nat → Bool) (beats : List Beat) : List Beat :=
  (beats.filter fun b => !out b.place).map (Beat.shift (movedTo out))

namespace Machine

section Run

variable {a : Actuator σ} {p q : Program} {out : Nat → Bool} {answers : Nat → Bool}

/-- A run that goes on begins with the beat of its step. -/
lemma beats_of_goesOn {asked : Nat} {m : Machine σ} (n : Nat)
    (h : StepOutcome.goesOn ((m.answering (answers asked)).step a).value = true) :
    m.beats a answers asked (n + 1) = (m.answering (answers asked)).beat a ::
      ((m.answering (answers asked)).step a).machine.beats a answers
        (asked + (answersOf ((m.answering (answers asked)).step a).signals).length) n := by
  rw [beats]
  exact if_pos h

/-- A run that does not go on is the beat of its step. -/
lemma beats_of_not_goesOn {asked : Nat} {m : Machine σ} (n : Nat)
    (h : ¬ StepOutcome.goesOn ((m.answering (answers asked)).step a).value = true) :
    m.beats a answers asked (n + 1) = [(m.answering (answers asked)).beat a] := by
  rw [beats]
  exact if_neg h

/-- A machine stands alike, whatever its sensor will answer. -/
lemma shift_answering (μ : Nat → Nat) (q : Program) (m : Machine σ) (tapped : Bool) :
    (m.shift μ q).answering tapped = (m.answering tapped).shift μ q := by
  cases tapped <;> rfl

/-- What the sensor would answer before a run does not matter. -/
lemma beats_answering (m : Machine σ) (tapped : Bool) (asked n : Nat) :
    (m.answering tapped).beats a answers asked n = m.beats a answers asked n := by
  cases n with
  | zero => rfl
  | succ n =>
    have hlast : ∀ b, (m.answering tapped).answering b = m.answering b := by
      intro b
      cases tapped <;> cases b <;> rfl
    simp only [beats, hlast]

variable (a answers) (hout : OnlyRemarks out p.instructions)
  (hq : q.instructions = kept out p.instructions)
include hout

/-- A run that stands at a remark that is taken out is the run behind it, without the remark. -/
lemma beats_out (q : Program) {asked : Nat} {m : Machine σ} (h : m.Runs p)
    (hplace : out m.place = true) : ∃ m' : Machine σ, m'.Runs p ∧ m'.place = m.place + 1 ∧
      ∀ n, thin out (m.beats a answers asked (n + 1)) = thin out (m'.beats a answers asked n) ∧
        (m.shift (movedTo out) q).beats a answers asked n =
          (m'.shift (movedTo out) q).beats a answers asked n := by
  have hready := h.answering (answers asked)
  rw [← m.place_answering (answers asked)] at hplace ⊢
  obtain ⟨hvalue, hacts, hanswers, hnext, hshift⟩ := step_out (a := a) hout q hready hplace
  have hgoes : StepOutcome.goesOn ((m.answering (answers asked)).step a).value = true := by
    rw [hvalue]
    rfl
  refine ⟨((m.answering (answers asked)).step a).machine, hready.step hgoes, hnext,
    fun n => ⟨?_, ?_⟩⟩
  · have hbeat : out ((m.answering (answers asked)).beat a).place = true := hplace
    rw [beats_of_goesOn n hgoes, hanswers, List.length_nil, Nat.add_zero]
    simp [thin, hbeat]
  · rw [hshift, ← shift_answering, beats_answering]

include hq

/-- A run from a place that is kept begins alike in both programs, and then it ends, or it goes on
from machines that stand alike. -/
lemma beats_kept {asked : Nat} {m : Machine σ} (h : m.Runs p) (hplace : out m.place = false) :
    ∃ b : Beat, out b.place = false ∧
      ((∀ n, m.beats a answers asked (n + 1) = [b] ∧
        (m.shift (movedTo out) q).beats a answers asked (n + 1) = [b.shift (movedTo out)]) ∨
      ∃ (m' : Machine σ) (asked' : Nat), m'.Runs p ∧ ∀ n,
        m.beats a answers asked (n + 1) = b :: m'.beats a answers asked' n ∧
        (m.shift (movedTo out) q).beats a answers asked (n + 1) =
          b.shift (movedTo out) :: (m'.shift (movedTo out) q).beats a answers asked' n) := by
  have hready := h.answering (answers asked)
  rw [← m.place_answering (answers asked)] at hplace
  have hbeat := beat_shift (a := a) hout hq hready hplace
  have hstep := step_shift (a := a) hout hq hready hplace
  refine ⟨(m.answering (answers asked)).beat a, hplace, ?_⟩
  by_cases hgoes : StepOutcome.goesOn ((m.answering (answers asked)).step a).value = true
  · refine .inr ⟨_, asked + (answersOf ((m.answering (answers asked)).step a).signals).length,
      hready.step hgoes, fun n => ⟨beats_of_goesOn n hgoes, ?_⟩⟩
    rw [← hbeat, ← hstep.machine, ← hstep.answers, ← shift_answering]
    refine beats_of_goesOn n ?_
    rw [shift_answering, hstep.value, goesOn_shift]
    exact hgoes
  · refine .inl fun n => ⟨beats_of_not_goesOn n hgoes, ?_⟩
    rw [← hbeat, ← shift_answering]
    refine beats_of_not_goesOn n ?_
    rw [shift_answering, hstep.value, goesOn_shift]
    exact hgoes

/-- **The other run keeps up.** What a run has done after some steps the other one has done after no
more steps, except for the steps at remarks that were taken out. -/
theorem beats_shift (n : Nat) : ∀ (asked : Nat) (m : Machine σ), m.Runs p →
    ∃ n' ≤ n, (m.shift (movedTo out) q).beats a answers asked n' =
      thin out (m.beats a answers asked n) := by
  induction n with
  | zero => exact fun asked m _ => ⟨0, Nat.le_refl 0, rfl⟩
  | succ n ih =>
    intro asked m h
    cases hplace : out m.place with
    | true =>
      obtain ⟨m', hm', -, hbeats⟩ := beats_out a answers hout q h hplace
      obtain ⟨n', hn', hsame⟩ := ih asked m' hm'
      exact ⟨n', Nat.le_succ_of_le hn', by rw [(hbeats n').2, (hbeats n).1, hsame]⟩
    | false =>
      obtain ⟨b, hb, hends | ⟨m', asked', hm', hgoes⟩⟩ :=
        beats_kept a answers hout hq h hplace
      · refine ⟨n + 1, Nat.le_refl _, ?_⟩
        rw [(hends n).1, (hends n).2]
        simp [thin, hb]
      · obtain ⟨n', hn', hsame⟩ := ih asked' m' hm'
        refine ⟨n' + 1, Nat.succ_le_succ hn', ?_⟩
        rw [(hgoes n').2, (hgoes n).1, hsame]
        simp [thin, hb]

omit hq in
/-- There are no more remarks than instructions, so a run comes to a place that is kept.

**Proof sketch.** By induction on the instructions that are left. At a remark the run goes to the
next place, and nothing of this is seen in the thinned course nor in the other program. -/
lemma exists_beats_kept (q : Program) (room : Nat) : ∀ (asked : Nat) (m : Machine σ), m.Runs p →
    p.instructions.length ≤ m.place + room →
    ∃ (front : Nat) (m' : Machine σ), m'.Runs p ∧ out m'.place = false ∧
      ∀ n, thin out (m.beats a answers asked (front + n)) = thin out (m'.beats a answers asked n) ∧
        (m.shift (movedTo out) q).beats a answers asked n =
          (m'.shift (movedTo out) q).beats a answers asked n := by
  induction room with
  | zero =>
    intro asked m h hroom
    refine ⟨0, m, h, ?_, fun n => ⟨by rw [Nat.zero_add], rfl⟩⟩
    cases hplace : out m.place with
    | false => rfl
    | true =>
      obtain ⟨i, hi, -⟩ := hout m.place hplace
      exact absurd (List.getElem?_eq_some_iff.1 hi).1 (Nat.not_lt.2 hroom)
  | succ room ih =>
    intro asked m h hroom
    cases hplace : out m.place with
    | false => exact ⟨0, m, h, hplace, fun n => ⟨by rw [Nat.zero_add], rfl⟩⟩
    | true =>
      obtain ⟨m₁, hm₁, hnext, hbeats⟩ := beats_out a answers hout q h hplace
      obtain ⟨front, m', hm', hkept, hlater⟩ := ih asked m₁ hm₁ (by omega)
      refine ⟨front + 1, m', hm', hkept, fun n => ⟨?_, ?_⟩⟩
      · rw [Nat.add_right_comm, (hbeats (front + n)).1, (hlater n).1]
      · rw [(hbeats n).2, (hlater n).2]

/-- **The run keeps up with the other one**, as it does not stay at remarks forever. -/
theorem exists_beats_shift (n' : Nat) : ∀ (asked : Nat) (m : Machine σ), m.Runs p →
    ∃ n, n' ≤ n ∧ (m.shift (movedTo out) q).beats a answers asked n' =
      thin out (m.beats a answers asked n) := by
  induction n' with
  | zero => exact fun asked m _ => ⟨0, Nat.le_refl 0, rfl⟩
  | succ n' ih =>
    intro asked m h
    obtain ⟨front, m₁, hm₁, hkept, hfront⟩ := exists_beats_kept a answers hout q
      p.instructions.length asked m h (Nat.le_add_left _ _)
    obtain ⟨b, hb, hends | ⟨m', asked', hm', hgoes⟩⟩ :=
      beats_kept a answers hout hq hm₁ hkept
    · refine ⟨front + (n' + 1), Nat.le_add_left _ _, ?_⟩
      rw [(hfront (n' + 1)).1, (hfront (n' + 1)).2, (hends n').1, (hends n').2]
      simp [thin, hb]
    · obtain ⟨n, hn, hsame⟩ := ih asked' m' hm'
      refine ⟨front + (n + 1), by omega, ?_⟩
      rw [(hfront (n + 1)).1, (hfront (n' + 1)).2, (hgoes n').2, (hgoes n).1, hsame]
      simp [thin, hb]

omit hq hout in
/-- A beat of a run is the beat of a step of a machine that runs the program. -/
lemma of_mem_beats (n : Nat) : ∀ (asked : Nat) (m : Machine σ), m.Runs p →
    ∀ b ∈ m.beats a answers asked n, ∃ m' : Machine σ, m'.Runs p ∧ b = m'.beat a := by
  induction n with
  | zero => exact fun asked m _ b hb => absurd hb List.not_mem_nil
  | succ n ih =>
    intro asked m h b hb
    have hready := h.answering (answers asked)
    by_cases hgoes : StepOutcome.goesOn ((m.answering (answers asked)).step a).value = true
    · rw [beats_of_goesOn n hgoes] at hb
      rcases List.mem_cons.1 hb with rfl | hb
      · exact ⟨_, hready, rfl⟩
      · exact ih _ _ (hready.step hgoes) b hb
    · rw [beats_of_not_goesOn n hgoes] at hb
      exact ⟨_, hready, List.mem_singleton.1 hb⟩

omit hq in
/-- At remarks that are taken out nothing is done, and the run goes on. -/
lemma quiet_of_mem_beats {n asked : Nat} {m : Machine σ} (h : m.Runs p) {b : Beat}
    (hb : b ∈ m.beats a answers asked n) (hplace : out b.place = true) :
    b.acts = [] ∧ StepOutcome.goesOn b.outcome = true := by
  obtain ⟨m', hm', rfl⟩ := of_mem_beats a answers n asked m h b hb
  obtain ⟨hvalue, hacts, -⟩ := step_out (a := a) hout p hm' hplace
  refine ⟨hacts, ?_⟩
  change StepOutcome.goesOn (m'.step a).value = true
  rw [hvalue]
  rfl

end Run

/-- A run that does not go on is over, or a fault has ended it. -/
lemma Runs.ending {a : Actuator σ} {m : Machine σ} {p : Program} (h : m.Runs p)
    (hends : StepOutcome.goesOn (m.step a).value = false) :
    (m.step a).value = .finished ∨ ∃ f, (m.step a).value = .faulted f ∧ f.isFatal = true := by
  have hstep := m.stepped_step a
  generalize m.step a = stepped at hends hstep
  cases hstep with
  | idle hidle =>
    obtain ⟨x, hx⟩ := h.process
    exact absurd (hidle h.status) (by simp [hx])
  | finished => exact .inl rfl
  | moved _ _ _ outcome ho => exact absurd hends (by simp [ho])
  | faulted _ _ _ f hf => exact .inr ⟨f, rfl, hf⟩

end Machine

/-! ### Courses -/

/-- A course goes on as the beats do, up to the first that ends it. -/
lemma Course.ofBeats_cons (b : Beat) (beats : List Beat) :
    Course.ofBeats (b :: beats) =
      ⟨b.acts ++ (Course.ofBeats beats).acts,
        if Machine.StepOutcome.goesOn b.outcome then (Course.ofBeats beats).ending
        else some (b.place, b.outcome)⟩ := by
  unfold ofBeats
  rw [List.flatMap_cons, List.find?_cons]
  cases Machine.StepOutcome.goesOn b.outcome <;> rfl

/-- If nothing is done at remarks, the course of the beats that are left is the course of all,
moved. -/
lemma Course.ofBeats_thin {out : Nat → Bool} (beats : List Beat)
    (h : ∀ b ∈ beats, out b.place = true →
      b.acts = [] ∧ Machine.StepOutcome.goesOn b.outcome = true) :
    Course.ofBeats (thin out beats) = (Course.ofBeats beats).shift (movedTo out) := by
  induction beats with
  | nil => rfl
  | cons b beats ih =>
    have hrest := ih fun b' hb' => h b' (.tail _ hb')
    rw [ofBeats_cons]
    cases hplace : out b.place with
    | true =>
      obtain ⟨hnone, hgoes⟩ := h b (.head _) hplace
      have hthin : thin out (b :: beats) = thin out beats := by simp [thin, hplace]
      rw [hthin, hrest, hnone, List.nil_append, if_pos hgoes]
    | false =>
      have hthin : thin out (b :: beats) = b.shift (movedTo out) :: thin out beats := by
        simp [thin, hplace]
      rw [hthin, ofBeats_cons, hrest]
      cases hgoes : Machine.StepOutcome.goesOn b.outcome with
      | true => simp [shift, Beat.shift, hgoes]
      | false => simp [shift, Beat.shift, hgoes]

/-- **The same course** in a program from which some instructions are taken out. -/
structure SameCourse (out : Nat → Bool) (c c' : Nat → Course) : Prop where
  /-- What is done in some steps is done there in no more. -/
  forth : ∀ n, ∃ n' ≤ n, c' n' = (c n).shift (movedTo out)
  /-- What is done there in some steps is done here in some, and in no less. -/
  back : ∀ n', ∃ n, n' ≤ n ∧ c' n' = (c n).shift (movedTo out)
  /-- Both runs go on forever, or both end: at the end of the program, or at instructions that
  are the same, with the same fault. -/
  ending : (∀ n, (c n).ending = none) ∧ (∀ n', (c' n').ending = none) ∨
    ∃ n n' place outcome, (c n).ending = some (place, outcome) ∧
      (c' n').ending = some (movedTo out place, outcome.shift (movedTo out)) ∧
      out place = false ∧
      (outcome = .finished ∨ ∃ f, outcome = .faulted f ∧ f.isFatal = true)

namespace Machine

section Course

variable {a : Actuator σ} {p q : Program} {out : Nat → Bool} (answers : Nat → Bool)
  (hout : OnlyRemarks out p.instructions) {m : Machine σ} (h : m.Runs p)
include hout h

/-- A run that has ended has done so at a place that is kept. -/
lemma ending_course {n place : Nat} {outcome : StepOutcome}
    (hending : (m.course a answers n).ending = some (place, outcome)) :
    out place = false ∧
      (outcome = .finished ∨ ∃ f, outcome = .faulted f ∧ f.isFatal = true) := by
  obtain ⟨b, hfind, heq⟩ := Option.map_eq_some_iff.1 hending
  obtain ⟨rfl, rfl⟩ := Prod.mk.inj heq
  have hb := List.mem_of_find?_eq_some hfind
  have hends : StepOutcome.goesOn b.outcome = false := by simpa using List.find?_some hfind
  obtain ⟨m', hm', rfl⟩ := of_mem_beats a answers n 0 m h b hb
  refine ⟨?_, hm'.ending hends⟩
  cases hplace : out (m'.beat a).place with
  | false => rfl
  | true =>
    obtain ⟨-, hgoes⟩ := quiet_of_mem_beats a answers hout h hb hplace
    exact absurd hends (by simp [hgoes])

/-- **Runs of both programs** have the same course.

**Proof sketch.** Thinning the beats of one run gives beats of the other, and each beginning of the
other run is obtained in this way. A run that ends does so at a place that is kept, so that both
end, and at the same beat of the course. -/
theorem sameCourse_shift (hq : q.instructions = kept out p.instructions) :
    SameCourse out (m.course a answers) ((m.shift (movedTo out) q).course a answers) := by
  have hthin : ∀ n n', (m.shift (movedTo out) q).beats a answers 0 n' =
        thin out (m.beats a answers 0 n) →
      (m.shift (movedTo out) q).course a answers n' =
        (m.course a answers n).shift (movedTo out) := by
    intro n n' hsame
    unfold course
    rw [hsame]
    exact Course.ofBeats_thin _ fun b hb hplace => quiet_of_mem_beats a answers hout h hb hplace
  have hforth : ∀ n, ∃ n' ≤ n, (m.shift (movedTo out) q).course a answers n' =
      (m.course a answers n).shift (movedTo out) := by
    intro n
    obtain ⟨n', hn', hsame⟩ := beats_shift a answers hout hq n 0 m h
    exact ⟨n', hn', hthin n n' hsame⟩
  have hback : ∀ n', ∃ n, n' ≤ n ∧ (m.shift (movedTo out) q).course a answers n' =
      (m.course a answers n).shift (movedTo out) := by
    intro n'
    obtain ⟨n, hn, hsame⟩ := exists_beats_shift a answers hout hq n' 0 m h
    exact ⟨n, hn, hthin n n' hsame⟩
  refine ⟨hforth, hback, ?_⟩
  by_cases hforever : ∀ n, (m.course a answers n).ending = none
  · refine .inl ⟨hforever, fun n' => ?_⟩
    obtain ⟨n, -, hsame⟩ := hback n'
    rw [hsame, Course.shift, hforever n]
    rfl
  · obtain ⟨n, hn⟩ := Classical.not_forall.1 hforever
    obtain ⟨⟨place, outcome⟩, hending⟩ := Option.ne_none_iff_exists'.1 hn
    obtain ⟨n', -, hsame⟩ := hforth n
    refine .inr ⟨n, n', place, outcome, hending, ?_, ending_course answers hout h hending⟩
    rw [hsame, Course.shift, hending]
    rfl

end Course

/-- A machine that has started a program runs it. -/
lemma runs_started (a : Actuator σ) (m : Machine σ) (p : Program) : (m.started a p).Runs p := by
  have hstands := (m.stands_started a p fun _ => false).1
  exact ⟨hstands.program, hstands.jumps, hstands.status, ⟨_, hstands.process⟩⟩

/-- A machine that has started the other program stands alike in it. -/
lemma started_shift (a : Actuator σ) (m : Machine σ) (p q : Program) (out : Nat → Bool) :
    (m.started a p).shift (movedTo out) q = m.started a q := by
  rw [(m.started_eq_launch a p).2, (m.started_eq_launch a q).2]
  rfl

end Machine

/-- **Remarks are inert.** Take any traces and prints out of any program, and let a machine in any
state load and start both programs. Whatever the robot does and whatever the sensor answers, the
runs have the same course: the same calls to the robot, questions to the sensor, waits, changes of
variables and reports of faults, in the same order, and the same ending.

**Proof sketch.** A step at a remark only moves the process on, and any other step does the same in
both programs, as links move with the places. Remarks follow each other only up to the end of the
program, so no run stays at them while the other one goes on. -/
theorem remarks_inert (a : Actuator σ) (m : Machine σ) {p q : Program} {out : Nat → Bool}
    (hout : OnlyRemarks out p.instructions) (hq : q.instructions = kept out p.instructions) :
    ((m.load a p).machine.startProcess a).value = .ok () ∧
      ((m.load a q).machine.startProcess a).value = .ok () ∧
      ∀ answers : Nat → Bool, SameCourse out ((m.started a p).course a answers)
        ((m.started a q).course a answers) := by
  refine ⟨(m.started_eq_launch a p).1, (m.started_eq_launch a q).1, fun answers => ?_⟩
  rw [← m.started_shift a p q out]
  exact Machine.sameCourse_shift answers hout (m.runs_started a p) hq

/-- A program with remarks at a header, at a closing brace and before a brace without partner. -/
def chattyWalk : Program :=
  .ofInstructions
    [.trace 0, .whileBelow "a" 2, .print "pass", .native .walk [], .increment "a" 1, .trace 1,
      .close, .print "done", .close]

/-- The program without its first trace and its prints. -/
def quietWalk : Program :=
  .ofInstructions
    [.whileBelow "a" 2, .native .walk [], .increment "a" 1, .trace 1, .close, .close]

/-- The places of these remarks. -/
def chatter (place : Nat) : Bool := [0, 2, 7].contains place

/-- The program without some remarks has the same course, to the fault at its last brace. -/
theorem remarks_inert_chattyWalk :
    OnlyRemarks chatter chattyWalk.instructions ∧
      quietWalk.instructions = kept chatter chattyWalk.instructions ∧
      ∀ answers : Nat → Bool, SameCourse chatter
        (((Machine.start {} ()).started .still chattyWalk).course .still answers)
        (((Machine.start {} ()).started .still quietWalk).course .still answers) := by
  have hout : OnlyRemarks chatter chattyWalk.instructions := by
    intro place hplace
    have hmem : place ∈ [0, 2, 7] := List.contains_iff_mem.1 hplace
    simp only [List.mem_cons, List.not_mem_nil, or_false] at hmem
    rcases hmem with rfl | rfl | rfl
    · exact ⟨_, rfl, rfl⟩
    · exact ⟨_, rfl, rfl⟩
    · exact ⟨_, rfl, rfl⟩
  have hq : quietWalk.instructions = kept chatter chattyWalk.instructions := by decide
  exact ⟨hout, hq, (remarks_inert .still (.start {} ()) hout hq).2.2⟩

example : (((Machine.start {} ()).started .still chattyWalk).course .still
    (fun _ => false) 20).ending = some (8, .faulted (.unresolvableJump 8)) := by decide

end StickerBot
