import StickerBot.Proofs.Blocks
import StickerBot.Proofs.Watching
set_option autoImplicit false

/-!
# Running blocks

A block runs as a tree: an instruction, then the rest; a loop asks its condition, runs its body
and does so again until the condition fails, then comes the rest. There is no place to jump to
and no table of links. Places occur only where they are shown, in events and faults.

## Main definitions

* `Setting`, `Scene` — what a run depends on, and what it changes.
* `Setting.perform`, `Setting.ask` — one plain instruction, and one condition.
* `Nest.run` — a block, for a number of steps.
* `Nest.report` — what is seen of a whole program in a number of steps.

## Main results

* `Nest.run_loop_succ` — a loop asks once for each pass and then runs its body and itself again.

## Design

Steps are counted so that a run without end has a meaning: each instruction takes one, a loop's
condition and its closing brace one for each pass. A run that has no step left stops where it
is. The number of steps also bounds the number of passes, which makes the recursion structural.
-/

namespace StickerBot

/-- **Setting.** What a run depends on and never changes. -/
structure Setting (σ : Type) where
  actuator : Actuator σ
  config : MachineConfig
  traceMap : TraceMap
  pid : Nat
  /-- What the touch sensor answers, question by question. -/
  answers : Nat → Bool

/-- **Scene.** What a run changes. -/
structure Scene (σ : Type) where
  robot : σ
  values : Variables
  /-- How many questions the sensor was asked. -/
  asked : Nat

/-- How a run of a block ends. -/
inductive Ending (σ : Type) where
  /-- At the end of the block, with some steps left. -/
  | done (s : Scene σ) (left : Nat)
  /-- Without a step left. -/
  | cut (s : Scene σ)
  /-- By a fault. -/
  | faulted

/-- What is seen of a run of a block, and how it ends. -/
structure Passage (σ : Type) where
  moments : List Moment
  ending : Ending σ

variable {σ : Type}

namespace Scene

/-- The scene with a variable changed. -/
def assign (s : Scene σ) (x : String) (n : Int32) : Scene σ :=
  { s with values := s.values.insert x n }

/-- The scene after a question. -/
def afterQuestion (s : Scene σ) : Scene σ := { s with asked := s.asked + 1 }

end Scene

namespace Passage

/-- A passage after moments that come before. -/
def after (ms : List Moment) (x : Passage σ) : Passage σ := ⟨ms ++ x.moments, x.ending⟩

/-- One passage after another, which takes the steps that are left. -/
def andThen (x : Passage σ) (next : Nat → Scene σ → Passage σ) : Passage σ :=
  match x.ending with
  | .done s left => (next left s).after x.moments
  | .cut _ | .faulted => x

end Passage

namespace Setting

variable (w : Setting σ)

/-- What events at a place tell about the process. -/
def info (place : Nat) : ProcessInfo := ⟨w.pid, place, .running⟩

/-- The report that the process has ended at a place. -/
def stopped (place : Nat) : Signal := .event (.processStopped ⟨w.pid, place, .stopped⟩)

/-- The report of a fault at a place. -/
def reportFault (place : Nat) (f : Fault) : Signal :=
  .event (.error (w.info place) f.message)

/-- The moment of a fault that ends the process. -/
def faultMoment (place : Nat) (f : Fault) : Moment :=
  ⟨[w.reportFault place f, w.stopped place], .faulted f⟩

/-- The moment after the last instruction. -/
def finishMoment (place : Nat) : Moment := ⟨[w.stopped place], .finished⟩

/-- The value of a variable, and what is reported: a variable without a value counts as
zero. -/
def value (place : Nat) (s : Scene σ) (x : String) : Int32 × List Signal :=
  match s.values.get? x with
  | some n => (n, [])
  | none => (0, [w.reportFault place (.undefinedVariable x)])

/-- **A call.** It is reported, and then the sensor is asked or the robot acts. A status other
than zero is reported and nothing more. -/
def call (place : Nat) (s : Scene σ) (name : String) (arguments : List Int32) :
    Except Fault (Moment × Scene σ) :=
  match NativeAction.ofName? name with
  | none => .error (.unknownNative name place)
  | some action =>
    let report := Signal.event (.print (w.info place) (Instruction.call name arguments).render)
    if action.isSensor then
      .ok (⟨[report, .poll (w.answers s.asked)], .continue⟩, s.afterQuestion)
    else
      let (status, robot) := w.actuator.perform action arguments s.robot
      let failure := if status = 0 then [] else [w.reportFault place (.nativeStatus name status)]
      .ok (⟨report :: .robot (.perform action arguments) :: failure, .continue⟩,
        { s with robot := robot })

/-- **A plain instruction.** What is seen of it and the scene after it, or its fault. -/
def perform (place : Nat) (s : Scene σ) : Plain → Except Fault (Moment × Scene σ)
  | .call name arguments => w.call place s name arguments
  | .wait units => .ok (⟨[], .wait (w.config.waitMs units)⟩, s)
  | .assign x n => .ok (⟨[], .continue⟩, s.assign x n)
  | .increment x n =>
    let (old, report) := w.value place s x
    .ok (⟨report, .continue⟩, s.assign x (Machine.addSaturating old n))
  | .trace point =>
    .ok (⟨[.event (.trace (w.info place) point (w.traceMap.get? point))], .continue⟩, s)
  | .print text => .ok (⟨[.event (.print (w.info place) text)], .continue⟩, s)

/-- **A condition.** What is seen of it, whether the loop goes round once more, and the scene
after it, or its fault. -/
def ask (place : Nat) (s : Scene σ) : Condition → Except Fault (Moment × Bool × Scene σ)
  | .below x limit =>
    let (n, report) := w.value place s x
    .ok (⟨report, .continue⟩, decide (n < limit), s)
  | .sensorNotRaised sensor =>
    match NativeAction.ofName? sensor with
    | none => .error (.unknownNative sensor place)
    | some action =>
      if action.isSensor then
        let tapped := w.answers s.asked
        .ok (⟨[.poll tapped], .continue⟩, !tapped, s.afterQuestion)
      else .error (.notASensor sensor)

end Setting

/-- **The passes of a loop.** Asks, runs the body, takes a step for the closing brace, and begins
again, for as many passes as the bound says at most. -/
def passes (ask : Scene σ → Except Fault (Moment × Bool × Scene σ)) (fault : Fault → Moment)
    (body : Nat → Scene σ → Passage σ) : (bound steps : Nat) → Scene σ → Passage σ
  | 0, _, s => ⟨[], .cut s⟩
  | _ + 1, 0, s => ⟨[], .cut s⟩
  | bound + 1, steps + 1, s =>
    match ask s with
    | .error f => ⟨[fault f], .faulted⟩
    | .ok (moment, false, s) => ⟨[moment], .done s steps⟩
    | .ok (moment, true, s) =>
      ((body steps s).andThen fun left s =>
        match left with
        | 0 => ⟨[], .cut s⟩
        | left + 1 => (passes ask fault body bound left s).after [⟨[], .continue⟩]).after [moment]

namespace Nest

/-- **Running a block** that begins at a place, for a number of steps. -/
def run (w : Setting σ) : (place : Nat) → Block → (steps : Nat) → Scene σ → Passage σ
  | _, .empty, steps, s => ⟨[], .done s steps⟩
  | _, .plain _ _, 0, s => ⟨[], .cut s⟩
  | place, .plain i rest, steps + 1, s =>
    match w.perform place s i with
    | .error f => ⟨[w.faultMoment place f], .faulted⟩
    | .ok (moment, s) => (run w (place + 1) rest steps s).after [moment]
  | place, .loop c body rest, steps, s =>
    (passes (fun s => w.ask place s c) (w.faultMoment place)
      (fun steps s => run w (place + 1) body steps s) steps steps s).andThen
      fun left s => run w (place + body.length + 2) rest left s

end Nest

/-- **Report.** What is seen of a run, and the variables as long as it goes on. -/
structure Report where
  moments : List Moment
  values : Option Variables
deriving DecidableEq

/-- **Running a whole program** as a tree, from its beginning and without variables. -/
def Nest.report (b : Block) (w : Setting σ) (robot : σ) (steps : Nat) : Report :=
  let x := b.run w 0 steps ⟨robot, .empty, 0⟩
  match x.ending with
  | .done s 0 | .cut s => ⟨x.moments, some s.values⟩
  | .done _ (_ + 1) => ⟨x.moments ++ [w.finishMoment b.length], none⟩
  | .faulted => ⟨x.moments, none⟩

/-! ### Passages one after the other -/

namespace Passage

/-- No steps before a run are none. -/
@[simp] lemma after_nil (x : Passage σ) : x.after [] = x := rfl

/-- Steps before steps before a run are all of them in a row before it. -/
@[simp] lemma after_after (ms ms' : List Moment) (x : Passage σ) :
    (x.after ms').after ms = x.after (ms ++ ms') := by
  simp [after]

/-- The steps of a run behind others. -/
@[simp] lemma moments_after (ms : List Moment) (x : Passage σ) :
    (x.after ms).moments = ms ++ x.moments := rfl

/-- Behind a run that is done comes the next one, with the steps that are left. -/
@[simp] lemma andThen_done (ms : List Moment) (s : Scene σ) (left : Nat)
    (next : Nat → Scene σ → Passage σ) :
    andThen ⟨ms, .done s left⟩ next = (next left s).after ms := rfl

/-- Nothing comes behind a run that was cut: no steps are left for it. -/
@[simp] lemma andThen_cut (ms : List Moment) (s : Scene σ) (next : Nat → Scene σ → Passage σ) :
    andThen ⟨ms, .cut s⟩ next = ⟨ms, .cut s⟩ := rfl

/-- Nothing comes behind a run that has faulted. -/
@[simp] lemma andThen_faulted (ms : List Moment) (next : Nat → Scene σ → Passage σ) :
    andThen ⟨ms, .faulted⟩ next = ⟨ms, .faulted⟩ := rfl

/-- Steps before a run stay before it when another run follows. -/
@[simp] lemma andThen_after (ms : List Moment) (x : Passage σ)
    (next : Nat → Scene σ → Passage σ) :
    (x.after ms).andThen next = (x.andThen next).after ms := by
  rcases x with ⟨ms', _ | _ | _⟩ <;> simp [after]

/-- Of three passages it does not matter which two are taken together. -/
lemma andThen_assoc (x : Passage σ) (f g : Nat → Scene σ → Passage σ) :
    (x.andThen f).andThen g = x.andThen fun left s => (f left s).andThen g := by
  rcases x with ⟨ms, _ | _ | _⟩ <;> simp

end Passage

/-! ### Steps are never given back -/

/-- A passage that leaves at most so many steps. -/
def Passage.LeavesAtMost (x : Passage σ) (n : Nat) : Prop :=
  ∀ s left, x.ending = .done s left → left ≤ n

/-- If no passage of a row gives steps back, the row does not. -/
lemma Passage.LeavesAtMost.andThen {x : Passage σ} {next : Nat → Scene σ → Passage σ} {n : Nat}
    (hx : x.LeavesAtMost n) (hn : ∀ left s, (next left s).LeavesAtMost left) :
    (x.andThen next).LeavesAtMost n := by
  intro s left h
  rcases x with ⟨ms, ⟨s', left'⟩ | _ | _⟩
  · exact Nat.le_trans (hn left' s' s left h) (hx s' left' rfl)
  all_goals simp at h

section Passes

variable {ask : Scene σ → Except Fault (Moment × Bool × Scene σ)} {fault : Fault → Moment}
  {body : Nat → Scene σ → Passage σ}

/-- The passes of a loop give no steps back if its body gives none back. By induction on the bound.
Each pass takes a step for its header and one for its closing brace, and its body gives none back by
assumption. -/
lemma leavesAtMost_passes (hbody : ∀ n s, (body n s).LeavesAtMost n) (bound : Nat) :
    ∀ n s, (passes ask fault body bound n s).LeavesAtMost n := by
  induction bound with
  | zero => intro n s s' left h; simp [passes] at h
  | succ bound ih =>
    intro n s
    cases n with
    | zero => intro s' left h; simp [passes] at h
    | succ n =>
      simp only [passes]
      split
      · intro s' left h; simp at h
      · intro s' left h
        obtain ⟨-, rfl⟩ := Ending.done.inj h
        exact Nat.le_succ n
      · rename_i moment s₁ _
        refine fun s' left h' => Nat.le_succ_of_le ?_
        refine (hbody n s₁).andThen (fun left s => ?_) s' left h'
        cases left with
        | zero => intro s' left' h'; simp at h'
        | succ left => exact fun s' left' h' => Nat.le_succ_of_le (ih left s s' left' h')

/-- A bound on the passes does not matter if it is no less than the number of steps. By induction on
the bound. A pass takes at least one step, so that fewer steps than passes are left for what comes
after it. -/
lemma passes_eq_of_le (hbody : ∀ n s, (body n s).LeavesAtMost n) (bound : Nat) :
    ∀ bound' n s, n ≤ bound → n ≤ bound' →
      passes ask fault body bound n s = passes ask fault body bound' n s := by
  induction bound with
  | zero =>
    intro bound' n s h _
    obtain rfl : n = 0 := by omega
    cases bound' <;> rfl
  | succ bound ih =>
    intro bound' n s h h'
    cases n with
    | zero => cases bound' <;> rfl
    | succ n =>
      obtain ⟨bound', rfl⟩ : ∃ k, bound' = k + 1 := ⟨bound' - 1, by omega⟩
      simp only [passes]
      split
      · rfl
      · rfl
      · rename_i moment s₁ _
        congr 1
        have hb := hbody n s₁
        rcases hx : body n s₁ with ⟨ms, ⟨s₂, left⟩ | _ | _⟩
        · simp only [Passage.andThen_done]
          have hle : left ≤ n := hb s₂ left (by rw [hx])
          cases left with
          | zero => rfl
          | succ left =>
            dsimp only
            rw [ih bound' left s₂ (by omega) (by omega)]
        all_goals rfl

end Passes

namespace Nest

/-- A block gives no steps back. By induction on the block: an instruction takes one step, and a
loop leaves what its passes leave. -/
lemma leavesAtMost_run (w : Setting σ) (b : Block) :
    ∀ place n s, (run w place b n s).LeavesAtMost n := by
  induction b with
  | empty =>
    intro place n s s' left h
    obtain ⟨-, rfl⟩ := Ending.done.inj h
    exact Nat.le_refl _
  | plain i rest ih =>
    intro place n s
    cases n with
    | zero => intro s' left h; simp [run] at h
    | succ n =>
      simp only [run]
      split
      · intro s' left h; simp at h
      · exact fun s' left h => Nat.le_succ_of_le (ih (place + 1) n _ s' left h)
  | loop c body rest ihb ihr =>
    intro place n s
    rw [run]
    exact (leavesAtMost_passes (fun n s => ihb (place + 1) n s) n n s).andThen
      fun left s => ihr (place + body.length + 2) left s

/-! ### Unfolding a loop -/

/-- The empty block is done at once, and uses none of the steps. -/
@[simp] lemma run_empty (w : Setting σ) (place steps : Nat) (s : Scene σ) :
    run w place .empty steps s = ⟨[], .done s steps⟩ := by
  rw [run]

/-- Without steps an instruction is not reached. -/
@[simp] lemma run_plain_zero (w : Setting σ) (place : Nat) (i : Plain) (rest : Block)
    (s : Scene σ) : run w place (.plain i rest) 0 s = ⟨[], .cut s⟩ := by
  rw [run]

/-- A plain instruction is performed before the rest. -/
lemma run_plain_succ (w : Setting σ) (place : Nat) (i : Plain) (rest : Block) (steps : Nat)
    (s : Scene σ) :
    run w place (.plain i rest) (steps + 1) s =
      match w.perform place s i with
      | .error f => ⟨[w.faultMoment place f], .faulted⟩
      | .ok (moment, s) => (run w (place + 1) rest steps s).after [moment] := by
  rw [run]

/-- Without steps the header of a loop is not reached. -/
@[simp] lemma run_loop_zero (w : Setting σ) (place : Nat) (c : Condition) (body rest : Block)
    (s : Scene σ) : run w place (.loop c body rest) 0 s = ⟨[], .cut s⟩ := by
  rw [run]
  rfl

/-- What follows the body of a loop: its closing brace, and the loop again. -/
def again (w : Setting σ) (place : Nat) (l : Block) (left : Nat) (s : Scene σ) : Passage σ :=
  match left with
  | 0 => ⟨[], .cut s⟩
  | left + 1 => (run w place l left s).after [⟨[], .continue⟩]

/-- **A loop, one pass at a time.** Its condition is asked; if it holds the body runs, and after
it the loop again, and if not, what follows the loop. -/
theorem run_loop_succ (w : Setting σ) (place : Nat) (c : Condition) (body rest : Block)
    (steps : Nat) (s : Scene σ) :
    run w place (.loop c body rest) (steps + 1) s =
      match w.ask place s c with
      | .error f => ⟨[w.faultMoment place f], .faulted⟩
      | .ok (moment, false, s) => (run w (place + body.length + 2) rest steps s).after [moment]
      | .ok (moment, true, s) =>
        ((run w (place + 1) body steps s).andThen
          (again w place (.loop c body rest))).after [moment] := by
  have hbody := fun n s => leavesAtMost_run w body (place + 1) n s
  rw [run, passes]
  rcases hask : w.ask place s c with f | ⟨moment, _ | _, s₁⟩
  · rfl
  · rfl
  · simp only [Passage.andThen_after, Passage.andThen_assoc]
    congr 1
    have hb := hbody steps s₁
    rcases hx : run w (place + 1) body steps s₁ with ⟨ms, ⟨s₂, left⟩ | _ | _⟩
    · simp only [Passage.andThen_done]
      have hle : left ≤ steps := hb s₂ left (by rw [hx])
      cases left with
      | zero => rfl
      | succ left =>
        simp only [again, run]
        rw [passes_eq_of_le hbody steps left left s₂ (by omega) (Nat.le_refl _)]
        simp
    all_goals rfl

end Nest

end StickerBot
