import Mathlib.Tactic.Lemma
import Mathlib.Tactic.Set
import StickerBot.Proofs.Stepping
set_option autoImplicit false

/-!
# Watching a machine

A machine is stepped by whoever drives it, and the sensor may be tapped before any step. What
is seen of such a run is one moment for each step: the signals of the step and what it came to.
The run is over with the first step after which it cannot go on.

## Main definitions

* `Moment` — what is seen of one step.
* `Machine.watch` — the moments of a run, and the machine after it, when taps come as given.
* `Heeds` — the sensor answers as a given sequence says.

## Main results

* `Machine.asks_step` — a step asks the sensor at most once, is answered whether there was a tap
  since it was last asked, and forgets this tap.
* `Machine.exists_taps` — for every sequence of answers, taps can come so that the sensor
  answers as it says.
* `Machine.watch_take_prefix`, `Machine.watch_of_take_over` — a longer run begins like a shorter
  one, and is no longer if that one has left no process.
-/

namespace StickerBot

/-- **Moments.** What is seen of one step, and what it came to. -/
structure Moment where
  signals : List Signal
  outcome : StepOutcome
deriving DecidableEq, Repr

/-- The answer that a signal is, if the sensor was asked. -/
def Signal.answer? : Signal → Option Bool
  | .poll tapped => some tapped
  | _ => none

/-- The answers of the sensor among signals. -/
def answersOf (signals : List Signal) : List Bool := signals.filterMap Signal.answer?

/-- Where nothing is seen no question was answered. -/
@[simp] lemma answersOf_nil : answersOf [] = [] := rfl

/-- An event answers no question. -/
@[simp] lemma answersOf_event (e : Event) (signals : List Signal) :
    answersOf (.event e :: signals) = answersOf signals := rfl

/-- A question to the sensor is followed by its answer. -/
@[simp] lemma answersOf_poll (tapped : Bool) (signals : List Signal) :
    answersOf (.poll tapped :: signals) = tapped :: answersOf signals := rfl

/-- The answers in signals in a row are those in the first ones and then those in the others. -/
@[simp] lemma answersOf_append (signals later : List Signal) :
    answersOf (signals ++ later) = answersOf signals ++ answersOf later :=
  List.filterMap_append

/-- The answers of the sensor at several moments. -/
def Moment.answersAll (ms : List Moment) : List Bool := answersOf (ms.flatMap Moment.signals)

/-- **Heeding.** The sensor answers as a sequence says, from a place of the sequence on. -/
def Heeds (answers : Nat → Bool) (asked : Nat) (ms : List Moment) : Prop :=
  ∀ i b, (Moment.answersAll ms)[i]? = some b → b = answers (asked + i)

/-- The answers at moments and at later moments. -/
@[simp] lemma Moment.answersAll_append (ms ms' : List Moment) :
    answersAll (ms ++ ms') = answersAll ms ++ answersAll ms' := by
  simp [answersAll]

/-- To heed a sequence is to heed it at first and to go on with it afterwards. The answers of a
sequence are those of its first part and then those of its second part, so that the latter are
counted from where the former end. -/
lemma heeds_append_iff {answers : Nat → Bool} {asked : Nat} {ms ms' : List Moment} :
    Heeds answers asked (ms ++ ms') ↔ Heeds answers asked ms ∧
      Heeds answers (asked + (Moment.answersAll ms).length) ms' := by
  constructor
  · intro h
    refine ⟨fun i b hi => h i b ?_, fun i b hi => ?_⟩
    · rw [Moment.answersAll_append]
      exact List.getElem?_append_left (List.getElem?_eq_some_iff.1 hi).1 ▸ hi
    · rw [Nat.add_assoc]
      refine h _ b ?_
      rw [Moment.answersAll_append, List.getElem?_append_right (Nat.le_add_right _ _),
        Nat.add_sub_cancel_left, hi]
  · rintro ⟨hfirst, hlater⟩ i b hi
    rw [Moment.answersAll_append] at hi
    rcases Nat.lt_or_ge i (Moment.answersAll ms).length with hlt | hge
    · exact hfirst i b (by rwa [List.getElem?_append_left hlt] at hi)
    · rw [List.getElem?_append_right hge] at hi
      have h := hlater _ b hi
      rwa [show asked + (Moment.answersAll ms).length + (i - (Moment.answersAll ms).length) =
        asked + i by omega] at h

/-- A run begins by heeding a sequence. -/
lemma Heeds.of_prefix {answers : Nat → Bool} {asked : Nat} {ms ms' : List Moment}
    (h : Heeds answers asked ms') (hp : ms <+: ms') : Heeds answers asked ms := by
  obtain ⟨rest, rfl⟩ := hp
  exact (heeds_append_iff.1 h).1

/-- What is seen of a run, and the machine after it. -/
structure Watch (σ : Type) where
  moments : List Moment
  machine : Machine σ

namespace Machine

variable {σ : Type}

/-- The machine after a tap, if there is one. -/
def sense (m : Machine σ) (tap : Bool) : Machine σ := if tap then m.raise else m

/-- What is seen of the next step. -/
def moment (a : Actuator σ) (m : Machine σ) : Moment := ⟨(m.step a).signals, (m.step a).value⟩

/-- **Watching.** Takes one step for each entry of a list, after a tap if the entry says so, and
none after a step that ends the run. -/
def watch (a : Actuator σ) (m : Machine σ) : List Bool → Watch σ
  | [] => ⟨[], m⟩
  | tap :: taps =>
    let stepped := (m.sense tap).step a
    if StepOutcome.goesOn stepped.value then
      let later := watch a stepped.machine taps
      ⟨(m.sense tap).moment a :: later.moments, later.machine⟩
    else ⟨[(m.sense tap).moment a], stepped.machine⟩

/-! ### The sensor -/

/-- A tap shows nowhere but in the sensor. -/
lemma sense_eq (m : Machine σ) (tap : Bool) :
    m.sense tap = { m with tapped := m.tapped || tap } := by
  cases tap <;> simp [sense, raise]

/-- The sensor was asked at most once between two machines: it was not asked and keeps its tap,
or it was asked, answered whether there was a tap, and has forgotten it. -/
def Asks (m : Machine σ) (signals : List Signal) (m' : Machine σ) : Prop :=
  answersOf signals = [] ∧ m'.tapped = m.tapped ∨
    answersOf signals = [m.tapped] ∧ m'.tapped = false

/-- Reading a variable does not ask the sensor. -/
lemma answersOf_read (m : Machine σ) (p : Process) (x : String) :
    answersOf (m.read p x).2 = [] := by
  unfold read
  split <;> rfl

/-- A loop header asks the sensor at most once. -/
lemma asks_holds (m : Machine σ) (p : Process) (c : Condition) :
    m.Asks (m.holds p c).signals (m.holds p c).machine := by
  cases c with
  | below x limit => exact .inl ⟨m.answersOf_read p x, rfl⟩
  | sensorNotRaised sensor =>
    simp only [holds]
    split
    · exact .inl ⟨rfl, rfl⟩
    · split
      · exact .inr ⟨rfl, rfl⟩
      · exact .inl ⟨rfl, rfl⟩

/-- A call asks the sensor at most once. -/
lemma asks_callNative (a : Actuator σ) (m : Machine σ) (p : Process) (name : String)
    (arguments : List Int32) :
    m.Asks (m.callNative a p name arguments).signals
      (m.callNative a p name arguments).machine := by
  unfold callNative
  split
  · exact .inl ⟨rfl, rfl⟩
  · split
    · exact .inr ⟨rfl, rfl⟩
    · refine .inl ⟨?_, rfl⟩
      dsimp only
      split <;> rfl

/-- An instruction asks the sensor at most once. One case for each instruction: what it asks is
asked by its condition or by its call, and a loop that goes on or ends asks nothing more. -/
lemma asks_execute (a : Actuator σ) (m : Machine σ) (p : Process) (i : Instruction) :
    m.Asks (m.execute a p i).signals (m.execute a p i).machine := by
  cases i with
  | call name arguments => exact m.asks_callNative a p name arguments
  | increment x n => exact .inl ⟨m.answersOf_read p x, rfl⟩
  | loop c =>
    have h := m.asks_holds p c
    rcases hh : m.holds p c with ⟨_ | _ | _, m', signals⟩
    · simpa [execute, hh] using h
    · rw [hh] at h
      simp only [execute, hh]
      split <;> exact h
    · simpa [execute, hh] using h
  | close =>
    simp only [execute]
    split <;> exact .inl ⟨rfl, rfl⟩
  | _ => exact .inl ⟨rfl, rfl⟩

/-- **Sensor.** A step asks the sensor at most once. -/
theorem asks_step (a : Actuator σ) (m : Machine σ) :
    m.Asks (m.step a).signals (m.step a).machine := by
  unfold step
  split
  · rename_i p _ _
    split
    · exact .inl ⟨rfl, rfl⟩
    · rename_i i _
      have h := m.asks_execute a p i
      rcases hx : m.execute a p i with ⟨_ | _ | _ | _, m', signals⟩ <;> rw [hx] at h
      · simpa [Asks, endProcess, hx] using h
      all_goals exact h
  · exact .inl ⟨rfl, rfl⟩

/-- **All answers can come.** For every sequence of answers there are taps for a run of any
length after which the sensor has answered as the sequence says.

**Proof sketch.** A tap comes before a step exactly if the next answer is to be yes. Then there
is never a tap in the sensor that the next answer should not tell of. -/
theorem exists_taps (a : Actuator σ) (answers : Nat → Bool) (n : Nat) :
    ∀ (asked : Nat) (m : Machine σ), (m.tapped = true → answers asked = true) →
      ∃ taps : List Bool, taps.length = n ∧ Heeds answers asked (m.watch a taps).moments := by
  induction n with
  | zero =>
    intro asked m _
    exact ⟨[], rfl, fun i b h => by simp [watch, Moment.answersAll] at h⟩
  | succ n ih =>
    intro asked m hm
    set s := m.sense (answers asked) with hs
    have htapped : s.tapped = answers asked := by
      rw [hs, sense_eq]
      cases ht : m.tapped
      · rfl
      · simp [hm ht]
    -- whether the step asks or not, the next answer still to come is the one to tap for
    obtain ⟨hfirst, hlater⟩ : Heeds answers asked [s.moment a] ∧
        ((s.step a).machine.tapped = true →
          answers (asked + (answersOf (s.step a).signals).length) = true) := by
      rcases s.asks_step a with ⟨hsig, ht⟩ | ⟨hsig, ht⟩
      · refine ⟨fun i b h => ?_, fun h => ?_⟩
        · simp [Moment.answersAll, moment, hsig] at h
        · rw [hsig]
          rw [ht, htapped] at h
          exact h
      · refine ⟨fun i b h => ?_, fun h => ?_⟩
        · simp only [Moment.answersAll, List.flatMap_singleton, moment, hsig, htapped] at h
          obtain ⟨rfl, rfl⟩ := by simpa [List.getElem?_singleton, eq_comm] using h
          rfl
        · rw [ht] at h
          exact absurd h (by simp)
    obtain ⟨taps, hlen, hh⟩ := ih (asked + (answersOf (s.step a).signals).length)
      (s.step a).machine hlater
    refine ⟨answers asked :: taps, by rw [List.length_cons, hlen], ?_⟩
    simp only [watch, ← hs]
    split
    · have hboth : Heeds answers asked
          ([s.moment a] ++ ((s.step a).machine.watch a taps).moments) := by
        refine heeds_append_iff.2 ⟨hfirst, ?_⟩
        simpa [Moment.answersAll, moment] using hh
      exact hboth
    · exact hfirst

/-! ### Longer and shorter runs -/

/-- **Prefixes.** A longer run begins like a shorter one. -/
theorem watch_take_prefix (a : Actuator σ) (taps : List Bool) :
    ∀ (n : Nat) (m : Machine σ),
      (m.watch a (taps.take n)).moments <+: (m.watch a taps).moments := by
  induction taps with
  | nil => intro n m; simp
  | cons tap taps ih =>
    intro n m
    cases n with
    | zero => exact List.nil_prefix
    | succ n =>
      simp only [List.take_succ_cons, watch]
      split
      · exact List.prefix_cons_inj _ |>.2 (ih n _)
      · exact List.prefix_rfl

/-- A step after which the run goes on leaves a process. -/
lemma isSome_process_of_goesOn {a : Actuator σ} {m : Machine σ}
    (h : StepOutcome.goesOn (m.step a).value = true) : (m.step a).machine.process.isSome := by
  have hstep := m.stepped_step a
  generalize m.step a = stepped at h hstep
  cases hstep with
  | moved => rfl
  | _ => exact absurd h (by simp [answer, StepOutcome.goesOn])

/-- **Ends.** A run that has left no process is not longer with more steps. By induction on the taps
that are left. A step behind which nothing goes on is the last one in both runs, whatever taps would
follow it. -/
theorem watch_of_take_over (a : Actuator σ) (taps : List Bool) :
    ∀ (n : Nat) (m : Machine σ), m.process.isSome →
      (m.watch a (taps.take n)).machine.process = none →
      m.watch a taps = m.watch a (taps.take n) := by
  induction taps with
  | nil => intro n m _ _; simp
  | cons tap taps ih =>
    intro n m hm hover
    cases n with
    | zero =>
      have hnone : m.process = none := hover
      exact absurd hm (by simp [hnone])
    | succ n =>
      rw [List.take_succ_cons, watch] at hover ⊢
      rw [watch]
      dsimp only at hover ⊢
      by_cases hgoes : StepOutcome.goesOn ((m.sense tap).step a).value = true
      · rw [if_pos hgoes] at hover ⊢
        rw [if_pos hgoes, ih n _ (isSome_process_of_goesOn hgoes) hover]
      · rw [if_neg hgoes, if_neg hgoes]

end Machine

end StickerBot
