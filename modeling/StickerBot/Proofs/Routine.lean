import Mathlib.Algebra.Group.Nat.Defs
import StickerBot.Generate.Emit
import StickerBot.Proofs.Structured
set_option autoImplicit false

/-!
# Routines: what a page of stickers asks for

The stickers of a page are a tree as soon as every repeat has its end: actions and waits, and
repeats that hold what they repeat. What such a routine makes happen is told by recursion on the
tree, without variables, counters or places in a program.

## Main definitions

* `Sticker`, `Routine` — the trees.
* `Deed` — a call to the robot, a question to the sensor, or a wait.
* `Script` — deeds that depend on what the sensor answers.
* `Routine.script` — what a routine makes happen.

## Main results

* `ParameterValue.limit?_eq` — the limit written into a program is the number of passes.

## Design

A routine that waits for a tap may never end. Therefore a script is given patience: a loop that
waits for a tap is given up after so many passes, and with more patience more of the script is
seen. What the robot answers is never looked at, so a script does not depend on it.
-/

namespace StickerBot

/-! ### Trees -/

/-- **Stickers** that nest nothing: an action, and a wait with its parameter. -/
inductive Sticker where
  | act (a : NativeAction)
  | wait (v : ParameterValue)
deriving DecidableEq, Repr

/-- **Routines.** A page as a tree: a repeat holds its parameter and what it repeats. -/
abbrev Routine := Nest Sticker ParameterValue

/-- How many passes a parameter asks for, as far as a word with a sign holds them. A tap asks for
no number, and a loop without end has a thousand passes. -/
def ParameterValue.passes? : ParameterValue → Option Nat
  | .count n => some (min n.toNat (2 ^ 31 - 1))
  | .forever => some 1000
  | .tap => none

/-! ### Deeds -/

/-- **Deeds.** What a run does to the world, and what it asks it. -/
inductive Deed where
  | call (c : RobotCall)
  | poll (tapped : Bool)
  | wait (ms : Nat)
deriving DecidableEq, Repr

/-- The deed that a signal is; events are none. -/
def Signal.deed? : Signal → Option Deed
  | .robot c => some (.call c)
  | .poll tapped => some (.poll tapped)
  | .event _ => none

/-- The wait that a step came to, if it did. -/
def StepOutcome.waits : StepOutcome → List Deed
  | .wait ms => [.wait ms]
  | _ => []

/-- The deeds of one step. -/
def Moment.deeds (m : Moment) : List Deed := m.signals.filterMap Signal.deed? ++ m.outcome.waits

/-- **The deeds of a run**, in order. -/
def deedsOf (ms : List Moment) : List Deed := ms.flatMap Moment.deeds

/-- No steps do nothing. -/
@[simp] lemma deedsOf_nil : deedsOf [] = [] := rfl

/-- The deeds of a run are those of its first step and then those of the others. -/
@[simp] lemma deedsOf_cons (m : Moment) (ms : List Moment) :
    deedsOf (m :: ms) = m.deeds ++ deedsOf ms := rfl

/-- The deeds of a run in two parts are those of the first part and then those of the second. -/
@[simp] lemma deedsOf_append (ms ms' : List Moment) :
    deedsOf (ms ++ ms') = deedsOf ms ++ deedsOf ms' :=
  List.flatMap_append

/-- A step that shows only events does nothing. -/
@[simp] lemma Moment.deeds_quiet : Moment.deeds ⟨[], .continue⟩ = [] := rfl

/-! ### Scripts -/

/-- What a script comes to: its deeds, and how often the sensor was asked up to its end, unless
it was given up. -/
abbrev Telling := List Deed × Option Nat

/-- **Scripts.** What is told, from how often the sensor was asked before. -/
abbrev Script := Nat → Telling

/-- What was told, and a script after it. Nothing comes after what was given up. -/
def Telling.andThen (t : Telling) (y : Script) : Telling :=
  match t with
  | (ds, none) => (ds, none)
  | (ds, some asked) => (ds ++ (y asked).1, (y asked).2)

namespace Script

/-- The script without deeds. -/
def nothing : Script := fun asked => ([], some asked)

/-- One deed. -/
def does (d : Deed) : Script := fun asked => ([d], some asked)

/-- One question to the sensor. -/
def poll (answers : Nat → Bool) : Script :=
  fun asked => ([.poll (answers asked)], some (asked + 1))

/-- One script after another. -/
def andThen (x y : Script) : Script := fun asked => Telling.andThen (x asked) y

/-- A script so many times. -/
def times (x : Script) : Nat → Script
  | 0 => nothing
  | n + 1 => x.andThen (x.times n)

/-- **Until a tap.** Asks the sensor, and if it was not tapped follows a script and asks again. -/
def untilTap (answers : Nat → Bool) (x : Script) : (patience : Nat) → Script
  | 0, _ => ([], none)
  | patience + 1, asked =>
    if answers asked then poll answers asked
    else ((poll answers).andThen (x.andThen (x.untilTap answers patience))) asked

/-- Nothing after a script changes nothing, also where the script was given up. -/
lemma andThen_nothing (x : Script) : x.andThen nothing = x := by
  funext asked
  rcases h : x asked with ⟨ds, _ | asked'⟩ <;> simp [andThen, Telling.andThen, nothing, h]

/-- Asking until a tap ends with a tap. -/
lemma untilTap_of_tapped {answers : Nat → Bool} {asked : Nat} (h : answers asked = true)
    (x : Script) (patience : Nat) :
    x.untilTap answers (patience + 1) asked = ([.poll true], some (asked + 1)) := by
  simp [untilTap, poll, h]

/-- Asking until a tap goes on without one. -/
lemma untilTap_of_untapped {answers : Nat → Bool} {asked : Nat} (h : answers asked = false)
    (x : Script) (patience : Nat) :
    x.untilTap answers (patience + 1) asked =
      Telling.andThen ([.poll false], some (asked + 1))
        (x.andThen (x.untilTap answers patience)) := by
  simp [untilTap, andThen, poll, h]

end Script

/-! ### What routines make happen -/

section Scripts

variable (config : MachineConfig) (answers : Nat → Bool) (patience : Nat)

/-- A wait of so many units. -/
def Script.pause (units : UInt32) : Script := .does (.wait (config.waitMs units))

/-- **The script of a sticker.** An action is one call without arguments, or one question to the
sensor. A wait is announced; then it takes a tick and one more for each pass, or it settles and
waits until a tap. -/
def Sticker.script : Sticker → Script
  | .act a => if a.isSensor then .poll answers else .does (.call (.perform a []))
  | .wait v =>
    match v.passes? with
    | some n =>
      (Script.does (.call (.perform .wait [Int32.ofNat n]))).andThen
        ((Script.pause config 1000).times (n + 1))
    | none =>
      (Script.does (.call (.perform .wait [1]))).andThen
        ((Script.pause config 500).andThen
          ((Script.pause config 100).untilTap answers patience))

/-- The script of a repeat whose body has a script: so many passes that settle first, or passes
until a tap. -/
def ParameterValue.repeats (v : ParameterValue) (body : Script) : Script :=
  match v.passes? with
  | some n => ((Script.pause config 500).andThen body).times n
  | none => ((Script.pause config 100).andThen body).untilTap answers patience

/-- **The script of a routine.** -/
def Nest.script : Routine → Script
  | .empty => .nothing
  | .plain s rest => (s.script config answers patience).andThen rest.script
  | .loop v body rest =>
    (v.repeats config answers patience body.script).andThen rest.script

end Scripts

/-! ### Passes are counted exactly -/

/-- The limit that the program counts to is the number of passes. -/
lemma ParameterValue.limit?_eq (v : ParameterValue) : v.limit? = v.passes?.map Int32.ofNat := by
  cases v <;> rfl

/-- The number of passes fits into a word with a sign. -/
lemma ParameterValue.passes?_lt {v : ParameterValue} {n : Nat} (h : v.passes? = some n) :
    n < 2 ^ 31 := by
  cases v with
  | count k =>
    obtain rfl := Option.some.inj h
    omega
  | forever =>
    obtain rfl := Option.some.inj h
    omega
  | tap => exact absurd h (by simp [passes?])

end StickerBot
