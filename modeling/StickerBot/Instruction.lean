set_option autoImplicit false

/-!
# Instructions: the robot's language

A program is a sequence of instructions: native actions of the robot, waits, counters, loops
and two kinds of remarks. Native actions and sensors are kept by name, so that a listing may
name an action that no robot has; that is found out when the instruction is reached.

## Main definitions

* `NativeAction` — what the robot can be told to do, with the names used in listings.
* `Condition`, `Instruction` — loop headers and instructions.
* `Instruction.render` — the listing form of an instruction.

## Main results

* `NativeAction.ofName?_name` — an action is found under its own name.
-/

namespace StickerBot

/-- **Native actions.** The fixed vocabulary of the robot. -/
inductive NativeAction where
  | walk
  | run
  | jump
  | spin
  | wiggle
  | sleep
  | yawn
  | stand
  | finale
  | dance
  /-- Announces a wait. -/
  | wait
  /-- Asks the touch sensor. -/
  | touchSensor
deriving DecidableEq, Repr, Inhabited

namespace NativeAction

/-- Every native action. -/
def all : List NativeAction :=
  [.walk, .run, .jump, .spin, .wiggle, .sleep, .yawn, .stand, .finale, .dance, .wait,
    .touchSensor]

/-- The name of an action in a listing. -/
def name : NativeAction → String
  | .walk => "walk"
  | .run => "run"
  | .jump => "jump"
  | .spin => "spin"
  | .wiggle => "wiggle"
  | .sleep => "sleep"
  | .yawn => "yawn"
  | .stand => "stand"
  | .finale => "end"
  | .dance => "dance"
  | .wait => "doWait"
  | .touchSensor => "getTouchSensor"

/-- The action that a listing means by a name. -/
def ofName? (name : String) : Option NativeAction := all.find? (fun a => a.name = name)

/-- Whether the action asks a sensor, and so may stand in a loop header. -/
def isSensor : NativeAction → Bool
  | .touchSensor => true
  | _ => false

/-- An action is found under its own name. -/
@[simp] theorem ofName?_name (a : NativeAction) : ofName? a.name = some a := by
  cases a <;> decide

/-- A name belongs to an action exactly when it is the action's name. -/
theorem ofName?_eq_some_iff {s : String} {a : NativeAction} :
    ofName? s = some a ↔ s = a.name := by
  constructor
  · intro h
    have := List.find?_some h
    simpa using (of_decide_eq_true this).symm
  · rintro rfl
    exact ofName?_name a

end NativeAction

/-- **Loop conditions.** What a loop header asks before every pass. -/
inductive Condition where
  /-- The variable is below the limit. -/
  | below (variableName : String) (limit : Int32)
  /-- The sensor was not raised. -/
  | sensorNotRaised (sensor : String)
deriving DecidableEq, Repr, Inhabited

/-- **Instructions.** One step of a program. -/
inductive Instruction where
  /-- Calls a native action by name. -/
  | call (name : String) (arguments : List Int32)
  /-- Lets time pass. -/
  | wait (units : UInt32)
  /-- Gives a variable a value. -/
  | assign (variableName : String) (value : Int32)
  /-- Adds to a variable. -/
  | increment (variableName : String) (step : Int32)
  /-- Opens a loop. -/
  | loop (condition : Condition)
  /-- Closes a loop. -/
  | close
  /-- Marks a point that the run reports. -/
  | trace (point : UInt32)
  /-- Reports a text. -/
  | print (text : String)
deriving DecidableEq, Repr, Inhabited

namespace Condition

/-- The listing form of a condition. -/
def render : Condition → String
  | .below x n => x ++ " < " ++ toString n.toInt
  | .sensorNotRaised s => "not " ++ s ++ "()"

end Condition

namespace Instruction

/-- The call of a native action. -/
def native (a : NativeAction) (arguments : List Int32) : Instruction := .call a.name arguments

/-- The header of a loop that runs while a variable is below a limit. -/
def whileBelow (x : String) (limit : Int32) : Instruction := .loop (.below x limit)

/-- The header of a loop that runs until a sensor is raised. -/
def whileNotRaised (sensor : NativeAction) : Instruction :=
  .loop (.sensorNotRaised sensor.name)

/-- Whether the instruction calls a native action. -/
def isCall : Instruction → Bool
  | .call _ _ => true
  | _ => false

/-- Whether the instruction only reports to whoever watches the run. -/
def isRemark : Instruction → Bool
  | .trace _ | .print _ => true
  | _ => false

/-- The characters that stand for one character inside a string literal. -/
def escapeChar : Char → List Char
  | '"' => ['\\', '"']
  | '\\' => ['\\', '\\']
  | '\n' => ['\\', 'n']
  | '\t' => ['\\', 't']
  | '\r' => ['\\', 'r']
  | c => [c]

/-- The inside of a string literal: quotes, backslashes, line breaks, tabs and returns are
escaped and all else stands for itself. -/
def escape (text : String) : String := String.ofList (text.toList.flatMap escapeChar)

/-- **Listing form.** One line per instruction, except that the brace which opens a loop
stands on a line of its own. -/
def render : Instruction → String
  | .call f args => f ++ "(" ++ ", ".intercalate (args.map fun n => toString n.toInt) ++ ")"
  | .wait n => "wait " ++ toString n.toNat
  | .assign x n => x ++ " = " ++ toString n.toInt
  | .increment x n => x ++ " = " ++ x ++ " + " ++ toString n.toInt
  | .loop c => "while " ++ c.render ++ ":\n\x7b"
  | .close => "\x7d"
  | .trace n => "trace " ++ toString n.toNat
  | .print s => "print \"" ++ escape s ++ "\""

end Instruction

end StickerBot
