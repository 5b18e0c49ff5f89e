import StickerBot.Generate.Context
import StickerBot.Layout
set_option autoImplicit false

/-!
# What each statement writes

Every kind of statement has its own piece of code. A repeat writes only the beginning of its
loop and leaves it open; the end of the repeat closes it.

## Main definitions

* `waitCode` — the code of a wait: announced, then counted in ticks or until the sensor is
  tapped.
* `repeatCode` — the beginning of a repeat.
* `emitStatement` — writes one statement.
-/

namespace StickerBot

/-- The units of a wait after it is announced, and of each tick. -/
def waitTick : UInt32 := 1000

/-- The units of a wait for a tap after it is announced. -/
def tapSettle : UInt32 := 500

/-- The units between two questions to the sensor. -/
def sensorPoll : UInt32 := 100

/-- The units at the beginning of each counted pass of a repeat. -/
def repeatSettle : UInt32 := 500

/-- The number that announces a wait for a tap. -/
def tapAnnounce : Int32 := 1

/-- The code of a wait, counted by a variable if there is a limit. -/
def waitCode (v : ParameterValue) (counter : String) : List Instruction :=
  match v.limit? with
  | none =>
    [.native .wait [tapAnnounce], .wait tapSettle, .whileNotRaised .touchSensor,
      .wait sensorPoll, .close]
  | some limit =>
    [.native .wait [limit], .wait waitTick, .assign counter 0, .whileBelow counter limit,
      .wait waitTick, .increment counter 1, .close]

/-- The code that begins a repeat, counted by a variable if there is a limit. -/
def repeatCode (v : ParameterValue) (counter : String) : List Instruction :=
  match v.limit? with
  | none => [.whileNotRaised .touchSensor, .wait sensorPoll]
  | some limit =>
    [.assign counter 0, .whileBelow counter limit, .wait repeatSettle, .increment counter 1]

/-- The variable of a repeat, if its passes are counted. -/
def repeatCounter (v : ParameterValue) (counter : String) : Option String :=
  v.limit?.map fun _ => counter

/-- Writes the remarks before a statement, if they are wanted. -/
def emitRemarks (id : Nat) (name : String) (c : Context) : Context :=
  if c.options.debug then
    let (point, c) := c.tracePoint id
    c.emitAll [.trace point, .print name]
  else c

/-- The value plugged into a statement, which is marked as part of the program. Nothing
plugged in means without end. -/
def readParameter (id : Nat) (l : Layout) : ParameterValue × Layout :=
  match (l.get? id).bind Statement.parameter? with
  | none => (.forever, l)
  | some target =>
    match (l.get? target).map Statement.kind with
    | some (.parameter v) => (v, l.markCompiled target)
    | _ => (.forever, l)

/-- The warning about the end of a repeat that never began. -/
def unmatchedLoopEnd (id : Nat) (name : String) : Diagnostic :=
  ((Diagnostic.warning .unmatchedLoopEnd
    ("'" ++ name ++ "' has no Begin Repeat before it")).atStatement id).withSuggestion
    "Place a Begin Repeat sticker earlier in the chain"

/-- Closes the innermost loop, or reports that there is none. -/
def emitLoopEnd (id : Nat) (name : String) (c : Context) : Context :=
  match c.closeBlock with
  | (some _, c) => c.emit .close
  | (none, c) => c.report (unmatchedLoopEnd id name)

/-- **Writing a statement.** The start and parameters write nothing of their own. -/
def emitStatement (id : Nat) (l : Layout) (c : Context) : Layout × Context :=
  match l.get? id with
  | none => (l, c)
  | some s =>
    match s.kind with
    | .start | .parameter _ => (l, c)
    | .action a => (l, (emitRemarks id s.name c).emit (.native a []))
    | .wait =>
      let (v, l) := readParameter id l
      let c := emitRemarks id s.name c
      (l, c.emitAll (waitCode v c.counterName))
    | .loopBegin =>
      let (v, l) := readParameter id l
      let c := emitRemarks id s.name c
      let counter := c.counterName
      (l, (c.emitAll (repeatCode v counter)).openBlock ⟨id, repeatCounter v counter⟩)
    | .loopEnd => (l, emitLoopEnd id s.name c)

end StickerBot
