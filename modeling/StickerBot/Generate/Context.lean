import StickerBot.Diagnostic
import StickerBot.Program
set_option autoImplicit false

/-!
# The state of code generation

While a program is written, the context holds what is written so far, the loops that are still
open, the next trace point and what was found to be wrong.

## Main definitions

* `GenerateOptions` — whether remarks are written, and how long a chain may be.
* `OpenBlock` — a loop that is still open.
* `Context`, `Context.emit`, `Context.tracePoint`, `Context.openBlock`, `Context.closeBlock` —
  the state and its operations.
* `Context.counterName` — the variable of a loop opened now.
-/

namespace StickerBot

/-- **Options.** -/
structure GenerateOptions where
  /-- Write a trace point and a remark before every action, wait and repeat. -/
  debug : Bool := false
  /-- How far from the start a statement may be. -/
  maxChainDepth : Nat := 256
deriving DecidableEq, Repr, Inhabited

/-- **Open block.** A loop that is not closed yet. -/
structure OpenBlock where
  /-- The statement that opened it. -/
  statement : Nat
  /-- The variable that counts its passes, if they are counted. -/
  counter : Option String
deriving DecidableEq, Repr, Inhabited

/-- **Context.** The state of one generation. -/
structure Context where
  options : GenerateOptions
  instructions : List Instruction
  traceMap : TraceMap
  nextTrace : UInt32
  /-- The loops still open, the innermost first. -/
  openBlocks : List OpenBlock
  diagnostics : DiagnosticLog
deriving Inhabited

namespace Context

/-- Nothing written yet. -/
def start (options : GenerateOptions) : Context := ⟨options, [], .empty, 0, [], .empty⟩

/-- Writes one instruction. -/
def emit (c : Context) (i : Instruction) : Context :=
  { c with instructions := c.instructions ++ [i] }

/-- Writes instructions in order. -/
def emitAll (c : Context) (is : List Instruction) : Context :=
  { c with instructions := c.instructions ++ is }

/-- The next trace point, which from now on comes from a statement. -/
def tracePoint (c : Context) (statement : Nat) : UInt32 × Context :=
  (c.nextTrace,
    { c with
      nextTrace := c.nextTrace + 1
      traceMap := c.traceMap.insert c.nextTrace statement })

/-- How many loops are open. -/
def depth (c : Context) : Nat := c.openBlocks.length

/-- The name of the variable that counts at a depth: a letter while there are letters, then
`a` and the depth. -/
def counterAt (depth : Nat) : String :=
  if depth < 26 then (Char.ofNat ('a'.toNat + depth)).toString else "a" ++ toString depth

/-- **Counter name.** The variable of a loop that is opened now. -/
def counterName (c : Context) : String := counterAt c.depth

/-- Opens a loop. -/
def openBlock (c : Context) (b : OpenBlock) : Context :=
  { c with openBlocks := b :: c.openBlocks }

/-- Closes the innermost loop, if one is open. -/
def closeBlock (c : Context) : Option OpenBlock × Context :=
  match c.openBlocks with
  | [] => (none, c)
  | b :: bs => (some b, { c with openBlocks := bs })

/-- Reports a diagnostic. -/
def report (c : Context) (d : Diagnostic) : Context :=
  { c with diagnostics := c.diagnostics.push d }

/-- The program written so far. -/
def program (c : Context) : Program := ⟨c.instructions, c.traceMap⟩

end Context

end StickerBot
