import StickerBot.Table
import StickerBot.Instruction
import StickerBot.Digest.Sha256
set_option autoImplicit false

/-!
# Programs

A program is a sequence of instructions and a trace map, which tells for the trace points in
it from which statement of the layout they come.

## Main definitions

* `Program` — instructions and trace map.
* `BlockBalance`, `Program.balance` — loop headers and closing braces that have no partner.
* `Program.isRunnable` — the program acts, and all its loops are closed.
* `Program.listing` — the program as text.
* `Program.fingerprint` — the digest of the listing.
-/

namespace StickerBot

/-- **Trace map.** For each trace point, the statement it comes from. -/
abbrev TraceMap := Table UInt32 Nat

/-- **Block balance.** Braces without a partner. -/
structure BlockBalance where
  /-- Loop headers that are never closed. -/
  unclosed : Nat
  /-- Closing braces with no open header before them. -/
  strayCloses : Nat
deriving DecidableEq, Repr, Inhabited

namespace BlockBalance

/-- Nothing read yet. -/
def zero : BlockBalance := ⟨0, 0⟩

/-- Whether every brace has a partner. -/
def isBalanced (b : BlockBalance) : Bool := b.unclosed = 0 ∧ b.strayCloses = 0

/-- The balance after one more instruction. -/
def add (b : BlockBalance) : Instruction → BlockBalance
  | .loop _ => { b with unclosed := b.unclosed + 1 }
  | .close =>
    if b.unclosed = 0 then { b with strayCloses := b.strayCloses + 1 }
    else { b with unclosed := b.unclosed - 1 }
  | _ => b

end BlockBalance

/-- **Program.** Instructions in order, and where their trace points come from. -/
structure Program where
  instructions : List Instruction
  traceMap : TraceMap
deriving DecidableEq, Inhabited

namespace Program

/-- A program whose trace points come from nowhere. -/
def ofInstructions (is : List Instruction) : Program := ⟨is, .empty⟩

/-- How many instructions call a native action. -/
def callCount (p : Program) : Nat := p.instructions.countP Instruction.isCall

/-- Whether the program never makes the robot act. -/
def isEmpty (p : Program) : Bool := p.callCount = 0

/-- The braces without a partner. -/
def balance (p : Program) : BlockBalance := p.instructions.foldl .add .zero

/-- **Runnable.** The program acts, and every loop in it is closed. -/
def isRunnable (p : Program) : Bool := !p.isEmpty && p.balance.isBalanced

/-- **Listing.** The listing forms of the instructions, each with a line break after it. -/
def listing (p : Program) : String :=
  String.join (p.instructions.map fun i => i.render ++ "\n")

/-- **Fingerprint.** The SHA-256 digest of the listing, in hexadecimal. -/
def fingerprint (p : Program) : String := Sha256.hex p.listing.toUTF8

end Program

end StickerBot
