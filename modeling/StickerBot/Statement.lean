import StickerBot.Connector
import StickerBot.Instruction
set_option autoImplicit false

/-!
# Statements: the stickers of a page

Every marker that the catalog knows becomes a statement. Statements are numbered in the order
of their markers; a connector names the statement it leads to by this number.

## Main definitions

* `ParameterValue`, `ParameterValue.limit?` — what a parameter sticker says.
* `StatementKind` — what a sticker does.
* `Statement` — a sticker on the page, with its connectors and marks.
-/

namespace StickerBot

/-- **Parameter values.** -/
inductive ParameterValue where
  /-- So many times. -/
  | count (n : UInt32)
  /-- Until the sensor is tapped. -/
  | tap
  /-- Without end. -/
  | forever
deriving DecidableEq, Repr, Inhabited

namespace ParameterValue

/-- The number that stands for no end. -/
def foreverLimit : Int32 := 1000

/-- The limit of a counted loop, as far as a word with a sign holds it. A tap counts
nothing. -/
def limit? : ParameterValue → Option Int32
  | .count n => some (Int32.ofNat (min n.toNat 0x7fffffff))
  | .forever => some foreverLimit
  | .tap => none

end ParameterValue

/-- **Statement kinds.** -/
inductive StatementKind where
  /-- Where the program begins. -/
  | start
  /-- The robot acts. -/
  | action (a : NativeAction)
  /-- Configures the statement it is plugged into. -/
  | parameter (v : ParameterValue)
  /-- A repeated part begins. -/
  | loopBegin
  /-- A repeated part ends. -/
  | loopEnd
  /-- The robot waits. -/
  | wait
deriving DecidableEq, Repr, Inhabited

namespace StatementKind

/-- Whether the program begins here. -/
def isStart : StatementKind → Bool
  | .start => true
  | _ => false

/-- Whether the statement is a parameter of another one. -/
def isParameter : StatementKind → Bool
  | .parameter _ => true
  | _ => false

/-- The word for a kind. -/
def label : StatementKind → String
  | .start => "start"
  | .action _ => "action"
  | .parameter _ => "parameter"
  | .loopBegin => "loop-begin"
  | .loopEnd => "loop-end"
  | .wait => "wait"

end StatementKind

/-- **Statement.** A sticker on the page. The marks tell what the last program made of it. -/
structure Statement where
  kind : StatementKind
  /-- The name of the sticker. -/
  name : String
  marker : Marker
  connectors : List Connector
  /-- The program holds this statement. -/
  isCompiled : Bool := false
  /-- An outgoing connector of this statement leads nowhere. -/
  isDangling : Bool := false
deriving DecidableEq, Inhabited

namespace Statement

/-- The same statement without marks. -/
def clearMarks (s : Statement) : Statement :=
  { s with isCompiled := false, isDangling := false }

/-- The same statement without connections. -/
def clearTargets (s : Statement) : Statement :=
  { s with connectors := s.connectors.map fun c => { c with target := none } }

/-- The first connector of a name. -/
def connector? (s : Statement) (name : String) : Option Connector :=
  s.connectors.find? fun c => c.name = name

/-- Where the first connector of a name leads. -/
def connection? (s : Statement) (name : String) : Option Nat :=
  (s.connector? name).bind Connector.target

/-- Where the first plug for a parameter leads. -/
def parameter? (s : Statement) : Option Nat :=
  (s.connectors.find? fun c => c.direction = .parameter).bind Connector.target

/-- The plugs of the flow, in order. -/
def outgoing (s : Statement) : List Connector :=
  s.connectors.filter fun c => c.direction = .outgoing

/-- Whether some plug of the flow is connected. -/
def hasOutgoingConnection (s : Statement) : Bool := s.outgoing.any Connector.isConnected

/-- The name and number of a statement. -/
def render (s : Statement) (id : Nat) : String := s.name ++ " #" ++ toString id

end Statement

end StickerBot
