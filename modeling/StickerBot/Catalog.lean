import StickerBot.Statement
import StickerBot.Table
set_option autoImplicit false

/-!
# The catalog of stickers

The catalog tells what sticker a marker belongs to and where its connectors lie.

## Main definitions

* `Template`, `Template.fault?` — the description of a sticker, and what may be wrong with it.
* `Catalog`, `Catalog.insert` — descriptions by marker code; faulty and repeated ones are
  refused.
* `Catalog.standard` — the standard sheet of stickers.

## Design

On the standard sheet every statement of the flow has its socket one diameter to the left and
its plug one diameter to the right, so two stickers connect when they lie two diameters apart
in a row. Parameters lie two diameters below the statement they configure.
-/

namespace StickerBot

/-- **Template.** What to make of a marker. -/
structure Template where
  code : UInt32
  name : String
  kind : StatementKind
  connectors : List ConnectorTemplate
deriving DecidableEq, Inhabited

/-- **Faults of a template.** -/
inductive TemplateFault where
  | noConnector
  | badRadius
  | parameterWithoutSocket
  | parameterWithPlug
deriving DecidableEq, Repr

/-- The wording of a fault. -/
def TemplateFault.message : TemplateFault → String
  | .noConnector => "a statement needs at least one connector"
  | .badRadius => "connector radius must be positive"
  | .parameterWithoutSocket => "a parameter needs an incoming socket"
  | .parameterWithPlug => "a parameter is a leaf and cannot have plugs"

namespace Template

/-- The statement that a marker becomes. -/
def instantiate (t : Template) (m : Marker) : Statement :=
  { kind := t.kind
    name := t.name
    marker := m
    connectors := t.connectors.map fun c => .ofTemplate c m }

/-- Whether a radius is a positive finite number. -/
def isRadius (r : Float32) : Bool := r.isFinite && 0 < r

/-- What is wrong with a template, if anything. -/
def fault? (t : Template) : Option TemplateFault :=
  if t.connectors.isEmpty then some .noConnector
  else if t.connectors.any fun c => !isRadius c.radius then some .badRadius
  else if t.kind.isParameter then
    if !t.connectors.any fun c => c.direction = .incoming then some .parameterWithoutSocket
    else if t.connectors.any fun c => c.direction.isPlug then some .parameterWithPlug
    else none
  else none

end Template

/-- **Catalog errors.** -/
inductive CatalogError where
  /-- The text holds no catalog. -/
  | unreadable
  | invalidTemplate (code : UInt32) (fault : TemplateFault)
  | duplicateCode (code : UInt32)
deriving DecidableEq, Repr

/-- The message of a catalog error. -/
def CatalogError.message : CatalogError → String
  | .unreadable => "catalog parse error"
  | .invalidTemplate code fault =>
    "invalid catalog entry for marker " ++ toString code.toNat ++ ": " ++ fault.message
  | .duplicateCode code => "duplicate catalog entry for marker " ++ toString code.toNat

/-- **Catalog.** Templates by the code of their marker. -/
structure Catalog where
  templates : Table UInt32 Template
deriving DecidableEq, Inhabited

namespace Catalog

/-- The catalog without stickers. -/
def empty : Catalog := ⟨.empty⟩

/-- **Insertion.** A template without fault whose code is new. -/
def insert (c : Catalog) (t : Template) : Except CatalogError Catalog :=
  match t.fault? with
  | some f => .error (.invalidTemplate t.code f)
  | none =>
    if c.templates.contains t.code then .error (.duplicateCode t.code)
    else .ok ⟨c.templates.insert t.code t⟩

/-- Inserts templates in order, up to the first that is refused. -/
def insertAll (c : Catalog) : List Template → Except CatalogError Catalog
  | [] => .ok c
  | t :: ts =>
    match c.insert t with
    | .ok d => d.insertAll ts
    | .error e => .error e

/-- The template of a marker code. -/
def get? (c : Catalog) (code : UInt32) : Option Template := c.templates.get? code

/-- How many templates there are. -/
def size (c : Catalog) : Nat := c.templates.size

/-- The templates, by ascending code. -/
def toList (c : Catalog) : List Template := c.templates.values

/-! ### The standard sheet -/

/-- The socket on the left. -/
def socketLeft : ConnectorTemplate := ⟨"prev", .incoming, -1.0, 0.0, 0.5⟩

/-- The plug on the right. -/
def plugRight : ConnectorTemplate := ⟨"next", .outgoing, 1.0, 0.0, 0.5⟩

/-- The plug below, for a parameter. -/
def plugBelow : ConnectorTemplate := ⟨"param", .parameter, 0.0, 1.0, 0.5⟩

/-- The socket above, of a parameter. -/
def socketAbove : ConnectorTemplate := ⟨"value", .incoming, 0.0, -1.0, 0.5⟩

/-- A sticker in the flow. -/
def flow (code : UInt32) (name : String) (kind : StatementKind) : Template :=
  ⟨code, name, kind, [socketLeft, plugRight]⟩

/-- A sticker in the flow that takes a parameter. -/
def flowWithParameter (code : UInt32) (name : String) (kind : StatementKind) : Template :=
  ⟨code, name, kind, [socketLeft, plugRight, plugBelow]⟩

/-- A parameter sticker. -/
def parameter (code : UInt32) (name : String) (v : ParameterValue) : Template :=
  ⟨code, name, .parameter v, [socketAbove]⟩

/-- The codes of the count stickers two to ten. -/
def countCodes : List UInt32 := [151, 155, 157, 167, 171, 173, 179, 181, 185]

/-- The stickers of the standard sheet. -/
def standardTemplates : List Template :=
  [⟨31, "Begin", .start, [plugRight]⟩,
    flowWithParameter 109 "Wait" .wait,
    flowWithParameter 115 "Begin Repeat" .loopBegin,
    flow 117 "End Repeat" .loopEnd,
    parameter 121 "Tap Sensor" .tap,
    parameter 143 "Forever" .forever,
    flow 47 "Walk" (.action .walk),
    flow 55 "Run" (.action .run),
    flow 59 "Jump" (.action .jump),
    flow 61 "Spin" (.action .spin),
    flow 79 "Wiggle" (.action .wiggle),
    flow 87 "Sleep" (.action .sleep),
    flow 91 "Yawn" (.action .yawn),
    flow 93 "Stand" (.action .stand),
    flow 103 "End" (.action .finale),
    flow 107 "Dance" (.action .dance)] ++
  countCodes.zipIdx.map fun (code, i) =>
    parameter code (toString (i + 2)) (.count (UInt32.ofNat (i + 2)))

/-- **The standard sheet.** -/
def standard : Catalog := ⟨.ofList (standardTemplates.map fun t => (t.code, t))⟩

end Catalog

end StickerBot
