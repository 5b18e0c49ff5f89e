import StickerBot.Catalog
import StickerBot.Decimal.Shortest
import StickerBot.Json.Reader
import StickerBot.Json.Writer
import StickerBot.LayoutReport
import StickerBot.Wire.Listing
set_option autoImplicit false

/-!
# JSON forms of pages, catalogs and reports

## Main definitions

* `toJson` and `ofJson?` for points, markers, directions, connector templates, parameter
  values, statement kinds, templates, hints and reports.
* `Catalog.text`, `Catalog.ofText` — a catalog as indented text, and back.
-/

namespace StickerBot

/-- Writes a single. Infinities and what is no number are null. -/
def Json.single (x : Float32) : Json :=
  match Single.text? x with
  | some l => .number l
  | none => .null

namespace Point

/-- Writes a point. -/
def toJson (p : Point) : Json := .record [("x", .single p.x), ("y", .single p.y)]

/-- Reads a point. -/
def ofJson? (j : Json) : Option Point := do
  let fs ← Wire.record? ["x", "y"] j
  return ⟨← fs.required "x" Json.single?, ← fs.required "y" Json.single?⟩

end Point

namespace Marker

/-- Writes a marker. -/
def toJson (m : Marker) : Json :=
  .record [("code", .nat m.code.toNat), ("position", m.position.toJson),
    ("rotation", .single m.rotation), ("diameter", .single m.diameter)]

/-- Reads a marker. -/
def ofJson? (j : Json) : Option Marker := do
  let fs ← Wire.record? ["code", "position", "rotation", "diameter"] j
  return ⟨← fs.required "code" Wire.uint32?, ← fs.required "position" Point.ofJson?,
    ← fs.required "rotation" Json.single?, ← fs.required "diameter" Json.single?⟩

end Marker

namespace Direction

/-- The name of a direction. -/
def name : Direction → String
  | .incoming => "incoming"
  | .outgoing => "outgoing"
  | .parameter => "parameter"

/-- Writes a direction. -/
def toJson (d : Direction) : Json := .text d.name

/-- Reads a direction. -/
def ofJson? (j : Json) : Option Direction := do
  match ← Wire.name? false ["incoming", "outgoing", "parameter"] j with
  | "incoming" => some .incoming
  | "outgoing" => some .outgoing
  | "parameter" => some .parameter
  | _ => none

end Direction

namespace ConnectorTemplate

/-- Writes a connector template. -/
def toJson (t : ConnectorTemplate) : Json :=
  .record [("name", .text t.name), ("direction", t.direction.toJson), ("dx", .single t.dx),
    ("dy", .single t.dy), ("radius", .single t.radius)]

/-- Reads a connector template. -/
def ofJson? (j : Json) : Option ConnectorTemplate := do
  let fs ← Wire.record? ["name", "direction", "dx", "dy", "radius"] j
  return ⟨← fs.required "name" Json.text?, ← fs.required "direction" Direction.ofJson?,
    ← fs.required "dx" Json.single?, ← fs.required "dy" Json.single?,
    ← fs.required "radius" Json.single?⟩

end ConnectorTemplate

namespace ParameterValue

/-- Writes a parameter value. -/
def toJson : ParameterValue → Json
  | .count n => .record [("count", .nat n.toNat)]
  | .tap => .text "tap"
  | .forever => .text "forever"

/-- Reads a parameter value. -/
def ofJson? (inside : Bool) (j : Json) : Option ParameterValue :=
  match Wire.name? inside ["tap", "forever"] j with
  | some "tap" => some .tap
  | some "forever" => some .forever
  | _ =>
    match j with
    | .object [(n, v)] =>
      if Json.unquote n = some "count" then (Wire.uint32? v).map .count else none
    | _ => none

end ParameterValue

namespace StatementKind

/-- The names of the kinds. -/
def wireNames : List String :=
  ["start", "action", "parameter", "loop_begin", "loop_end", "wait"]

/-- The tag and the fields of a kind. -/
def members : StatementKind → List (String × Json)
  | .start => [("kind", .text "start")]
  | .action a => [("kind", .text "action"), ("action", a.toJson)]
  | .parameter v => [("kind", .text "parameter"), ("value", v.toJson)]
  | .loopBegin => [("kind", .text "loop_begin")]
  | .loopEnd => [("kind", .text "loop_end")]
  | .wait => [("kind", .text "wait")]

/-- Writes a kind. -/
def toJson (k : StatementKind) : Json := .record k.members

/-- Reads a kind from a document that may be looked at twice. -/
def ofSettled? (inside : Bool) (j : Json) : Option StatementKind := do
  let (tag, content) ← Wire.tagged? "kind" j
  let plain (k : StatementKind) : Option StatementKind :=
    if Wire.isEmptyVariant content then some k else none
  match ← Wire.tagName? inside wireNames tag with
  | "start" => plain .start
  | "action" =>
    let fs ← Wire.record? ["action"] content
    return .action (← fs.required "action" (NativeAction.ofJson? true))
  | "parameter" =>
    let fs ← Wire.record? ["value"] content
    return .parameter (← fs.required "value" (ParameterValue.ofJson? true))
  | "loop_begin" => plain .loopBegin
  | "loop_end" => plain .loopEnd
  | "wait" => plain .wait
  | _ => none

/-- Reads a kind at a level of nesting. -/
def ofJson? (level : Nat) (j : Json) : Option StatementKind :=
  if Wire.isSettled level j then ofSettled? false j else none

end StatementKind

namespace Template

/-- Writes a template, with the tag and fields of its kind among its own. -/
def toJson (t : Template) : Json :=
  .record ([("code", .nat t.code.toNat), ("name", .text t.name)] ++ t.kind.members ++
    [("connectors", .ofList ConnectorTemplate.toJson t.connectors)])

/-- The fields of a template that do not belong to its kind. -/
def ownFields : List String := ["code", "name", "connectors"]

/-- Reads a template at a level of nesting. The members that are none of its own fields hold
its kind, and must all be fit to be looked at twice. -/
def ofJson? (level : Nat) (j : Json) : Option Template :=
  match j with
  | .object ms => do
    let fs ← Wire.record? ownFields j
    let rest := ms.filter fun m => !(Json.unquote m.1).any (· ∈ ownFields)
    if Wire.isSettled level (.object rest) then
      return ⟨← fs.required "code" Wire.uint32?, ← fs.required "name" Json.text?,
        ← StatementKind.ofSettled? true (.object rest),
        ← fs.required "connectors" (Wire.list? ConnectorTemplate.ofJson?)⟩
    else none
  | _ => none

end Template

namespace LayoutHint

/-- Writes a hint. -/
def toJson : LayoutHint → Json
  | .ok => .record [("hint", .text "ok")]
  | .missingStart => .record [("hint", .text "missing_start")]
  | .missingLoopEnd => .record [("hint", .text "missing_loop_end")]
  | .missingLoopBegin => .record [("hint", .text "missing_loop_begin")]
  | .misaligned names =>
    .record [("hint", .text "misaligned"), ("stickers", .ofList .text names)]

/-- The names of the hints. -/
def wireNames : List String :=
  ["ok", "missing_start", "missing_loop_end", "missing_loop_begin", "misaligned"]

/-- The hint of a name, and of the stickers that go with it. -/
def ofParts? (name : String) (stickers : Option Json) : Option LayoutHint :=
  let plain (h : LayoutHint) : Option LayoutHint :=
    match stickers with
    | none | some .null => some h
    | some _ => none
  match name with
  | "ok" => plain .ok
  | "missing_start" => plain .missingStart
  | "missing_loop_end" => plain .missingLoopEnd
  | "missing_loop_begin" => plain .missingLoopBegin
  | "misaligned" => stickers.bind fun j => (Wire.list? Json.text? j).map .misaligned
  | _ => none

/-- The name of the first member that is a field of a hint. -/
def firstField : List (List Char × Json) → Option String
  | [] => none
  | (n, _) :: ms =>
    match Json.unquote n with
    | some s => if s = "hint" ∨ s = "stickers" then some s else firstField ms
    | none => firstField ms

/-- Reads a hint at a level of nesting. Stickers that come before their tag are looked at
twice. -/
def ofJson? (level : Nat) (j : Json) : Option LayoutHint :=
  match j with
  | .array [tag, stickers] => do ofParts? (← Wire.name? false wireNames tag) (some stickers)
  | .object ms => do
    let fs ← Wire.record? ["hint", "stickers"] j
    let name ← fs.required "hint" (Wire.name? false wireNames)
    let stickers := fs.find? "stickers"
    let settled :=
      match stickers with
      | some s => firstField ms = some "hint" || Wire.isSettled (level + 1) s
      | none => true
    if settled then ofParts? name stickers else none
  | _ => none

end LayoutHint

namespace LayoutReport

/-- Writes a report. -/
def toJson (r : LayoutReport) : Json :=
  .record [("begin_found", .bool r.beginFound), ("loop_begin_found", .bool r.loopBeginFound),
    ("loop_begin_compiled", .bool r.loopBeginCompiled),
    ("loop_end_found", .bool r.loopEndFound), ("loop_end_compiled", .bool r.loopEndCompiled),
    ("misplaced", .ofList .text r.misplaced), ("dangling", .ofList .nat r.dangling),
    ("hint", r.hint.toJson)]

/-- Reads a report at a level of nesting. -/
def ofJson? (level : Nat) (j : Json) : Option LayoutReport := do
  let fs ← Wire.record? ["begin_found", "loop_begin_found", "loop_begin_compiled",
    "loop_end_found", "loop_end_compiled", "misplaced", "dangling", "hint"] j
  return {
    beginFound := ← fs.required "begin_found" Json.bool?
    loopBeginFound := ← fs.required "loop_begin_found" Json.bool?
    loopBeginCompiled := ← fs.required "loop_begin_compiled" Json.bool?
    loopEndFound := ← fs.required "loop_end_found" Json.bool?
    loopEndCompiled := ← fs.required "loop_end_compiled" Json.bool?
    misplaced := ← fs.required "misplaced" (Wire.list? Json.text?)
    dangling := ← fs.required "dangling" (Wire.list? Wire.nat32?)
    hint := ← fs.required "hint" (LayoutHint.ofJson? (level + 1)) }

end LayoutReport

namespace Catalog

/-- Writes a catalog. -/
def toJson (c : Catalog) : Json :=
  .record [("templates", .ofList Template.toJson c.toList)]

/-- Reads the templates of a catalog, as they stand. -/
def templatesOfJson? (j : Json) : Option (List Template) := do
  let fs ← Wire.record? ["templates"] j
  fs.required "templates" (Wire.list? (Template.ofJson? 2))

/-- **Catalog text.** The catalog as indented JSON. -/
def text (c : Catalog) : String := c.toJson.indented

/-- **Loading.** The catalog that a text holds. -/
def ofText (s : String) : Except CatalogError Catalog :=
  match (Json.parse? s).bind templatesOfJson? with
  | some ts => empty.insertAll ts
  | none => .error .unreadable

end Catalog

end StickerBot
