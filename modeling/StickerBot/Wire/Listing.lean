import StickerBot.Json.Basic
import StickerBot.Diagnostic
import StickerBot.Program
import StickerBot.Wire.Fields
set_option autoImplicit false

/-!
# JSON forms of listings, programs and diagnostics

## Main definitions

For each type a `toJson`, which writes a value, and an `ofJson?`, which reads one: spans,
diagnostics and their logs, native actions, conditions, instructions, block balances, trace
maps and programs.
-/

namespace StickerBot

namespace Span

/-- Writes a span. -/
def toJson (s : Span) : Json :=
  .record [("line", .nat s.line), ("column", .nat s.column), ("end_column", .nat s.endColumn)]

/-- Reads a span. -/
def ofJson? (j : Json) : Option Span := do
  let fs ← Wire.record? ["line", "column", "end_column"] j
  return ⟨← fs.required "line" Wire.nat32?, ← fs.required "column" Wire.nat32?,
    ← fs.required "end_column" Wire.nat32?⟩

end Span

/-- The name of a severity. -/
def Severity.wireName : Severity → String
  | .error => "error"
  | .warning => "warning"

/-- Reads a severity. -/
def Severity.ofJson? (j : Json) : Option Severity := do
  match ← Wire.name? false ["error", "warning"] j with
  | "error" => some .error
  | "warning" => some .warning
  | _ => none

/-- Reads a category. -/
def Category.ofJson? (j : Json) : Option Category := do
  match ← Wire.name? false ["layout", "generation", "syntax", "runtime"] j with
  | "layout" => some .layout
  | "generation" => some .generation
  | "syntax" => some .listing
  | "runtime" => some .runtime
  | _ => none

namespace Diagnostic

/-- Writes a diagnostic. A place or an advice that is missing is left out. -/
def toJson (d : Diagnostic) : Json :=
  .record
    ([("code", .nat d.code.number.toNat), ("severity", .text d.severity.wireName),
        ("category", .text d.category.name), ("message", .text d.message)] ++
      (d.statement.map fun n => ("statement", Json.nat n)).toList ++
      (d.span.map fun s => ("span", s.toJson)).toList ++
      (d.suggestion.map fun s => ("suggestion", Json.text s)).toList)

/-- Reads a diagnostic. -/
def ofJson? (j : Json) : Option Diagnostic := do
  let fs ← Wire.record?
    ["code", "severity", "category", "message", "statement", "span", "suggestion"] j
  return {
    code := ⟨← fs.required "code" Wire.uint16?⟩
    severity := ← fs.required "severity" Severity.ofJson?
    category := ← fs.required "category" Category.ofJson?
    message := ← fs.required "message" Json.text?
    statement := ← fs.optional "statement" Wire.nat32?
    span := ← fs.optional "span" Span.ofJson?
    suggestion := ← fs.optional "suggestion" Json.text? }

end Diagnostic

namespace DiagnosticLog

/-- Writes a log. -/
def toJson (l : DiagnosticLog) : Json :=
  .record [("errors", .ofList Diagnostic.toJson l.errors),
    ("warnings", .ofList Diagnostic.toJson l.warnings),
    ("total_errors", .nat l.totalErrors), ("total_warnings", .nat l.totalWarnings)]

/-- Reads a log. -/
def ofJson? (j : Json) : Option DiagnosticLog := do
  let fs ← Wire.record? ["errors", "warnings", "total_errors", "total_warnings"] j
  return {
    errors := ← fs.required "errors" (Wire.list? Diagnostic.ofJson?)
    warnings := ← fs.required "warnings" (Wire.list? Diagnostic.ofJson?)
    totalErrors := ← fs.required "total_errors" Wire.nat64?
    totalWarnings := ← fs.required "total_warnings" Wire.nat64? }

end DiagnosticLog

namespace NativeAction

/-- The name of an action outside of listings. -/
def wireName : NativeAction → String
  | .walk => "walk"
  | .run => "run"
  | .jump => "jump"
  | .spin => "spin"
  | .wiggle => "wiggle"
  | .sleep => "sleep"
  | .yawn => "yawn"
  | .stand => "stand"
  | .finale => "end"
  | .dance => "dance"
  | .wait => "wait"
  | .touchSensor => "touch_sensor"

/-- Writes an action. -/
def toJson (a : NativeAction) : Json := .text a.wireName

/-- Reads an action. -/
def ofJson? (inside : Bool) (j : Json) : Option NativeAction := do
  let name ← Wire.name? inside (all.map wireName) j
  all.find? fun a => a.wireName = name

end NativeAction

namespace Condition

/-- The tag and the fields of a condition. -/
def members : Condition → List (String × Json)
  | .below x n => [("kind", .text "below"), ("var", .text x), ("limit", .int n.toInt)]
  | .sensorNotRaised s => [("kind", .text "sensor_not_raised"), ("sensor", .text s)]

/-- Writes a condition. -/
def toJson (c : Condition) : Json := .record c.members

/-- Reads a condition from a document that may be looked at twice. -/
def ofSettled? (inside : Bool) (j : Json) : Option Condition := do
  let (tag, content) ← Wire.tagged? "kind" j
  match ← Wire.tagName? inside ["below", "sensor_not_raised"] tag with
  | "below" =>
    let fs ← Wire.record? ["var", "limit"] content
    return .below (← fs.required "var" Json.text?) (← fs.required "limit" Wire.int32?)
  | "sensor_not_raised" =>
    let fs ← Wire.record? ["sensor"] content
    return .sensorNotRaised (← fs.required "sensor" Json.text?)
  | _ => none

/-- Reads a condition at a level of nesting. -/
def ofJson? (level : Nat) (j : Json) : Option Condition :=
  if Wire.isSettled level j then ofSettled? false j else none

end Condition

namespace Instruction

/-- The names of the instructions. -/
def wireNames : List String :=
  ["call", "wait", "assign", "increment", "while", "close", "trace", "print"]

/-- Writes an instruction. A loop header has two tags, its own and that of its condition. -/
def toJson : Instruction → Json
  | .call f ns => .record [("op", .text "call"), ("name", .text f),
      ("args", .ofList (fun n => .int n.toInt) ns)]
  | .wait n => .record [("op", .text "wait"), ("units", .nat n.toNat)]
  | .assign x n => .record [("op", .text "assign"), ("var", .text x), ("value", .int n.toInt)]
  | .increment x n =>
    .record [("op", .text "increment"), ("var", .text x), ("by", .int n.toInt)]
  | .loop c => .record (("op", .text "while") :: c.members)
  | .close => .record [("op", .text "close")]
  | .trace n => .record [("op", .text "trace"), ("point", .nat n.toNat)]
  | .print s => .record [("op", .text "print"), ("text", .text s)]

/-- Reads an instruction from a document that may be looked at twice. -/
def ofSettled? (j : Json) : Option Instruction := do
  let (tag, content) ← Wire.tagged? "op" j
  match ← Wire.tagName? false wireNames tag with
  | "call" =>
    let fs ← Wire.record? ["name", "args"] content
    return .call (← fs.required "name" Json.text?)
      (← fs.required "args" (Wire.list? Wire.int32?))
  | "wait" =>
    let fs ← Wire.record? ["units"] content
    return .wait (← fs.required "units" Wire.uint32?)
  | "assign" =>
    let fs ← Wire.record? ["var", "value"] content
    return .assign (← fs.required "var" Json.text?) (← fs.required "value" Wire.int32?)
  | "increment" =>
    let fs ← Wire.record? ["var", "by"] content
    return .increment (← fs.required "var" Json.text?) (← fs.required "by" Wire.int32?)
  | "while" => return .loop (← Condition.ofSettled? true content)
  | "close" => if Wire.isEmptyVariant content then some .close else none
  | "trace" =>
    let fs ← Wire.record? ["point"] content
    return .trace (← fs.required "point" Wire.uint32?)
  | "print" =>
    let fs ← Wire.record? ["text"] content
    return .print (← fs.required "text" Json.text?)
  | _ => none

/-- Reads an instruction at a level of nesting. -/
def ofJson? (level : Nat) (j : Json) : Option Instruction :=
  if Wire.isSettled level j then ofSettled? j else none

end Instruction

namespace BlockBalance

/-- Writes a balance. -/
def toJson (b : BlockBalance) : Json :=
  .record [("unclosed", .nat b.unclosed), ("stray_closes", .nat b.strayCloses)]

/-- Reads a balance. -/
def ofJson? (j : Json) : Option BlockBalance := do
  let fs ← Wire.record? ["unclosed", "stray_closes"] j
  return ⟨← fs.required "unclosed" Wire.nat64?, ← fs.required "stray_closes" Wire.nat64?⟩

end BlockBalance

namespace TraceMap

/-- Writes a trace map; the points become names. -/
def toJson (m : TraceMap) : Json :=
  .record [("points", .object (m.entries.map fun e =>
    ((toString e.1.toNat).toList, .nat e.2)))]

/-- Reads a trace map. -/
def ofJson? (j : Json) : Option TraceMap := do
  let fs ← Wire.record? ["points"] j
  fs.required "points"
    (Wire.table? (fun k => (Wire.decimalKey? UInt32.size k).map UInt32.ofNat) Wire.nat32?)

end TraceMap

namespace Program

/-- Writes a program. -/
def toJson (p : Program) : Json :=
  .record [("instructions", .ofList Instruction.toJson p.instructions),
    ("trace_map", TraceMap.toJson p.traceMap)]

/-- Reads a program. -/
def ofJson? (j : Json) : Option Program := do
  let fs ← Wire.record? ["instructions", "trace_map"] j
  return ⟨← fs.required "instructions" (Wire.list? (Instruction.ofJson? 2)),
    ← fs.required "trace_map" TraceMap.ofJson?⟩

end Program

end StickerBot
