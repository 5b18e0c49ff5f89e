import StickerBot.Machine.Basic
import StickerBot.Wire.Listing
set_option autoImplicit false

/-!
# JSON forms of the machine's records

## Main definitions

`toJson` and `ofJson?` for configurations, statuses, process information, snapshots and
events.
-/

namespace StickerBot

namespace MachineConfig

/-- Writes a configuration. -/
def toJson (c : MachineConfig) : Json :=
  .record [("time_unit_ms", .nat c.timeUnitMs), ("yield_every", .nat c.yieldEvery),
    ("command_buffer", .nat c.commandBuffer)]

/-- Reads a configuration; what is missing has its usual value. -/
def ofJson? (j : Json) : Option MachineConfig := do
  let fs ← Wire.partialRecord? ["time_unit_ms", "yield_every", "command_buffer"] j
  let usual : MachineConfig := {}
  return {
    timeUnitMs := ← fs.defaulted "time_unit_ms" Wire.nat64? usual.timeUnitMs
    yieldEvery := ← fs.defaulted "yield_every" Wire.nat32? usual.yieldEvery
    commandBuffer := ← fs.defaulted "command_buffer" Wire.nat64? usual.commandBuffer }

end MachineConfig

namespace Status

/-- Writes a status. -/
def toJson (s : Status) : Json := .text s.name

/-- Reads a status. -/
def ofJson? (inside : Bool) (j : Json) : Option Status := do
  match ← Wire.name? inside ["stopped", "running", "paused"] j with
  | "stopped" => some .stopped
  | "running" => some .running
  | "paused" => some .paused
  | _ => none

end Status

namespace ProcessInfo

/-- Writes process information. -/
def toJson (i : ProcessInfo) : Json :=
  .record [("pid", .nat i.pid), ("pc", .nat i.pc), ("status", i.status.toJson)]

/-- Reads process information. -/
def ofJson? (inside : Bool) (j : Json) : Option ProcessInfo := do
  let fs ← Wire.record? ["pid", "pc", "status"] j
  return ⟨← fs.required "pid" Wire.nat32?, ← fs.required "pc" Wire.nat64?,
    ← fs.required "status" (Status.ofJson? inside)⟩

end ProcessInfo

/-- Writes variables; their names become names. -/
def Variables.toJson (vs : Variables) : Json :=
  .object (vs.entries.map fun e => (Json.quote e.1, .int e.2.toInt))

/-- Reads variables. -/
def Variables.ofJson? (j : Json) : Option Variables := Wire.table? Json.unquote Wire.int32? j

namespace ProcessSnapshot

/-- Writes a snapshot. -/
def toJson (s : ProcessSnapshot) : Json :=
  .record [("pid", .nat s.pid), ("pc", .nat s.pc), ("status", s.status.toJson),
    ("variables", Variables.toJson s.values),
    ("pending_wait_ms", .ofOption .nat s.pendingWaitMs)]

/-- Reads a snapshot. -/
def ofJson? (j : Json) : Option ProcessSnapshot := do
  let fs ← Wire.record? ["pid", "pc", "status", "variables", "pending_wait_ms"] j
  return ⟨← fs.required "pid" Wire.nat32?, ← fs.required "pc" Wire.nat64?,
    ← fs.required "status" (Status.ofJson? false),
    ← fs.required "variables" Variables.ofJson?,
    ← fs.optional "pending_wait_ms" Wire.nat64?⟩

end ProcessSnapshot

namespace Event

/-- The names of the events. -/
def wireNames : List String :=
  ["process_started", "process_stopped", "trace", "print", "error"]

/-- Writes an event. -/
def toJson : Event → Json
  | .processStarted i => .record [("event", .text "process_started"), ("info", i.toJson)]
  | .processStopped i => .record [("event", .text "process_stopped"), ("info", i.toJson)]
  | .trace i point statement =>
    .record [("event", .text "trace"), ("info", i.toJson), ("point", .nat point.toNat),
      ("statement", .ofOption .nat statement)]
  | .print i s => .record [("event", .text "print"), ("info", i.toJson), ("text", .text s)]
  | .error i s => .record [("event", .text "error"), ("info", i.toJson), ("text", .text s)]

/-- Reads an event from a document that may be looked at twice. -/
def ofSettled? (j : Json) : Option Event := do
  let (tag, content) ← Wire.tagged? "event" j
  let info (fs : Wire.Fields) := fs.required "info" (ProcessInfo.ofJson? true)
  match ← Wire.tagName? false wireNames tag with
  | "process_started" =>
    let fs ← Wire.record? ["info"] content
    return .processStarted (← info fs)
  | "process_stopped" =>
    let fs ← Wire.record? ["info"] content
    return .processStopped (← info fs)
  | "trace" =>
    let fs ← Wire.record? ["info", "point", "statement"] content
    return .trace (← info fs) (← fs.required "point" Wire.uint32?)
      (← fs.optional "statement" Wire.nat32?)
  | "print" =>
    let fs ← Wire.record? ["info", "text"] content
    return .print (← info fs) (← fs.required "text" Json.text?)
  | "error" =>
    let fs ← Wire.record? ["info", "text"] content
    return .error (← info fs) (← fs.required "text" Json.text?)
  | _ => none

/-- Reads an event at a level of nesting. -/
def ofJson? (level : Nat) (j : Json) : Option Event :=
  if Wire.isSettled level j then ofSettled? j else none

end Event

end StickerBot
