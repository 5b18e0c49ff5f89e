import StickerBot.Compilation
import StickerBot.Wire.Layout
set_option autoImplicit false

/-!
# JSON forms of compiling

## Main definitions

`toJson` and `ofJson?` for options and compile results.
-/

namespace StickerBot

namespace GenerateOptions

/-- Writes options. -/
def toJson (o : GenerateOptions) : Json :=
  .record [("debug", .bool o.debug), ("max_chain_depth", .nat o.maxChainDepth)]

/-- Reads options; what is missing has its usual value. -/
def ofJson? (j : Json) : Option GenerateOptions := do
  let fs ← Wire.partialRecord? ["debug", "max_chain_depth"] j
  let usual : GenerateOptions := {}
  return {
    debug := ← fs.defaulted "debug" Json.bool? usual.debug
    maxChainDepth := ← fs.defaulted "max_chain_depth" Wire.nat64? usual.maxChainDepth }

end GenerateOptions

namespace CompileResult

/-- Writes a compile result. -/
def toJson (r : CompileResult) : Json :=
  .record [("success", .bool r.success), ("listing", .ofOption .text r.listing),
    ("trace_map", .ofOption TraceMap.toJson r.traceMap),
    ("fingerprint", .ofOption .text r.fingerprint), ("empty", .bool r.isEmpty),
    ("runnable", .bool r.isRunnable), ("report", .ofOption LayoutReport.toJson r.report),
    ("errors", r.errors.toJson)]

/-- Reads a compile result. -/
def ofJson? (j : Json) : Option CompileResult := do
  let fs ← Wire.record? ["success", "listing", "trace_map", "fingerprint", "empty", "runnable",
    "report", "errors"] j
  return {
    success := ← fs.required "success" Json.bool?
    listing := ← fs.optional "listing" Json.text?
    traceMap := ← fs.optional "trace_map" TraceMap.ofJson?
    fingerprint := ← fs.optional "fingerprint" Json.text?
    isEmpty := ← fs.required "empty" Json.bool?
    isRunnable := ← fs.required "runnable" Json.bool?
    report := ← fs.optional "report" (LayoutReport.ofJson? 1)
    errors := ← fs.required "errors" DiagnosticLog.ofJson? }

end CompileResult

end StickerBot
