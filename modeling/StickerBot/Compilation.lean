import StickerBot.Generate.Walk
import StickerBot.LayoutReport
import StickerBot.Matching
set_option autoImplicit false

/-!
# Compiling a page

The markers of a page become a layout, its stickers are connected, the program is written
along the chain, and the marks left behind are turned into a report.

## Main definitions

* `Compilation`, `compileBy`, `compile` — everything that comes out of a page; for any measure
  of overlap, and for zones in the plane.
* `CompileError` — why nothing came out.
* `CompileResult`, `CompileResult.ofOutcome` — either outcome as one record.
-/

namespace StickerBot

/-- **Compile errors.** Why there is no program. -/
inductive CompileError where
  | missingStart
  | duplicateStart (count : Nat)
  /-- The page could not be read. -/
  | detection (reason : String)
  /-- No program could be written. -/
  | failure (cause : GenerateError)
  /-- The work ended without an outcome. -/
  | aborted (reason : String)
deriving DecidableEq, Repr

namespace CompileError

/-- A compile error from a generation error. -/
def ofGenerate : GenerateError → CompileError
  | .missingStart => .missingStart
  | .duplicateStart count => .duplicateStart count
  | e => .failure e

/-- The message of a compile error. -/
def message : CompileError → String
  | .missingStart => "no Begin sticker found"
  | .duplicateStart count =>
    toString count ++ " Begin stickers found, expected exactly one"
  | .detection reason => "detection failed: " ++ reason
  | .failure cause => "compile failed: " ++ cause.message
  | .aborted reason => "compile aborted: " ++ reason

/-- The code of a compile error. -/
def code : CompileError → Code
  | .missingStart => .missingStart
  | .duplicateStart _ => .duplicateStart
  | .detection _ => .detectionFailed
  | .failure _ => .chainTooDeep
  | .aborted _ => .compileAborted

/-- The advice that goes with a compile error. -/
def advice : CompileError → String
  | .missingStart => "Add a Begin sticker and take the picture again"
  | .duplicateStart _ => "Remove all but one Begin sticker"
  | .detection _ | .failure _ | .aborted _ => "Try taking the picture again"

/-- The diagnostic of a compile error. -/
def diagnostic (e : CompileError) : Diagnostic :=
  (Diagnostic.error e.code e.message).withSuggestion e.advice

end CompileError

/-- **Compilation.** Everything that comes out of a page. -/
structure Compilation where
  program : Program
  /-- The layout with its marks. -/
  layout : Layout
  diagnostics : DiagnosticLog
  report : LayoutReport
deriving DecidableEq, Inhabited

/-- Compiles markers, with any measure of overlap and any order of distances. -/
def compileBy {δ : Type} (distances : δ → δ → Ordering) (overlap : Zone → Zone → Option δ)
    (catalog : Catalog) (options : GenerateOptions) (markers : List Marker) :
    Except CompileError Compilation :=
  let (layout, unknown) := Layout.ofMarkers catalog markers
  let (layout, _) := layout.connectBy distances overlap
  match generate layout options with
  | (_, .error e) => .error (.ofGenerate e)
  | (layout, .ok g) => .ok ⟨g.program, layout, unknown.extend g.diagnostics, .ofLayout layout⟩

/-- **Compiling markers.** -/
def compile (catalog : Catalog) (options : GenerateOptions) (markers : List Marker) :
    Except CompileError Compilation :=
  compileBy compareTotal Zone.overlap catalog options markers

/-- **Compiling a page.** Its markers, or the reason why it could not be read. -/
def compilePage (catalog : Catalog) (options : GenerateOptions)
    (page : Except String (List Marker)) : Except CompileError Compilation :=
  match page with
  | .ok markers => compile catalog options markers
  | .error reason => .error (.detection reason)

/-- **Compile result.** Either outcome as one record. -/
structure CompileResult where
  success : Bool
  listing : Option String
  traceMap : Option TraceMap
  /-- The digest of the listing. -/
  fingerprint : Option String
  /-- The program never acts. -/
  isEmpty : Bool
  isRunnable : Bool
  report : Option LayoutReport
  errors : DiagnosticLog
deriving DecidableEq, Inhabited

/-- **Flattening.** The record of an outcome. -/
def CompileResult.ofOutcome : Except CompileError Compilation → CompileResult
  | .ok c =>
    { success := true
      listing := some c.program.listing
      traceMap := some c.program.traceMap
      fingerprint := some c.program.fingerprint
      isEmpty := c.program.isEmpty
      isRunnable := c.program.isRunnable
      report := some c.report
      errors := c.diagnostics }
  | .error e =>
    { success := false
      listing := none
      traceMap := none
      fingerprint := none
      isEmpty := true
      isRunnable := false
      report := none
      errors := DiagnosticLog.empty.push e.diagnostic }

end StickerBot
