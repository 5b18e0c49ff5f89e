import StickerBot.Span
set_option autoImplicit false

/-!
# Diagnostics: what can be wrong, and the log that collects it

A diagnostic has a numbered code, whose hundreds tell which part of the work it belongs to,
a severity, a wording, and the place it speaks of: a statement of the layout or a span of a
listing. A log stores the first twenty errors and all warnings, and counts every one of
both.

## Main definitions

* `Code`, `Code.category` — numbered codes and the part of the work they belong to.
* `Diagnostic` — one thing found.
* `DiagnosticLog`, `DiagnosticLog.push`, `DiagnosticLog.extend` — the log of one pass.

## Main results

* `DiagnosticLog.pushAll_append` — pushing a list is pushing its parts one after the other.
-/

namespace StickerBot

/-- **Severity.** An error stops the work it is found in, a warning does not. -/
inductive Severity where
  | error
  | warning
deriving DecidableEq, Repr, Inhabited

/-- **Category.** The part of the work a diagnostic belongs to. -/
inductive Category where
  /-- Stickers on the page. -/
  | layout
  /-- Writing the program. -/
  | generation
  /-- Reading a listing. -/
  | listing
  /-- Running a program. -/
  | runtime
deriving DecidableEq, Repr, Inhabited

/-- The word for a category. -/
def Category.name : Category → String
  | .layout => "layout"
  | .generation => "generation"
  | .listing => "syntax"
  | .runtime => "runtime"

/-- **Code.** The number of a kind of diagnostic. -/
structure Code where
  /-- The number shown after the letter. -/
  number : UInt16
deriving DecidableEq, Repr, Inhabited

namespace Code

/-- No Begin sticker on the page. -/
def missingStart : Code := ⟨100⟩
/-- A marker that no sticker has. -/
def unknownMarker : Code := ⟨101⟩
/-- More than one Begin sticker. -/
def duplicateStart : Code := ⟨102⟩
/-- The page could not be read. -/
def detectionFailed : Code := ⟨103⟩
/-- Nothing is plugged into an outgoing connector. -/
def danglingBranch : Code := ⟨200⟩
/-- An End Repeat without a Begin Repeat. -/
def unmatchedLoopEnd : Code := ⟨201⟩
/-- A Begin Repeat without an End Repeat. -/
def unclosedLoop : Code := ⟨202⟩
/-- No sticker makes the robot act. -/
def emptyProgram : Code := ⟨203⟩
/-- A chain of stickers longer than allowed. -/
def chainTooDeep : Code := ⟨204⟩
/-- A compile that ended without an outcome. -/
def compileAborted : Code := ⟨205⟩
/-- A token that cannot stand where it does. -/
def unexpectedToken : Code := ⟨300⟩
/-- A string that its line does not close. -/
def unterminatedString : Code := ⟨301⟩
/-- A number out of range. -/
def invalidNumber : Code := ⟨302⟩
/-- A character that starts no token, or an unknown escape. -/
def unexpectedCharacter : Code := ⟨303⟩
/-- A native action that did not succeed. -/
def nativeStatus : Code := ⟨400⟩
/-- A variable read before it is assigned. -/
def undefinedVariable : Code := ⟨401⟩
/-- An instruction that cannot be carried out. -/
def unresolvableInstruction : Code := ⟨402⟩

/-- **Category of a code.** The hundreds decide; every other number counts as runtime. -/
def category (c : Code) : Category :=
  let n := c.number.toNat
  if 100 ≤ n ∧ n ≤ 199 then .layout
  else if 200 ≤ n ∧ n ≤ 299 then .generation
  else if 300 ≤ n ∧ n ≤ 399 then .listing
  else .runtime

/-- The letter and the number. -/
def render (c : Code) : String := s!"E{c.number.toNat}"

end Code

/-- **Diagnostic.** One thing found, with the place it speaks of. -/
structure Diagnostic where
  code : Code
  severity : Severity
  category : Category
  message : String
  /-- The statement it speaks of, if it comes from the layout. -/
  statement : Option Nat := none
  /-- The place in the listing it speaks of, if it comes from one. -/
  span : Option Span := none
  /-- Advice to whoever arranges the stickers. -/
  suggestion : Option String := none
deriving DecidableEq, Repr, Inhabited

namespace Diagnostic

/-- An error of the code's own category. -/
def error (code : Code) (message : String) : Diagnostic :=
  { code, severity := .error, category := code.category, message }

/-- A warning of the code's own category. -/
def warning (code : Code) (message : String) : Diagnostic :=
  { code, severity := .warning, category := code.category, message }

/-- The same diagnostic, speaking of a statement. -/
def atStatement (d : Diagnostic) (statement : Nat) : Diagnostic :=
  { d with statement := some statement }

/-- The same diagnostic, speaking of a place in a listing. -/
def atSpan (d : Diagnostic) (span : Span) : Diagnostic := { d with span := some span }

/-- The same diagnostic with advice. -/
def withSuggestion (d : Diagnostic) (advice : String) : Diagnostic :=
  { d with suggestion := some advice }

/-- The text of a diagnostic: code, category and message. -/
def render (d : Diagnostic) : String :=
  s!"{d.code.render} [{d.category.name}] {d.message}"

end Diagnostic

/-- **Diagnostic log.** What one pass found: the stored errors and warnings, and how many of
each there were. -/
structure DiagnosticLog where
  errors : List Diagnostic := []
  warnings : List Diagnostic := []
  totalErrors : Nat := 0
  totalWarnings : Nat := 0
deriving DecidableEq, Repr, Inhabited

namespace DiagnosticLog

/-- How many errors a log stores. -/
def capacity : Nat := 20

/-- The log in which nothing was found. -/
def empty : DiagnosticLog := {}

/-- Whether there was an error. -/
def hasErrors (l : DiagnosticLog) : Bool := 0 < l.totalErrors

/-- Whether the log has counted as many errors as it stores. -/
def isFull (l : DiagnosticLog) : Bool := capacity ≤ l.totalErrors

/-- **Pushing.** Adds a diagnostic on the side of its severity. Every one is counted;
errors are stored only while there is room. -/
def push (l : DiagnosticLog) (d : Diagnostic) : DiagnosticLog :=
  match d.severity with
  | .error =>
    { l with
      errors := if l.errors.length < capacity then l.errors ++ [d] else l.errors
      totalErrors := l.totalErrors + 1 }
  | .warning =>
    { l with warnings := l.warnings ++ [d], totalWarnings := l.totalWarnings + 1 }

/-- Pushes diagnostics in order. -/
def pushAll (l : DiagnosticLog) (ds : List Diagnostic) : DiagnosticLog := ds.foldl push l

/-- The log of a list of diagnostics. -/
def ofList (ds : List Diagnostic) : DiagnosticLog := empty.pushAll ds

/-- Everything stored, errors first. -/
def stored (l : DiagnosticLog) : List Diagnostic := l.errors ++ l.warnings

/-- **Extending.** Pushes what another log has stored, errors first. -/
def extend (l other : DiagnosticLog) : DiagnosticLog := l.pushAll other.stored

/-- The stored diagnostics of one code. -/
def withCode (l : DiagnosticLog) (code : Code) : List Diagnostic :=
  l.stored.filter (fun d => d.code = code)

/-- Pushing a list is pushing its parts one after the other. -/
theorem pushAll_append (l : DiagnosticLog) (ds es : List Diagnostic) :
    l.pushAll (ds ++ es) = (l.pushAll ds).pushAll es := by
  simp [pushAll]

end DiagnosticLog

end StickerBot
