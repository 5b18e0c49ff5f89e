import StickerBot.Program
import StickerBot.Listing.Lexer
import StickerBot.Listing.Parser
set_option autoImplicit false

/-!
# Assembling listings

A listing is assembled by lexing and parsing it. It is accepted as a program only if neither
found an error; otherwise every error that was stored is shown with the line it speaks of.

## Main definitions

* `Listing.Assembly`, `Listing.assemble` — instructions, spans and diagnostics of a listing.
* `Listing.report` — the stored errors with their lines.
* `Listing.RejectedListing`, `Listing.parseProgram` — the program of a listing, or why there
  is none.
-/

namespace StickerBot.Listing

/-- **Assembly.** What could be read of a listing, and what was wrong with it. -/
structure Assembly where
  /-- The instructions, each with its span. -/
  lines : List (Instruction × Span)
  errors : DiagnosticLog
deriving Repr

namespace Assembly

/-- The instructions in order. -/
def instructions (a : Assembly) : List Instruction := a.lines.map Prod.fst

/-- The span of each instruction. -/
def spans (a : Assembly) : List Span := a.lines.map Prod.snd

end Assembly

/-- **Assembling.** Lexical errors come before the others in the log. -/
def assemble (text : String) : Assembly :=
  let lexed := lex text
  let parsed := parse lexed.tokens
  ⟨parsed.lines, (DiagnosticLog.ofList lexed.errors).extend (.ofList parsed.errors)⟩

/-- One error, with its place in front and its line underneath. -/
def reportEntry (lines : SourceLines) (d : Diagnostic) : String :=
  match d.span with
  | none => d.render ++ "\n"
  | some span =>
    let entry := span.render ++ ": " ++ d.render ++ "\n"
    match lines.line? span.line with
    | some l => entry ++ "  | " ++ l ++ "\n"
    | none => entry

/-- **Error report.** Every stored error, with its line. -/
def report (log : DiagnosticLog) (lines : SourceLines) : String :=
  String.join (log.errors.map (reportEntry lines))

/-- **A listing that was not accepted.** How many errors it has, and the report. -/
structure RejectedListing where
  count : Nat
  report : String
deriving DecidableEq, Repr

/-- The message about a listing that was not accepted. -/
def RejectedListing.message (r : RejectedListing) : String :=
  toString r.count ++ " syntax error(s) in listing:\n" ++ r.report

/-- **Reading a program.** The program of a listing without errors. -/
def parseProgram (text : String) : Except RejectedListing Program :=
  let a := assemble text
  if a.errors.hasErrors then
    .error ⟨a.errors.totalErrors, report a.errors (.ofText text)⟩
  else .ok (.ofInstructions a.instructions)

end StickerBot.Listing
