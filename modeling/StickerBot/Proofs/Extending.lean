import Mathlib.Data.List.Basic
import StickerBot.Diagnostic
set_option autoImplicit false

/-!
# Extending a log by another

A log counts every error but stores only the first ones, and one log is extended by another by
pushing what the other has stored. So errors that the other log has only counted are forgotten: the
extended log stores what it would store if all had been pushed into one, and knows as well whether
there was an error and whether it is full, but it may count too few.

## Main definitions

* `DiagnosticLog.errorsAmong`, `DiagnosticLog.warningsAmong` — the diagnostics of each severity.

## Main results

* `DiagnosticLog.pushAll_eq` — what a log holds after more diagnostics.
* `DiagnosticLog.extend_ofList` — extending against pushing: the same but for the count of errors,
  and the same altogether exactly if the other log has stored all its errors.
* `DiagnosticLog.forgotten_error` — an error that is forgotten.
-/

namespace StickerBot.DiagnosticLog

/-- The errors among diagnostics. -/
def errorsAmong (ds : List Diagnostic) : List Diagnostic :=
  ds.filter fun d => d.severity = .error

/-- The warnings among diagnostics. -/
def warningsAmong (ds : List Diagnostic) : List Diagnostic :=
  ds.filter fun d => d.severity = .warning

section Among

variable {d : Diagnostic} (ds es : List Diagnostic)

/-- The errors among diagnostics in a row are those among the first ones and then those among the
others. -/
lemma errorsAmong_append : errorsAmong (ds ++ es) = errorsAmong ds ++ errorsAmong es :=
  List.filter_append ..

/-- The warnings among diagnostics in a row are those among the first ones and then those among the
others. -/
lemma warningsAmong_append : warningsAmong (ds ++ es) = warningsAmong ds ++ warningsAmong es :=
  List.filter_append ..

/-- Errors are all errors. -/
lemma among_of_errors (h : ∀ d ∈ ds, d.severity = .error) :
    errorsAmong ds = ds ∧ warningsAmong ds = [] := by
  constructor
  · exact List.filter_eq_self.2 fun d hd => by simp [h d hd]
  · exact List.filter_eq_nil_iff.2 fun d hd => by simp [h d hd]

/-- Warnings are no errors. -/
lemma among_of_warnings (h : ∀ d ∈ ds, d.severity = .warning) :
    errorsAmong ds = [] ∧ warningsAmong ds = ds := by
  constructor
  · exact List.filter_eq_nil_iff.2 fun d hd => by simp [h d hd]
  · exact List.filter_eq_self.2 fun d hd => by simp [h d hd]

/-- What is among the errors is an error. -/
lemma severity_of_mem_errorsAmong (h : d ∈ errorsAmong ds) : d.severity = .error := by
  simpa using (List.mem_filter.1 h).2

/-- What is among the warnings is a warning. -/
lemma severity_of_mem_warningsAmong (h : d ∈ warningsAmong ds) : d.severity = .warning := by
  simpa using (List.mem_filter.1 h).2

end Among

/-! ### Pushing -/

/-- **Pushing.** Each diagnostic goes to its side; errors are stored while there is room, and all
are counted.

**Proof sketch.** Induction on the diagnostics. If there is room for an error, there is room for one
less after it. -/
theorem pushAll_eq (ds : List Diagnostic) : ∀ l : DiagnosticLog, l.pushAll ds =
    { errors := l.errors ++ (errorsAmong ds).take (capacity - l.errors.length)
      warnings := l.warnings ++ warningsAmong ds
      totalErrors := l.totalErrors + (errorsAmong ds).length
      totalWarnings := l.totalWarnings + (warningsAmong ds).length } := by
  induction ds with
  | nil => intro l; simp [pushAll, errorsAmong, warningsAmong]
  | cons d ds ih =>
    intro l
    have hcons : l.pushAll (d :: ds) = (l.push d).pushAll ds := rfl
    rw [hcons, ih]
    cases hd : d.severity with
    | warning =>
      have herrors : errorsAmong (d :: ds) = errorsAmong ds := by simp [errorsAmong, hd]
      have hwarnings : warningsAmong (d :: ds) = d :: warningsAmong ds := by
        simp [warningsAmong, hd]
      simp [push, hd, herrors, hwarnings]
      omega
    | error =>
      have herrors : errorsAmong (d :: ds) = d :: errorsAmong ds := by simp [errorsAmong, hd]
      have hwarnings : warningsAmong (d :: ds) = warningsAmong ds := by simp [warningsAmong, hd]
      by_cases hroom : l.errors.length < capacity
      · have hone : capacity - l.errors.length = capacity - (l.errors.length + 1) + 1 := by omega
        simp [push, hd, herrors, hwarnings, hroom, hone]
        omega
      · have hnone : capacity - l.errors.length = 0 := by omega
        simp [push, hd, herrors, hwarnings, hroom, hnone]
        omega

/-- The log of a list of diagnostics. -/
lemma ofList_eq (ds : List Diagnostic) : ofList ds =
    { errors := (errorsAmong ds).take capacity
      warnings := warningsAmong ds
      totalErrors := (errorsAmong ds).length
      totalWarnings := (warningsAmong ds).length } := by
  rw [ofList, pushAll_eq]
  simp [empty]

/-- What the log of a list has stored: its first errors and all its warnings. -/
lemma among_stored_ofList (ds : List Diagnostic) :
    errorsAmong (ofList ds).stored = (errorsAmong ds).take capacity ∧
      warningsAmong (ofList ds).stored = warningsAmong ds := by
  obtain ⟨herrors, hnone⟩ := among_of_errors ((errorsAmong ds).take capacity)
    fun d hd => severity_of_mem_errorsAmong ds (List.mem_of_mem_take hd)
  obtain ⟨hnone', hwarnings⟩ := among_of_warnings (warningsAmong ds)
    fun d hd => severity_of_mem_warningsAmong ds hd
  rw [stored, ofList_eq, errorsAmong_append, warningsAmong_append]
  simp [herrors, hnone, hnone', hwarnings]

/-! ### Extending -/

/-- **Extending against pushing.** A log that is extended by another stores the same errors and
warnings as if all diagnostics had been pushed into one log, counts the same number of warnings, and
is as much in error and as full. Of the other log's errors it counts those that were stored, so both
logs are the same exactly if the other one has stored all its errors. -/
theorem extend_ofList (xs ys : List Diagnostic) :
    let extended := (ofList xs).extend (ofList ys)
    let pushed := (ofList xs).pushAll ys
    extended.errors = pushed.errors ∧ extended.warnings = pushed.warnings ∧
      extended.totalWarnings = pushed.totalWarnings ∧ extended.hasErrors = pushed.hasErrors ∧
      extended.isFull = pushed.isFull ∧
      pushed.totalErrors = (errorsAmong xs).length + (errorsAmong ys).length ∧
      extended.totalErrors = (errorsAmong xs).length + min capacity (errorsAmong ys).length ∧
      (extended = pushed ↔ (errorsAmong ys).length ≤ capacity) := by
  intro extended pushed
  obtain ⟨herrors, hwarnings⟩ := among_stored_ofList ys
  have hpushed : pushed =
      { errors := (errorsAmong xs).take capacity ++
          (errorsAmong ys).take (capacity - ((errorsAmong xs).take capacity).length)
        warnings := warningsAmong xs ++ warningsAmong ys
        totalErrors := (errorsAmong xs).length + (errorsAmong ys).length
        totalWarnings := (warningsAmong xs).length + (warningsAmong ys).length } := by
    show (ofList xs).pushAll ys = _
    rw [pushAll_eq, ofList_eq]
  -- of what the other log has stored there is never more room than for all of it
  have hextended : extended =
      { pushed with
        totalErrors := (errorsAmong xs).length + min capacity (errorsAmong ys).length } := by
    show (ofList xs).pushAll (ofList ys).stored = _
    rw [pushAll_eq, herrors, hwarnings, hpushed, ofList_eq, List.take_take,
      Nat.min_eq_left (Nat.sub_le ..), List.length_take (l := errorsAmong ys)]
  refine ⟨?_, ?_, ?_, ?_, ?_, ?_, ?_, ?_⟩
  · rw [hextended]
  · rw [hextended]
  · rw [hextended]
  · apply decide_eq_decide.2
    rw [hextended, hpushed]
    show 0 < _ + min capacity _ ↔ 0 < _ + _
    have hroom : 0 < capacity := by decide
    omega
  · apply decide_eq_decide.2
    rw [hextended, hpushed]
    show capacity ≤ _ + min capacity _ ↔ capacity ≤ _ + _
    omega
  · rw [hpushed]
  · rw [hextended]
  · constructor
    · intro hsame
      have htotal := congrArg totalErrors hsame
      rw [hextended, hpushed] at htotal
      change _ + min capacity _ = _ + _ at htotal
      omega
    · intro hall
      rw [hextended, Nat.min_eq_right hall, hpushed]

/-- One error more than a log stores. -/
def tooMany : List Diagnostic := List.replicate 21 (.error .unexpectedToken "")

/-- **An error that is forgotten.** Of one error too many a log counts every one, but a log that is
extended by it does not. -/
theorem forgotten_error : (empty.pushAll tooMany).totalErrors = 21 ∧
    (empty.extend (ofList tooMany)).totalErrors = 20 := by
  decide

end StickerBot.DiagnosticLog
