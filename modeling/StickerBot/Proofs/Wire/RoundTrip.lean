import StickerBot.Proofs.Wire.Records
import StickerBot.Wire.Compilation
import StickerBot.Wire.Machine
set_option autoImplicit false

/-!
# Programs, compile results and events are read back

What is written as JSON is read back as the same value: programs with all their instructions and
their trace map, compile results with their listing, trace map, report and diagnostics, and the
events of a run. Numbers that have a fixed width where they come from must fit in it.

## Main definitions

* `Json.Restores` — a value is read back from its texts.
* `Span.Fits`, `Diagnostic.Fits`, `TraceMap.Fits`, `CompileResult.Fits`, `Event.Fits` and others —
  the numbers of a value fit in their widths.

## Main results

* `Instruction.ofSettled?_toJson`, `Condition.ofSettled?_toJson` — the tags of instructions and
  conditions lead back to them.
* `TraceMap.ofJson?_toJson`, `Diagnostic.ofJson?_toJson`, `LayoutHint.ofJson?_toJson` — names that
  are numbers, fields that may be left out, and tags with content are read back.
* `wire_round_trip` — programs, compile results and events are read back from their texts.
-/

namespace StickerBot

/-- **Restoring.** A value is read back from its compact and from its indented text. -/
def Json.Restores {α : Type} (write : α → Json) (read : Json → Option α) (x : α) : Prop :=
  (Json.parse? (write x).compact).bind read = some x ∧
    (Json.parse? (write x).indented).bind read = some x

/-- A value is restored if its document is written and is read back. -/
lemma Json.restores {α : Type} {write : α → Json} {read : Json → Option α} {x : α}
    (hwritten : (write x).IsWritten) (hread : read (write x) = some x) :
    Json.Restores write read x := by
  rw [Json.Restores, Json.parse?_compact hwritten, Json.parse?_indented hwritten]
  exact ⟨hread, hread⟩

namespace Wire

/-- A number below the bound of 32 bits is read back from its value. -/
lemma nat32?_nat {n : Nat} (h : n < UInt32.size) : nat32? (.nat n) = some n := Json.natBelow?_nat h

/-- A number below the bound of 64 bits is read back from its value. -/
lemma nat64?_nat {n : Nat} (h : n < UInt64.size) : nat64? (.nat n) = some n := Json.natBelow?_nat h

end Wire

/-! ### Diagnostics -/

/-- The numbers of a span have 32 bits. -/
structure Span.Fits (s : Span) : Prop where
  line : s.line < UInt32.size
  column : s.column < UInt32.size
  endColumn : s.endColumn < UInt32.size

/-- The numbers of a diagnostic have 32 bits. -/
structure Diagnostic.Fits (d : Diagnostic) : Prop where
  statement : ∀ n ∈ d.statement, n < UInt32.size
  span : ∀ s ∈ d.span, s.Fits

/-- The diagnostics of a log fit, and their numbers have 64 bits. -/
structure DiagnosticLog.Fits (l : DiagnosticLog) : Prop where
  errors : ∀ d ∈ l.errors, d.Fits
  warnings : ∀ d ∈ l.warnings, d.Fits
  totalErrors : l.totalErrors < UInt64.size
  totalWarnings : l.totalWarnings < UInt64.size

namespace Span

/-- The value of a span can be written: it is a record of numbers. -/
lemma isWritten_toJson (s : Span) : s.toJson.IsWritten := Json.isWritten_record (by simp)

/-- **Spans** are read back. -/
theorem ofJson?_toJson {s : Span} (h : s.Fits) : ofJson? s.toJson = some s := by
  rw [ofJson?, toJson, Wire.record?_record (by simp) (by simp)]
  simp [Wire.Fields.required, Wire.nat32?_nat h.line, Wire.nat32?_nat h.column,
    Wire.nat32?_nat h.endColumn]

end Span

/-- Severities are read back. -/
lemma Severity.ofJson?_text (s : Severity) : Severity.ofJson? (.text s.wireName) = some s := by
  cases s <;> rw [Severity.ofJson?, Wire.name?_text (by decide)] <;> rfl

/-- Categories are read back. -/
lemma Category.ofJson?_text (c : Category) : Category.ofJson? (.text c.name) = some c := by
  cases c <;> rw [Category.ofJson?, Wire.name?_text (by decide)] <;> rfl

namespace Diagnostic

/-- The value of a diagnostic can be written, with or without its statement, its span and its
hint. -/
lemma isWritten_toJson (d : Diagnostic) : d.toJson.IsWritten := by
  refine Json.isWritten_record ?_
  cases d.statement <;> cases d.span <;> cases d.suggestion <;> simp [Span.isWritten_toJson]

/-- **Diagnostics** are read back, whichever of their fields are left out. -/
theorem ofJson?_toJson {d : Diagnostic} (h : d.Fits) : ofJson? d.toJson = some d := by
  obtain ⟨code, severity, category, message, statement, span, suggestion⟩ := d
  rw [ofJson?, toJson, Wire.record?_record]
  · have hstatement : ∀ n ∈ statement, Wire.nat32? (.nat n) = some n := fun n hn =>
      Wire.nat32?_nat (h.statement n hn)
    have hspan : ∀ s ∈ span, Span.ofJson? s.toJson = some s := fun s hs =>
      Span.ofJson?_toJson (h.span s hs)
    simp only [Option.bind_eq_bind, Option.bind_some]
    rw [Wire.Fields.optional_map Json.nat statement Json.present_nat hstatement (by simp),
      Wire.Fields.optional_map Span.toJson span (fun _ => Json.present_record _) hspan (by simp),
      Wire.Fields.optional_map Json.text suggestion Json.present_text
        (fun s _ => Json.text?_text s) (by simp)]
    simp [Wire.Fields.required, Severity.ofJson?_text, Category.ofJson?_text]
  · cases statement <;> cases span <;> cases suggestion <;> simp
  · cases statement <;> cases span <;> cases suggestion <;> simp

end Diagnostic

namespace DiagnosticLog

/-- The value of a log can be written, because those of its entries can. -/
lemma isWritten_toJson (l : DiagnosticLog) : l.toJson.IsWritten := by
  refine Json.isWritten_record ?_
  simp [Json.isWritten_ofList, Diagnostic.isWritten_toJson]

/-- **Logs** are read back. -/
theorem ofJson?_toJson {l : DiagnosticLog} (h : l.Fits) : ofJson? l.toJson = some l := by
  have herrors := Wire.list?_ofList fun d hd => Diagnostic.ofJson?_toJson (h.errors d hd)
  have hwarnings := Wire.list?_ofList fun d hd => Diagnostic.ofJson?_toJson (h.warnings d hd)
  rw [ofJson?, toJson, Wire.record?_record (by simp) (by simp)]
  simp [Wire.Fields.required, herrors, hwarnings, Wire.nat64?_nat h.totalErrors,
    Wire.nat64?_nat h.totalWarnings]

end DiagnosticLog

/-! ### Programs -/

namespace Condition

/-- **Conditions** are read back by their tags. -/
theorem ofSettled?_record (inside : Bool) (c : Condition) :
    ofSettled? inside (.record c.members) = some c := by
  cases c <;> simp [ofSettled?, members, Wire.Fields.required]

/-- The members that a condition adds to a loop can be written. -/
lemma isWritten_members (c : Condition) : ∀ m ∈ c.members, m.2.IsWritten := by
  cases c <;> simp [members]

/-- The members that a condition adds to a loop are texts and numbers, which are within every
depth. -/
lemma sound_members (depth : Nat) (c : Condition) : ∀ m ∈ c.members, m.2.Sound depth := by
  cases c <;> simp [members, Json.sound_text, Json.sound_int32]

end Condition

namespace Instruction

/-- The value of an instruction can be written; one case for each of them. -/
lemma isWritten_toJson (i : Instruction) : i.toJson.IsWritten := by
  cases i with
  | call f ns =>
    have hlist : (Json.ofList (fun n : Int32 => .int n.toInt) ns).IsWritten :=
      Json.isWritten_ofList fun n _ => Json.isWritten_int n.toInt
    exact Json.isWritten_record (by simp [hlist])
  | loop c =>
    refine Json.isWritten_record ?_
    simpa using c.isWritten_members
  | _ => exact Json.isWritten_record (by simp)

/-- An instruction may be looked at twice. -/
lemma sound_toJson (i : Instruction) : i.toJson.Sound 2 := by
  cases i with
  | call f ns =>
    have hlist : (Json.ofList (fun n : Int32 => .int n.toInt) ns).Sound 1 :=
      Json.sound_ofList fun n _ => Json.sound_int32 0 n
    exact Json.sound_record (by simp [hlist, Json.sound_text])
  | loop c =>
    refine Json.sound_record ?_
    simpa [Json.sound_text] using c.sound_members 1
  | _ => exact Json.sound_record (by simp [Json.sound_text, Json.sound_uint32, Json.sound_int32])

/-- **Instructions** are read back by their tags. A loop header has two of them, and the condition
is read by what is left after the first. -/
theorem ofSettled?_toJson (i : Instruction) : ofSettled? i.toJson = some i := by
  cases i with
  | call f ns =>
    have hlist := Wire.list?_ofList fun n (_ : n ∈ ns) => Wire.int32?_int n
    simp [ofSettled?, toJson, wireNames, Wire.Fields.required, hlist]
  | loop c =>
    have htag : "op" ∉ c.members.map Prod.fst := by cases c <;> simp [Condition.members]
    simp [ofSettled?, toJson, wireNames, Wire.tagged?_record htag, Condition.ofSettled?_record]
  | _ => simp [ofSettled?, toJson, wireNames, Wire.Fields.required]

/-- Instructions are read back at a level of nesting. -/
lemma ofJson?_toJson (level : Nat) (hlevel : level ≤ 100) (i : Instruction) :
    ofJson? level i.toJson = some i := by
  rw [ofJson?, if_pos (i.sound_toJson.isSettled (by rw [Wire.maxDepth]; omega)), ofSettled?_toJson]

end Instruction

/-- The statements of a trace map have 32 bits. -/
def TraceMap.Fits (m : TraceMap) : Prop := ∀ e ∈ m.entries, e.2 < UInt32.size

namespace TraceMap

/-- The value of a trace map can be written: it is an object whose names are the points and whose
values are the numbers of statements. -/
lemma isWritten_toJson (m : TraceMap) : (toJson m).IsWritten := by
  refine Json.isWritten_record ?_
  simp only [List.mem_singleton, forall_eq]
  rw [Json.IsWritten, Json.areWrittenMembers_iff]
  intro member hmember
  obtain ⟨e, -, rfl⟩ := List.mem_map.1 hmember
  exact ⟨⟨_, (Json.quote_toString_nat e.1.toNat).symm⟩, Json.isWritten_nat e.2⟩

/-- **Trace maps** are read back, though their points are written as names. -/
theorem ofJson?_toJson {m : TraceMap} (h : Fits m) : ofJson? (toJson m) = some m := by
  have hkey : ∀ point : UInt32, (Wire.decimalKey? UInt32.size (toString point.toNat).toList).map
      UInt32.ofNat = some point := by
    intro point
    rw [Wire.decimalKey?_digits point.toNat_lt_size, Option.map_some, UInt32.ofNat_toNat]
  have htable := Wire.table?_object
    (fun k => (Wire.decimalKey? UInt32.size k).map UInt32.ofNat)
    (fun point : UInt32 => (toString point.toNat).toList) m hkey
    fun e he => Wire.nat32?_nat (h e he)
  rw [ofJson?, toJson, Wire.record?_record (by simp) (by simp)]
  exact htable

end TraceMap

/-- The numbers of a program that are no words have 32 bits. -/
def Program.Fits (p : Program) : Prop := TraceMap.Fits p.traceMap

namespace Program

/-- The value of a program can be written, because those of its instructions and of its trace map
can. -/
lemma isWritten_toJson (p : Program) : p.toJson.IsWritten := by
  refine Json.isWritten_record ?_
  simp [Json.isWritten_ofList, Instruction.isWritten_toJson, TraceMap.isWritten_toJson]

/-- **Programs** are read back. -/
theorem ofJson?_toJson {p : Program} (h : p.Fits) : ofJson? p.toJson = some p := by
  have hinstructions := Wire.list?_ofList fun i (_ : i ∈ p.instructions) =>
    Instruction.ofJson?_toJson 2 (by decide) i
  simp [ofJson?, toJson, Wire.Fields.required, hinstructions, TraceMap.ofJson?_toJson h]

end Program

/-! ### Compile results -/

namespace LayoutHint

/-- The value of a layout hint can be written; one case for each of them. -/
lemma isWritten_toJson (h : LayoutHint) : h.toJson.IsWritten := by
  cases h with
  | misaligned names =>
    have hlist : (Json.ofList .text names).IsWritten :=
      Json.isWritten_ofList fun s _ => Json.isWritten_text s
    exact Json.isWritten_record (by simp [hlist])
  | _ => exact Json.isWritten_record (by simp)

/-- A hint whose tag comes first is read by its tag, and by its stickers if it has some. -/
lemma ofJson?_record (level : Nat) {name : String} {rest : List (String × Json)}
    (hname : name ∈ wireNames) (hrest : ∀ m ∈ rest, m.1 = "stickers")
    (hnodup : (rest.map Prod.fst).Nodup) :
    ofJson? level (.record (("hint", .text name) :: rest)) =
      ofParts? name (Wire.Fields.find? rest "stickers") := by
  have hfields : Wire.record? ["hint", "stickers"] (.record (("hint", .text name) :: rest)) =
      some (("hint", .text name) :: rest) := by
    refine Wire.record?_record ?_ ?_
    · simpa using fun field j hm => .inr (hrest (field, j) hm)
    · rw [List.map_cons, List.nodup_cons]
      refine ⟨fun hmem => ?_, hnodup⟩
      obtain ⟨m, hm, hfield⟩ := List.mem_map.1 hmem
      have hnames : ("stickers" : String) = "hint" := (hrest m hm).symm.trans hfield
      exact absurd hnames (by decide)
  rw [Json.record, ofJson?, ← Json.record, hfields]
  cases hstickers : Wire.Fields.find? rest "stickers" <;>
    simp [Wire.Fields.required, hname, hstickers, firstField]

/-- **Hints** are read back. The tag stands before the stickers, so these may nest as deep as they
like. -/
theorem ofJson?_toJson (level : Nat) (h : LayoutHint) : ofJson? level h.toJson = some h := by
  cases h with
  | misaligned names =>
    have hlist := Wire.list?_ofList fun s (_ : s ∈ names) => Json.text?_text s
    rw [toJson, ofJson?_record level (by decide) (by simp) (by simp)]
    simp [ofParts?, hlist]
  | _ =>
    rw [toJson, ofJson?_record level (by decide) (by simp) (by simp)]
    simp [ofParts?]

end LayoutHint

/-- The statements of a report have 32 bits. -/
def LayoutReport.Fits (r : LayoutReport) : Prop := ∀ n ∈ r.dangling, n < UInt32.size

namespace LayoutReport

/-- The value of a layout report can be written, because it is a record of lists of numbers and a
hint. -/
lemma isWritten_toJson (r : LayoutReport) : r.toJson.IsWritten := by
  refine Json.isWritten_record ?_
  simp [Json.isWritten_ofList, LayoutHint.isWritten_toJson]

/-- **Reports** are read back. -/
theorem ofJson?_toJson {r : LayoutReport} (level : Nat) (h : r.Fits) :
    ofJson? level r.toJson = some r := by
  have hmisplaced := Wire.list?_ofList fun s (_ : s ∈ r.misplaced) => Json.text?_text s
  have hdangling := Wire.list?_ofList fun n hn => Wire.nat32?_nat (h n hn)
  simp [ofJson?, toJson, Wire.Fields.required, hmisplaced, hdangling, LayoutHint.ofJson?_toJson]

end LayoutReport

/-- The numbers of a compile result fit. -/
structure CompileResult.Fits (r : CompileResult) : Prop where
  traceMap : ∀ m ∈ r.traceMap, TraceMap.Fits m
  report : ∀ l ∈ r.report, l.Fits
  errors : r.errors.Fits

namespace CompileResult

/-- The value of a result can be written, because those of its trace map, its report and its errors
can. -/
lemma isWritten_toJson (r : CompileResult) : r.toJson.IsWritten := by
  refine Json.isWritten_record ?_
  simp [Json.isWritten_ofOption, TraceMap.isWritten_toJson, LayoutReport.isWritten_toJson,
    DiagnosticLog.isWritten_toJson]

/-- **Compile results** are read back. -/
theorem ofJson?_toJson {r : CompileResult} (h : r.Fits) : ofJson? r.toJson = some r := by
  rw [ofJson?, toJson, Wire.record?_record (by simp) (by simp)]
  simp only [Option.bind_eq_bind, Option.bind_some]
  rw [Wire.Fields.optional_ofOption Json.text r.listing Json.present_text
      (fun s _ => Json.text?_text s) (by simp),
    Wire.Fields.optional_ofOption TraceMap.toJson r.traceMap (fun _ => Json.present_record _)
      (fun m hm => TraceMap.ofJson?_toJson (h.traceMap m hm)) (by simp),
    Wire.Fields.optional_ofOption Json.text r.fingerprint Json.present_text
      (fun s _ => Json.text?_text s) (by simp),
    Wire.Fields.optional_ofOption LayoutReport.toJson r.report (fun _ => Json.present_record _)
      (fun l hl => LayoutReport.ofJson?_toJson 1 (h.report l hl)) (by simp)]
  simp [Wire.Fields.required, DiagnosticLog.ofJson?_toJson h.errors]

end CompileResult

/-! ### Events -/

/-- The numbers of process information have 32 and 64 bits. -/
structure ProcessInfo.Fits (i : ProcessInfo) : Prop where
  pid : i.pid < UInt32.size
  pc : i.pc < UInt64.size

namespace ProcessInfo

/-- What is told of a process can be written. -/
lemma isWritten_toJson (i : ProcessInfo) : i.toJson.IsWritten :=
  Json.isWritten_record (by simp [Status.toJson])

/-- What is told of a process is within a depth of one, if its numbers are small enough for the
wire. -/
lemma sound_toJson {i : ProcessInfo} (h : i.Fits) : i.toJson.Sound 1 := by
  have hpid : i.pid < UInt64.size := Nat.lt_trans h.pid (by decide)
  refine Json.sound_record ?_
  simp [Status.toJson, Json.sound_text, Json.sound_nat, hpid, h.pc]

/-- **Process information** is read back. -/
theorem ofJson?_toJson {i : ProcessInfo} (inside : Bool) (h : i.Fits) :
    ofJson? inside i.toJson = some i := by
  have hstatus : Status.ofJson? inside i.status.toJson = some i.status := by
    cases i.status <;> simp [Status.ofJson?, Status.toJson, Status.name]
  simp [ofJson?, toJson, Wire.Fields.required, Wire.nat32?_nat h.pid, Wire.nat64?_nat h.pc, hstatus]

end ProcessInfo

namespace Event

/-- Who an event speaks of. -/
def info : Event → ProcessInfo
  | .processStarted i | .processStopped i | .trace i _ _ | .print i _ | .error i _ => i

/-- The statement that an event tells. -/
def statement? : Event → Option Nat
  | .trace _ _ statement => statement
  | _ => none

end Event

/-- The numbers of an event fit. -/
structure Event.Fits (e : Event) : Prop where
  info : e.info.Fits
  statement : ∀ n ∈ e.statement?, n < UInt32.size

namespace Event

/-- The value of an event can be written; one case for each of them. -/
lemma isWritten_toJson (e : Event) : e.toJson.IsWritten := by
  cases e <;> refine Json.isWritten_record ?_ <;>
    simp [ProcessInfo.isWritten_toJson, Json.isWritten_ofOption]

/-- An event may be looked at twice. -/
lemma sound_toJson {e : Event} (h : e.Fits) : e.toJson.Sound 2 := by
  have hinfo := ProcessInfo.sound_toJson h.info
  unfold info at hinfo
  cases e with
  | trace i point statement =>
    have hstatement : (Json.ofOption .nat statement).Sound 1 := by
      cases statement with
      | none => exact Json.sound_null 1
      | some n => exact Json.sound_nat 1 (Nat.lt_trans (h.statement n rfl) (by decide))
    refine Json.sound_record ?_
    simpa [Json.sound_text, Json.sound_uint32, hstatement] using hinfo
  | _ =>
    refine Json.sound_record ?_
    simpa [Json.sound_text] using hinfo

/-- **Events** are read back by their tags. -/
theorem ofSettled?_toJson {e : Event} (h : e.Fits) : ofSettled? e.toJson = some e := by
  have hinfo := ProcessInfo.ofJson?_toJson true h.info
  unfold info at hinfo
  cases e with
  | trace i point statement =>
    have hstatement : Wire.Fields.optional [("info", i.toJson), ("point", .nat point.toNat),
        ("statement", .ofOption .nat statement)] "statement" Wire.nat32? = some statement :=
      Wire.Fields.optional_ofOption Json.nat statement Json.present_nat
        (fun n hn => Wire.nat32?_nat (h.statement n hn)) (by simp)
    simp [ofSettled?, toJson, wireNames, Wire.Fields.required, hstatement, hinfo]
  | _ => simp [ofSettled?, toJson, wireNames, Wire.Fields.required, hinfo]

/-- Events are read back. -/
lemma ofJson?_toJson {e : Event} (h : e.Fits) : ofJson? 0 e.toJson = some e := by
  rw [ofJson?, if_pos ((sound_toJson h).isSettled (by decide)), ofSettled?_toJson h]

end Event

/-- **Round trip.** Programs with any instructions and any trace map, compile results with any
listing, report and diagnostics, and events are read back from their texts. -/
theorem wire_round_trip :
    (∀ p : Program, p.Fits → Json.Restores Program.toJson Program.ofJson? p) ∧
      (∀ r : CompileResult, r.Fits → Json.Restores CompileResult.toJson CompileResult.ofJson? r) ∧
      ∀ e : Event, e.Fits → Json.Restores Event.toJson (Event.ofJson? 0) e := by
  refine ⟨?_, ?_, ?_⟩
  · intro p hp
    exact Json.restores p.isWritten_toJson (Program.ofJson?_toJson hp)
  · intro r hr
    exact Json.restores r.isWritten_toJson (CompileResult.ofJson?_toJson hr)
  · intro e he
    exact Json.restores e.isWritten_toJson (Event.ofJson?_toJson he)

/-- A program with a loop that asks a sensor and a trace point of the greatest number, the result of
a page with a sticker out of reach, and the event of the trace point. -/
theorem wire_round_trip_sample :
    let program : Program := ⟨[.trace 4294967295, .loop (.sensorNotRaised "say \"hi\""),
      .call "walk" [-3], .close], Table.empty.insert 4294967295 7⟩
    let warning : Diagnostic :=
      (Diagnostic.warning Code.danglingBranch "loose\n").atStatement 7
    let result : CompileResult := {
      success := true, listing := none, traceMap := some program.traceMap, fingerprint := none
      isEmpty := false, isRunnable := true
      report := some ⟨true, true, true, true, true, ["Jump"], [7], .misaligned ["Jump"]⟩
      errors := { warnings := [warning], totalWarnings := 1 } }
    let event : Event := .trace ⟨1, 0, .running⟩ 4294967295 (some 7)
    Json.Restores Program.toJson Program.ofJson? program ∧
      Json.Restores CompileResult.toJson CompileResult.ofJson? result ∧
      Json.Restores Event.toJson (Event.ofJson? 0) event := by
  intro program warning result event
  have hmap : TraceMap.Fits program.traceMap := by
    intro e he
    obtain rfl : e = (4294967295, 7) := List.mem_singleton.1 he
    decide
  have hseven : 7 < UInt32.size := by decide
  have hwarning : warning.Fits :=
    ⟨by simp [warning, Diagnostic.atStatement, hseven],
      by simp [warning, Diagnostic.atStatement, Diagnostic.warning]⟩
  have hresult : result.Fits :=
    ⟨by simpa [result] using hmap, by simp [result, LayoutReport.Fits, hseven],
      ⟨by simp [result], by simpa [result] using hwarning, by decide, by decide⟩⟩
  have hevent : event.Fits := ⟨⟨by decide, by decide⟩, by simp [event, Event.statement?, hseven]⟩
  exact ⟨wire_round_trip.1 program hmap, wire_round_trip.2.1 result hresult,
    wire_round_trip.2.2 event hevent⟩

end StickerBot
