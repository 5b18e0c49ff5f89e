import StickerBot.Proofs.Announcing
import StickerBot.Proofs.Listing.RoundTrip
import StickerBot.Proofs.Warnings
set_option autoImplicit false

/-!
# Results can be relied on

A compile result is handed on as one flat record, and whoever gets it rebuilds the program from its
listing. The record agrees with the program that is rebuilt: it can be rebuilt at all, for the code
of stickers has no names but those that a listing may have, whatever the stickers are called; and
what the record says about the program is true of the rebuilt one.

## Main definitions

* `CompileResult.Refuses` — a record of a failure.
* `CompileResult.Rebuilds` — a record from which a program can be rebuilt.

## Main results

* `Layout.named_code` — the code of a statement has only names that may be names.
* `traced_generate` — a trace point that is written has an entry in the trace map.
* `compileBy_result` — every record of a compilation is of one of these two kinds.
-/

namespace StickerBot

/-! ### Names in generated code -/

/-- Small letters begin names. -/
lemma nameStart_ofNat : ∀ d < 26, NameStart (Char.ofNat ('a'.toNat + d)) := by
  have hletters : ∀ d < 26, 'a' ≤ Char.ofNat ('a'.toNat + d) ∧
      Char.ofNat ('a'.toNat + d) ≤ 'z' := by decide
  exact fun d hd => .inl (hletters d hd)

/-- **Counters** have names. A small depth has a letter, and no keyword is a single letter. A larger
one has the letter a with the depth in decimal digits, and no keyword begins with an a. -/
lemma isName_counterAt (depth : Nat) : IsName (Context.counterAt depth) := by
  unfold Context.counterAt
  split
  · rename_i hdepth
    rw [Char.toString_eq_singleton]
    refine ⟨⟨_, [], String.toList_singleton _, nameStart_ofNat depth hdepth, by simp⟩, ?_⟩
    intro hmem
    -- every keyword is longer than one letter
    have hlong : keywords.all (fun word => word.toList.length ≠ 1) = true := by decide
    have hone := List.all_eq_true.1 hlong _ hmem
    simp at hone
  · have hlist : ("a" ++ toString depth).toList = 'a' :: Nat.toDigits 10 depth := by
      rw [String.toList_append, Nat.toString_eq_repr, Nat.toList_repr]
      rfl
    refine ⟨⟨'a', _, hlist, .inl (by decide), fun d hd => .inr ?_⟩, fun hmem => ?_⟩
    · have hdigit := Nat.isDigit_of_mem_toDigits (by decide) (by decide) hd
      simpa [Char.isDigit, Char.le_def] using hdigit
    · -- no keyword begins with this letter
      have hfirst : keywords.all (fun word => word.toList.head? ≠ some 'a') = true := by decide
      have hother := List.all_eq_true.1 hfirst _ hmem
      simp at hother

/-- **Actions** have names. -/
lemma isName_name (a : NativeAction) : IsName a.name := by
  have hword : a.name.toList.all (fun c => ('a' ≤ c ∧ c ≤ 'z') ∨ ('A' ≤ c ∧ c ≤ 'Z')) = true := by
    cases a <;> decide
  have hkeyword : a.name ∉ keywords := by cases a <;> decide
  have hletter : ∀ c ∈ a.name.toList, NameStart c := fun c hc =>
    (of_decide_eq_true (List.all_eq_true.1 hword c hc)).imp_right .inl
  cases hlist : a.name.toList with
  | nil => cases a <;> exact absurd hlist (by decide)
  | cons c cs =>
    rw [hlist] at hletter
    exact ⟨⟨c, cs, hlist, hletter c List.mem_cons_self,
      fun d hd => .inl (hletter d (List.mem_cons_of_mem _ hd))⟩, hkeyword⟩

/-- The code of a wait has only names that may be names. -/
lemma named_waitCode (v : ParameterValue) {counter : String} (h : IsName counter) :
    ∀ i ∈ waitCode v counter, i.Named := by
  unfold waitCode
  cases v.limit? <;>
    simp [Instruction.Named, Instruction.names, Instruction.native, Instruction.whileNotRaised,
      Instruction.whileBelow, isName_name, h]

/-- So has the beginning of a repeat. -/
lemma named_repeatCode (v : ParameterValue) {counter : String} (h : IsName counter) :
    ∀ i ∈ repeatCode v counter, i.Named := by
  unfold repeatCode
  cases v.limit? <;>
    simp [Instruction.Named, Instruction.names, Instruction.whileNotRaised,
      Instruction.whileBelow, isName_name, h]

/-- **The code of a statement** has only names that may be names, whatever the statement is called.
What a statement is called stands only in the text of its remark, which is no name. Its code has the
names of actions and of counters. -/
theorem Layout.named_code (l : Layout) (debug : Bool) (pen : Pen) (id : Nat) :
    ∀ i ∈ l.code debug pen id, i.Named := by
  unfold Layout.code
  cases l.get? id with
  | none => simp
  | some s =>
    cases l.step? id with
    | none => simp
    | some x =>
      intro i hi
      rcases List.mem_append.1 hi with hi | hi
      · -- remarks have texts, and no names
        split at hi
        · rcases List.mem_cons.1 hi with rfl | hi
          · simp [Instruction.Named, Instruction.names]
          · rw [List.mem_singleton.1 hi]
            simp [Instruction.Named, Instruction.names]
        · exact absurd hi List.not_mem_nil
      · have hcounter := isName_counterAt pen.opened.length
        cases x with
        | plain sticker =>
          cases sticker with
          | act a =>
            rw [List.mem_singleton.1 hi]
            simp [Instruction.Named, Instruction.names, Instruction.native, isName_name]
          | wait v => exact named_waitCode v hcounter i hi
        | opening v => exact named_repeatCode v hcounter i hi
        | closing =>
          simp only [Brace.code] at hi
          split at hi
          · exact absurd hi List.not_mem_nil
          · rw [List.mem_singleton.1 hi]
            simp [Instruction.Named, Instruction.names]

/-- **Generated programs** have only names that may be names. -/
theorem named_generate {l l' : Layout} {options : GenerateOptions} {g : Generated}
    (h : generate l options = (l', .ok g)) : ∀ i ∈ g.program.instructions, i.Named := by
  obtain ⟨c, rfl, hwalked⟩ := exists_walked h
  intro i hi
  have hi : i ∈ c.instructions := hi
  rw [hwalked.code] at hi
  obtain ⟨p, hp, hi⟩ := List.mem_flatMap.1 hi
  obtain ⟨pen, hpen⟩ := Layout.exists_pen_of_mem_pieces l options.debug _ .start p hp
  rw [hpen] at hi
  exact l.named_code options.debug pen p.statement i hi

/-! ### Trace points -/

/-- What stands in a list of entries is found in its table, under this key or a later one. -/
lemma Table.isSome_get?_foldl {α β : Type} [Ord α] [Std.TransOrd α] [Std.LawfulEqOrd α] {k : α}
    (es : List (α × β)) : ∀ t : Table α β, (t.get? k).isSome = true ∨ k ∈ es.map Prod.fst →
      ((es.foldl (fun t e => t.insert e.1 e.2) t).get? k).isSome = true := by
  induction es with
  | nil => simp
  | cons e es ih =>
    intro t h
    refine ih _ ?_
    by_cases hk : k = e.1
    · subst hk
      simp
    · rw [Table.get?_insert_of_ne _ _ hk]
      simpa [hk] using h

/-- **Trace points** that are written have entries in the trace map. -/
theorem traced_generate {l l' : Layout} {options : GenerateOptions} {g : Generated}
    (h : generate l options = (l', .ok g)) (point : UInt32)
    (hpoint : .trace point ∈ g.program.instructions) :
    (g.program.traceMap.get? point).isSome = true := by
  obtain ⟨c, seen, rfl, -, ⟨-, hwritten⟩, htrace⟩ :=
    (walkKeeps_traceMap l options).generate h fun start =>
      ⟨⟨.clearMarks l, rfl, rfl, rfl, rfl⟩, rfl⟩
  have hpoint : .trace point ∈ c.instructions := hpoint
  have hmem : point ∈ c.instructions.filterMap Instruction.point? :=
    List.mem_filterMap.2 ⟨_, hpoint, rfl⟩
  rw [hwritten.code, filterMap_point?_flatMap] at hmem
  change (c.traceMap.get? point).isSome = true
  rw [htrace]
  exact Table.isSome_get?_foldl _ _ (.inr hmem)

/-! ### Records -/

namespace CompileResult

/-- **Refusing.** A record of a failure: it has nothing but the error. -/
structure Refuses (r : CompileResult) (e : CompileError) : Prop where
  success : r.success = false
  listing : r.listing = none
  traceMap : r.traceMap = none
  fingerprint : r.fingerprint = none
  report : r.report = none
  isEmpty : r.isEmpty = true
  isRunnable : r.isRunnable = false
  /-- One error is stored and counted, with the code of the failure, and no warning. -/
  error : ∃ d, r.errors.errors = [d] ∧ d.code = e.code ∧ r.errors.totalErrors = 1 ∧
    r.errors.warnings = [] ∧ r.errors.totalWarnings = 0

/-- **Rebuilding.** A record from which a program can be rebuilt, about which it says what is
true. -/
structure Rebuilds (r : CompileResult) (c : Compilation) : Prop where
  success : r.success = true
  report : r.report = some c.report
  program : ∃ (text : String) (map : TraceMap) (q : Program),
    r.listing = some text ∧ r.traceMap = some map ∧
      Listing.parseProgram text = .ok q ∧ q.instructions = c.program.instructions ∧
      q.isEmpty = r.isEmpty ∧ q.isRunnable = r.isRunnable ∧
      r.fingerprint = some (Sha256.hex q.listing.toUTF8) ∧
      ∀ point, .trace point ∈ q.instructions → (map.get? point).isSome = true

/-- Every error makes a record of a failure. -/
lemma refuses_ofOutcome (e : CompileError) : (ofOutcome (.error e)).Refuses e :=
  ⟨rfl, rfl, rfl, rfl, rfl, rfl, rfl, e.diagnostic, rfl, rfl, rfl, rfl, rfl⟩

end CompileResult

/-- **Results.** Whatever is compiled, the record of the outcome says that it was a success exactly
if it counts no errors. A record of a failure has nothing but its error; from any other record the
program can be rebuilt, and what the record says is true of the rebuilt program, whatever the
stickers are called.

**Proof sketch.** The names in the code of a statement are those of actions and counters, so its
listing is read back. All else that a record says depends on the instructions alone. -/
theorem compileBy_result {δ : Type} (distances : δ → δ → Ordering)
    (overlap : Zone → Zone → Option δ) (catalog : Catalog) (options : GenerateOptions)
    (ms : List Marker) :
    let outcome := compileBy distances overlap catalog options ms
    let r := CompileResult.ofOutcome outcome
    (r.success = true ↔ r.errors.totalErrors = 0) ∧
      ((∃ c, outcome = .ok c ∧ r.Rebuilds c) ∨ ∃ e, outcome = .error e ∧ r.Refuses e) := by
  dsimp only
  cases hc : compileBy distances overlap catalog options ms with
  | error e =>
    have hrefuses := CompileResult.refuses_ofOutcome e
    refine ⟨⟨fun h => ?_, fun h => ?_⟩, .inr ⟨e, rfl, hrefuses⟩⟩
    · exact nomatch h
    · exact nomatch h
  | ok c =>
    obtain ⟨g, hg, hprogram, -⟩ := exists_generate_of_compileBy hc
    have hnamed := named_generate hg
    have htraced := traced_generate hg
    rw [← hprogram] at hnamed htraced
    refine ⟨⟨fun _ => (compileBy_warns hc).totalErrors, fun _ => rfl⟩, .inl ⟨c, rfl, rfl, rfl, ?_⟩⟩
    have hparse := Listing.parseProgram_listing_of_named hnamed
    exact ⟨_, _, _, rfl, rfl, hparse, rfl, rfl, rfl, rfl, htraced⟩

end StickerBot
