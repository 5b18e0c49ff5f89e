import StickerBot.LayoutReport
import StickerBot.Proofs.GeneratedRun
import StickerBot.Proofs.Pieces
set_option autoImplicit false

/-!
# Marks tell what can be reached

The walk that writes a program marks what it writes, and takes a marked statement as visited. So
the marks that it leaves could depend on the way it went. They do not: marked are the statements
that can be reached from the start, and the parameters that these read.

## Main definitions

* `Layout.Belongs` — what belongs to the program of a page.
* `Layout.Covered` — the marks tell what belongs to the program, and the program holds it once.

## Main results

* `Layout.Covered.isCompiled_iff` — what is marked is what belongs to the program.
* `generate_covered` — a generated program covers its page, and the report names the statements
  that do not belong to it.
-/

namespace StickerBot

namespace Layout

/-- **Belonging.** What can be reached from the start belongs to the program of a page, and so do
the parameters that are read by what can be reached. -/
def Belongs (l : Layout) (start id : Nat) : Prop :=
  l.Reaches start id ∨
    (∃ s, l.get? id = some s ∧ s.kind.isParameter = true) ∧
      ∃ owner o, l.Reaches start owner ∧ l.get? owner = some o ∧ o.Configures id

/-- **Covered.** A layout is another one up to marks. Its marks tell what belongs to the program:
the statements of the flow that can be reached, the parameters that marked statements read, and
among the former those with a loose end. The instructions are the pieces of the marked statements
of the flow, one of each. -/
structure Covered (l : Layout) (start : Nat) (debug : Bool) (l' : Layout)
    (instructions : List Instruction) : Prop where
  same : l'.clearMarks = l.clearMarks
  flow : ∀ id s, l'.get? id = some s → s.kind.isParameter = false →
    (s.isCompiled = true ↔ l.Reaches start id)
  parameter : ∀ id s, l'.get? id = some s → s.kind.isParameter = true →
    (s.isCompiled = true ↔ ∃ owner o, l'.get? owner = some o ∧ o.isCompiled = true ∧
      o.Configures id)
  dangling : ∀ id s, l'.get? id = some s → (s.isDangling = true ↔
    s.isCompiled = true ∧ s.IsLoose)
  code : instructions = (l.written debug).flatMap Piece.code
  once : ((l.written debug).map Piece.statement).Nodup
  all : ∀ id, id ∈ (l.written debug).map Piece.statement ↔
    ∃ s, l'.get? id = some s ∧ s.kind.isParameter = false ∧ s.isCompiled = true

/-! ### What is reached is of the flow -/

variable {l l' : Layout} {start id : Nat}

/-- What is reached from a statement of the flow is of the flow. -/
lemma Reaches.isFlow (h : l.Reaches start id) (hstart : l.IsFlow start) : l.IsFlow id := by
  rcases Relation.ReflTransGen.cases_tail h with rfl | ⟨_, -, -, -, -, -, hflow⟩
  · exact hstart
  · exact hflow

/-- A statement with marks is one without them, but for the marks. -/
lemma get?_of_clearMarks_eq (h : l'.clearMarks = l.clearMarks) (id : Nat) :
    (l'.get? id).map Statement.clearMarks = (l.get? id).map Statement.clearMarks := by
  have hget := congrArg (fun l => l.get? id) h
  simpa only [clearMarks, get?, List.getElem?_map] using hget

/-- Statements that are alike up to marks make layouts that are alike up to marks. -/
lemma clearMarks_eq_of_get?
    (h : ∀ id, (l'.get? id).map Statement.clearMarks = (l.get? id).map Statement.clearMarks) :
    l'.clearMarks = l.clearMarks := by
  unfold clearMarks
  congr 1
  refine List.ext_getElem? fun id => ?_
  rw [List.getElem?_map, List.getElem?_map]
  exact h id

/-! ### The marks -/

namespace Covered

variable {debug : Bool} {instructions : List Instruction}

/-- A marked statement that reads a parameter is one that is reached and reads it, and the other
way round. -/
lemma exists_owner_iff (h : l.Covered start debug l' instructions) :
    (∃ owner o, l'.get? owner = some o ∧ o.isCompiled = true ∧ o.Configures id) ↔
      ∃ owner o, l.Reaches start owner ∧ l.get? owner = some o ∧ o.Configures id := by
  have hsame := get?_of_clearMarks_eq h.same
  constructor
  · rintro ⟨owner, o', ho', hcompiled, hconf⟩
    have hreach := (h.flow owner o' ho' hconf.isParameter_eq_false).1 hcompiled
    obtain ⟨o, ho, hclear⟩ := Option.map_eq_some_iff.1
      ((hsame owner).symm.trans (by rw [ho', Option.map_some]))
    have hconf' : o'.clearMarks.Configures id := hconf
    rw [← hclear] at hconf'
    exact ⟨owner, o, hreach, ho, hconf'⟩
  · rintro ⟨owner, o, hreach, ho, hconf⟩
    obtain ⟨o', ho', hclear⟩ := Option.map_eq_some_iff.1
      ((hsame owner).trans (by rw [ho, Option.map_some]))
    have hconf' : o.clearMarks.Configures id := hconf
    rw [← hclear] at hconf'
    have hcompiled := (h.flow owner o' ho' (Statement.Configures.isParameter_eq_false hconf')).2
      hreach
    exact ⟨owner, o', ho', hcompiled, hconf'⟩

/-- **What is marked** is what belongs to the program.

**Proof sketch.** A statement of the flow is marked when it is reached from the start, and a
parameter when a statement that is reached reads it. What kind a statement is does not change in a
walk, so that each side has its own case. -/
theorem isCompiled_iff (h : l.Covered start debug l' instructions) (hstart : l.IsFlow start)
    {s : Statement} (hs : l'.get? id = some s) : s.isCompiled = true ↔ l.Belongs start id := by
  obtain ⟨s₀, hs₀, hclear⟩ := Option.map_eq_some_iff.1
    ((get?_of_clearMarks_eq h.same id).symm.trans (by rw [hs, Option.map_some]))
  obtain ⟨hkind, -⟩ := Statement.of_clearMarks_eq hclear
  cases hp : s.kind.isParameter with
  | false =>
    refine (h.flow id s hs hp).trans ⟨.inl, ?_⟩
    rintro (hreach | ⟨⟨t, ht, htp⟩, -⟩)
    · exact hreach
    · obtain rfl := Option.some.inj (hs₀.symm.trans ht)
      rw [hkind, hp] at htp
      exact absurd htp (by simp)
  | true =>
    refine (h.parameter id s hs hp).trans (h.exists_owner_iff.trans ⟨fun howner => ?_, ?_⟩)
    · exact .inr ⟨⟨s₀, hs₀, by rw [hkind, hp]⟩, howner⟩
    · rintro (hreach | ⟨-, howner⟩)
      · obtain ⟨t, ht, htp⟩ := hreach.isFlow hstart
        obtain rfl := Option.some.inj (hs₀.symm.trans ht)
        rw [hkind, hp] at htp
        exact absurd htp (by simp)
      · exact howner

end Covered

/-! ### The report -/

/-- The statements in the order of their numbers. -/
lemma statements_eq_filterMap (l : Layout) :
    l.statements = (List.range l.size).filterMap l.get? := by
  have htake : ∀ n ≤ l.size, (List.range n).filterMap l.get? = l.statements.take n := by
    intro n hn
    induction n with
    | zero => rfl
    | succ n ih =>
      rw [List.range_succ, List.filterMap_append, ih (Nat.le_of_succ_le hn), List.take_add_one]
      have hlt : n < l.statements.length := hn
      simp [get?, hlt]
  rw [htake _ (Nat.le_refl _), size, List.take_length]

/-- The statements of one sort in the order of their numbers. -/
lemma filter_statements (l : Layout) (p : Statement → Bool) : l.statements.filter p =
    ((List.range l.size).filter fun id => (l.get? id).any p).filterMap l.get? := by
  rw [statements_eq_filterMap, List.filter_filterMap, List.filterMap_filter]
  refine List.filterMap_congr fun id _ => ?_
  cases l.get? id with
  | none => rfl
  | some s => cases hs : p s <;> simp [Option.filter, hs]

/-- The report names the statements without a mark in the order of their numbers. -/
lemma misplacedNames_eq (l : Layout) : LayoutReport.misplacedNames l =
    ((List.range l.size).filter fun id => (l.get? id).any fun s => !s.isCompiled).filterMap
      fun id => (l.get? id).map Statement.name := by
  rw [LayoutReport.misplacedNames, filter_statements, List.map_filterMap]

end Layout

/-! ### Programs cover their pages -/

/-- What a walk leaves that has written a program covers the page. Each field is one of the
invariants of the walk, read at its end, where no task is pending. That the chain is what can be
reached from the start is shown separately. -/
lemma Layout.Walked.covered {l l' : Layout} {options : GenerateOptions} {c : Context}
    (h : l.Walked options l' c) {start : Nat} (hstart : l.start? = some start) :
    l.Covered start options.debug l' c.instructions := by
  have hchain : ∀ id, id ∈ l.chain [] l.start?.toList ↔ l.Reaches start id := by
    rw [hstart]
    exact fun id => mem_chain_iff (isFlow_start hstart)
  constructor
  · exact clearMarks_eq_of_get? h.marks.same
  · exact fun id s hs hp => (h.marks.compiled id s hs hp).trans (hchain id)
  · exact h.wellMarked.parameter
  · intro id s hs
    refine ⟨h.wellMarked.dangling id s hs, fun ⟨hcompiled, hloose⟩ => ?_⟩
    exact (h.wellMarked.pending id s hs hcompiled hloose).resolve_right List.not_mem_nil
  · exact h.code
  · exact l.nodup_written options.debug
  · intro id
    rw [map_statement_written]
    constructor
    · intro hid
      obtain ⟨⟨s₀, hs₀, hp⟩, -⟩ := of_mem_chain l [] _ id hid
      obtain ⟨s, hs, hkind, -⟩ := h.marks.exists_get? hs₀
      have hp' : s.kind.isParameter = false := by rw [hkind, hp]
      exact ⟨s, hs, hp', (h.marks.compiled id s hs hp').2 hid⟩
    · rintro ⟨s, hs, hp, hcompiled⟩
      exact (h.marks.compiled id s hs hp).1 hcompiled

/-- **Coverage.** A generated program covers its page: what is marked is what can be reached from
the start and the parameters that it reads, marked as loose is what of it has a loose end, and the
instructions of each marked statement are written once. The report names exactly the statements
that do not belong to the program, in the order of their numbers.

**Proof sketch.** What the walk visits is the chain of the page, whatever it marks on its way. A
chain is closed under outgoing connectors and holds nothing twice. -/
theorem generate_covered {l l' : Layout} {options : GenerateOptions} {g : Generated}
    (h : generate l options = (l', .ok g)) :
    ∃ start, l.start? = some start ∧
      l.Covered start options.debug l' g.program.instructions ∧
      (∀ id s, l'.get? id = some s → (s.isCompiled = true ↔ l.Belongs start id)) ∧
      ∃ ids : List Nat, ids.Pairwise (· < ·) ∧
        (∀ id, id ∈ ids ↔ id < l.size ∧ ¬ l.Belongs start id) ∧
        (LayoutReport.ofLayout l').misplaced =
          ids.filterMap fun id => (l.get? id).map Statement.name := by
  obtain ⟨c, rfl, hwalked⟩ := exists_walked h
  obtain ⟨start, hstart⟩ := hwalked.start
  have hcovered := hwalked.covered hstart
  have hmarked : ∀ id s, l'.get? id = some s → (s.isCompiled = true ↔ l.Belongs start id) :=
    fun id s => hcovered.isCompiled_iff (Layout.isFlow_start hstart)
  have hsame := Layout.get?_of_clearMarks_eq hcovered.same
  have hsize : l'.size = l.size := by
    simpa [Layout.clearMarks, Layout.size] using
      congrArg (fun l => l.statements.length) hcovered.same
  refine ⟨start, hstart, hcovered, hmarked, _, ?_, fun id => ?_,
    (Layout.misplacedNames_eq l').trans (List.filterMap_congr fun id _ => ?_)⟩
  · exact List.pairwise_lt_range.filter _
  · rw [List.mem_filter, List.mem_range, hsize]
    refine and_congr_right fun hid => ?_
    obtain ⟨s, hs⟩ : ∃ s, l'.get? id = some s :=
      ⟨_, List.getElem?_eq_getElem (by rw [← hsize] at hid; exact hid)⟩
    rw [hs, Option.any_some, Bool.not_eq_true', ← hmarked id s hs, Bool.not_eq_true]
  · have hname := congrArg (Option.map Statement.name) (hsame id)
    rwa [Option.map_map, Option.map_map] at hname

/-- A page whose chain goes in a circle. The dance leads back into the repeat and, by a second
connector, nowhere; the wait leads to the dance, but nothing leads to the wait. -/
def roundPage : Layout :=
  ⟨[stickerTo .start "Begin" (some 1) none,
    stickerTo .loopBegin "Begin Repeat" (some 2) (some 4),
    { stickerTo (.action .dance) "Dance" (some 1) none with
      connectors := [⟨"back", .outgoing, default, some 1⟩, ⟨"next", .outgoing, default, none⟩] },
    stickerTo .wait "Wait" (some 2) (some 5),
    stickerTo (.parameter (.count 3)) "3" none none,
    stickerTo (.parameter .tap) "Tap" none none]⟩

/-- What is written for the page with remarks: its program, and warnings about the loose end and
the repeat that is never closed. -/
def roundCode : Generated where
  program :=
    ⟨[.trace 0, .print "Begin Repeat", .assign "a" 0, .whileBelow "a" 3, .wait 500,
        .increment "a" 1, .trace 1, .print "Dance", .native .dance []],
      ((Table.empty : TraceMap).insert 0 1).insert 1 2⟩
  diagnostics := .ofList [danglingBranch 2 "Dance", unclosedLoop ⟨1, some "a"⟩]

/-- The page with its marks. -/
def roundMarked : Layout :=
  ((((roundPage.markCompiled 0).markCompiled 1).markCompiled 4).markCompiled 2).markDangling 2

/-- The program of a page that goes in a circle covers it. -/
theorem generate_covered_roundPage :
    generate roundPage { debug := true } = (roundMarked, .ok roundCode) ∧
      roundPage.Covered 0 true roundMarked roundCode.program.instructions := by
  have hg : generate roundPage { debug := true } = (roundMarked, .ok roundCode) := by cbv
  obtain ⟨start, hstart, hcovered, -⟩ := generate_covered hg
  obtain rfl : 0 = start := Option.some.inj hstart
  exact ⟨hg, hcovered⟩

example : (LayoutReport.ofLayout roundMarked).misplaced = ["Wait", "Tap"] := by decide

end StickerBot
