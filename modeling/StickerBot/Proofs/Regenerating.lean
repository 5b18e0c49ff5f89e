import StickerBot.Proofs.Coverage
set_option autoImplicit false

/-!
# Generating again

A walk goes by the marks that it makes itself, so marks from before could cut it short. They do not:
a generation takes them away first, and it changes nothing of a page but its marks, even if it
fails in the middle. So a page may be generated again at any time, whatever was generated from it
before and whether that went well.

## Main definitions

* `Layout.Alike` — pages that differ in their marks at most.
* `Layout.afterGenerations` — a page from which programs were generated.
* `GeneratesAfresh` — what is promised of a generation.

## Main results

* `Layout.alike_iff` — pages are alike if they are the same without marks.
* `clearMarks_walk` — a walk changes marks only, and fails only if it goes too deep.
* `Layout.Alike.generate_eq` — marks from before do not matter.
* `Layout.alike_afterGenerations` — pages stay alike, whatever is generated from them.
* `generate_afresh` — a generation reads no marks from before, and changes marks only.
-/

namespace StickerBot

namespace Layout

variable {l l' : Layout}

/-! ### Pages that are alike -/

/-- **Alike.** Two pages have the same statements under the same numbers, with the same connectors
that lead to the same places, and differ in their marks at most. -/
structure Alike (l l' : Layout) : Prop where
  size : l'.size = l.size
  kind : ∀ id, (l'.get? id).map Statement.kind = (l.get? id).map Statement.kind
  name : ∀ id, (l'.get? id).map Statement.name = (l.get? id).map Statement.name
  marker : ∀ id, (l'.get? id).map Statement.marker = (l.get? id).map Statement.marker
  connectors : ∀ id,
    (l'.get? id).map Statement.connectors = (l.get? id).map Statement.connectors

/-- What a statement says besides its marks is the same where pages are the same without marks. -/
lemma map_get?_of_clearMarks_eq (h : l'.clearMarks = l.clearMarks) {α : Type} (f : Statement → α)
    (hf : ∀ s, f s.clearMarks = f s) (id : Nat) : (l'.get? id).map f = (l.get? id).map f := by
  have hmap := congrArg (Option.map f) (get?_of_clearMarks_eq h id)
  have hcomp : f ∘ Statement.clearMarks = f := by
    ext s
    exact hf s
  rwa [Option.map_map, Option.map_map, hcomp] at hmap

/-- Pages are alike if they are the same without marks. One direction puts a statement together from
its kind, its name, its marker and its connectors, which are all that it has but marks; the other
one reads them off. -/
theorem alike_iff : l.Alike l' ↔ l'.clearMarks = l.clearMarks := by
  constructor
  · rintro ⟨-, hkind, hname, hmarker, hconnectors⟩
    apply clearMarks_eq_of_get?
    intro id
    specialize hkind id
    specialize hname id
    specialize hmarker id
    specialize hconnectors id
    generalize l.get? id = s, l'.get? id = s' at hkind hname hmarker hconnectors ⊢
    cases s with
    | none =>
      rw [Option.map_none, Option.map_eq_none_iff] at hkind
      rw [hkind]
    | some s =>
      obtain ⟨s', rfl, -⟩ := Option.map_eq_some_iff.1 hkind
      simp_all [Statement.clearMarks]
  · intro h
    constructor
    · simpa [clearMarks, size] using congrArg (fun l => l.statements.length) h
    all_goals
      apply map_get?_of_clearMarks_eq h
      intro s
      rfl

/-- A page is alike to itself. -/
lemma Alike.refl (l : Layout) : l.Alike l := alike_iff.2 rfl

/-- Pages alike to the same page are alike. -/
lemma Alike.trans {l'' : Layout} (h : l.Alike l') (h' : l'.Alike l'') : l.Alike l'' :=
  alike_iff.2 ((alike_iff.1 h').trans (alike_iff.1 h))

/-- Marks do not make a start. -/
lemma startCount_clearMarks (l : Layout) : l.clearMarks.startCount = l.startCount := by
  rw [startCount, clearMarks, List.countP_map]
  rfl

/-- Whether there is exactly one start, and which statement it is, does not depend on marks. -/
lemma start?_clearMarks (l : Layout) : l.clearMarks.start? = l.start? := by
  unfold start? hasStart
  rw [startCount_clearMarks, clearMarks, List.findIdx?_map]
  rfl

/-- Pages that are alike begin alike. -/
lemma Alike.start (h : l.Alike l') : l'.startCount = l.startCount ∧ l'.start? = l.start? := by
  rw [← startCount_clearMarks l', ← start?_clearMarks l', alike_iff.1 h, startCount_clearMarks,
    start?_clearMarks]
  exact ⟨rfl, rfl⟩

/-! ### What a walk changes -/

/-- Clearing marks twice is clearing them once. -/
lemma clearMarks_clearMarks (l : Layout) : l.clearMarks.clearMarks = l.clearMarks := by
  rw [clearMarks, clearMarks, List.map_map]
  rfl

/-- Marking a statement as dangling is undone by clearing the marks. -/
lemma clearMarks_markDangling (l : Layout) (id : Nat) :
    (l.markDangling id).clearMarks = l.clearMarks := by
  apply clearMarks_eq_of_get?
  intro i
  rw [get?_markDangling, Option.map_map]
  rfl

/-- Writing a statement marks it and the parameter that it reads. -/
lemma clearMarks_emitStatement {id : Nat} {s : Statement} (hs : l.get? id = some s) (c : Context) :
    (emitStatement id (l.markCompiled id) c).1.clearMarks = l.clearMarks := by
  apply clearMarks_eq_of_get?
  intro i
  rw [get?_emitStatement_markCompiled hs, Option.map_map]
  rfl

end Layout

/-- **A walk** changes marks only, wherever it ends, and it fails only because it has gone too deep.

**Proof sketch.** Induction along the walk. -/
theorem clearMarks_walk (tasks : List WalkTask) (l : Layout) (c : Context) :
    (walk tasks l c).1.clearMarks = l.clearMarks ∧ ∀ e, (walk tasks l c).2 = .error e →
      ∃ id, e = .chainTooDeep c.options.maxChainDepth id := by
  induction tasks, l, c using walk_induction with
  | done l c =>
    rw [walk]
    exact ⟨rfl, by simp⟩
  | lost l c id rest hid ih =>
    rwa [walk, hid]
  | dangle l c id rest s hid ih =>
    rw [walk, hid]
    exact ⟨ih.1.trans (l.clearMarks_markDangling id), ih.2⟩
  | deep l c id depth rest hdeep =>
    rw [walk, if_pos hdeep]
    exact ⟨rfl, fun e he => ⟨id, (Except.error.inj he).symm⟩⟩
  | skip l c id depth rest hdepth hskip ih =>
    rwa [walk_skip rest hdepth hskip]
  | new l c id depth rest s hdepth hid hp hcompiled ih =>
    rw [walk_new rest hdepth hid hp hcompiled]
    refine ⟨ih.1.trans (Layout.clearMarks_emitStatement hid c), ?_⟩
    rw [← options_emitStatement id (l.markCompiled id) c]
    exact ih.2

/-! ### Generations -/

namespace Layout

variable {l l' : Layout}

/-- What is generated from a page with one start does not depend on marks. -/
theorem Alike.generate_eq (h : l.Alike l') (hcount : l.startCount = 1)
    (options : GenerateOptions) : generate l' options = generate l options := by
  obtain ⟨start, hstart⟩ := exists_start? hcount
  rw [generate_of_start? hstart, generate_of_start? (h.start.2.trans hstart), alike_iff.1 h]

/-- Without exactly one start there is no program, and nothing is changed. -/
lemma generate_of_startCount_ne_one (hcount : l.startCount ≠ 1) (options : GenerateOptions) :
    generate l options = (l, .error
      (if l.startCount ≤ 1 then .missingStart else .duplicateStart l.startCount)) := by
  apply generate_of_start?_eq_none
  rw [Option.eq_none_iff_forall_ne_some]
  intro start hstart
  exact hcount (start?_eq_some_iff.1 hstart).1

/-- With one start a generation fails only because its walk has gone too deep. -/
lemma of_generate_error (hcount : l.startCount = 1) {options : GenerateOptions}
    {e : GenerateError} (he : (generate l options).2 = .error e) :
    ∃ id, e = .chainTooDeep options.maxChainDepth id := by
  obtain ⟨start, hstart⟩ := exists_start? hcount
  rw [generate_of_start? hstart] at he
  have hwalk := (clearMarks_walk [.visit start 0] l.clearMarks (.start options)).2
  rcases hr : walk [.visit start 0] l.clearMarks (.start options) with ⟨l', e' | c⟩
  · rw [hr] at he hwalk
    obtain rfl : e' = e := Except.error.inj he
    exact hwalk e' rfl
  · rw [hr] at he
    exact absurd he (by simp)

/-- **Generations** change marks only, whether they fail or not. -/
theorem alike_generate (l : Layout) (options : GenerateOptions) :
    l.Alike (generate l options).1 := by
  cases hstart : l.start? with
  | none =>
    rw [generate_of_start?_eq_none hstart]
    exact .refl l
  | some start =>
    rw [generate_of_start? hstart, alike_iff]
    have hwalk := (clearMarks_walk [.visit start 0] l.clearMarks (.start options)).1
    rw [clearMarks_clearMarks] at hwalk
    rcases hr : walk [.visit start 0] l.clearMarks (.start options) with ⟨l', e | c⟩ <;>
      rwa [hr] at hwalk

/-- A page from which programs were generated, one after the other. -/
def afterGenerations (l : Layout) (generations : List GenerateOptions) : Layout :=
  generations.foldl (fun page options => (generate page options).1) l

/-- Generations leave a page alike. -/
theorem alike_afterGenerations (generations : List GenerateOptions) : ∀ l : Layout,
    l.Alike (l.afterGenerations generations) := by
  induction generations with
  | nil => exact .refl
  | cons options generations ih => exact fun l => (l.alike_generate options).trans (ih _)

/-- Without exactly one start they leave it as it is. -/
lemma afterGenerations_eq (hcount : l.startCount ≠ 1) (generations : List GenerateOptions) :
    l.afterGenerations generations = l := by
  induction generations with
  | nil => rfl
  | cons options generations ih =>
    rw [afterGenerations, List.foldl_cons, generate_of_startCount_ne_one hcount]
    exact ih

end Layout

/-- **Generating afresh.** What is promised of what is generated from two pages, one of which may
have other marks than the other. -/
structure GeneratesAfresh (l l' : Layout) (options : GenerateOptions) : Prop where
  /-- The programs and diagnostics are the same, or the errors are. -/
  outcome : (generate l' options).2 = (generate l options).2
  /-- With one start the pages are the same afterwards, also if the chain was too deep. -/
  marks : l.startCount = 1 → (generate l' options).1 = (generate l options).1
  tooDeep : l.startCount = 1 → ∀ e, (generate l options).2 = .error e →
    ∃ id, e = .chainTooDeep options.maxChainDepth id
  /-- Without exactly one start there is no program, and both pages stay as they are. -/
  untouched : l.startCount ≠ 1 → (∀ g, (generate l options).2 ≠ .ok g) ∧
    (generate l options).1 = l ∧ (generate l' options).1 = l'
  /-- In every case they change their marks only. -/
  frame : l.Alike (generate l options).1 ∧ l'.Alike (generate l' options).1
  /-- Whatever was generated from a page before, the same is generated again. -/
  again : ∀ generations : List GenerateOptions,
    generate (l.afterGenerations generations) options = generate l options

/-- **Generations read no marks from before**, and change marks only. From pages that differ in
their marks at most the same is generated, and then they do not differ any longer, unless they have
no start or several; then nothing is changed. So the same program is generated from a page again
and again, with the same marks, also after generations that have failed. -/
theorem generate_afresh {l l' : Layout} (h : l.Alike l') (options : GenerateOptions) :
    GeneratesAfresh l l' options := by
  have hcount' := h.start.1
  constructor
  · by_cases hcount : l.startCount = 1
    · rw [h.generate_eq hcount]
    · rw [Layout.generate_of_startCount_ne_one hcount,
        Layout.generate_of_startCount_ne_one (by rwa [hcount']), hcount']
  · exact fun hcount => by rw [h.generate_eq hcount]
  · exact fun hcount e => Layout.of_generate_error hcount
  · intro hcount
    rw [Layout.generate_of_startCount_ne_one hcount,
      Layout.generate_of_startCount_ne_one (by rwa [hcount'])]
    exact ⟨by simp, rfl, rfl⟩
  · exact ⟨l.alike_generate options, l'.alike_generate options⟩
  · intro generations
    by_cases hcount : l.startCount = 1
    · exact (Layout.alike_afterGenerations generations l).generate_eq hcount options
    · rw [Layout.afterGenerations_eq hcount]

/-- A page all of whose statements are marked, whatever they are. -/
def overmarkedPage : Layout :=
  ⟨roundPage.statements.map fun s => { s with isCompiled := true, isDangling := true }⟩

/-- A walk on it would not get beyond its start, but a generation is not kept from writing the whole
program, neither by these marks nor by those of a generation before that has failed. -/
theorem generate_afresh_overmarkedPage :
    (walk [.visit 0 0] overmarkedPage (.start {})).1 = overmarkedPage ∧
      roundPage.Alike overmarkedPage ∧ GeneratesAfresh roundPage overmarkedPage { debug := true } ∧
      (generate overmarkedPage { maxChainDepth := 1 }).2 = .error (.chainTooDeep 1 2) ∧
      generate (overmarkedPage.afterGenerations [{ maxChainDepth := 1 }]) { debug := true } =
        (roundMarked, .ok roundCode) := by
  have halike : roundPage.Alike overmarkedPage := Layout.alike_iff.2 (by cbv)
  have hafresh := generate_afresh halike { debug := true }
  have hback := generate_afresh (Layout.alike_iff.2 (Layout.alike_iff.1 halike).symm)
    { debug := true }
  have hround : generate roundPage { debug := true } = (roundMarked, .ok roundCode) := by cbv
  have hcount : roundPage.startCount = 1 := by decide
  refine ⟨by cbv, halike, hafresh, by cbv, ?_⟩
  rw [hback.again, ← hround]
  exact Prod.ext (hafresh.marks hcount) hafresh.outcome

end StickerBot
