import StickerBot.Proofs.Accounting
set_option autoImplicit false

/-!
# What a good layout promises

A layout looks good if it has one Begin, every sticker was reached, and there are both Begin Repeats
and End Repeats or neither. Whether these come in an order in which each has a partner is another
matter, and the warnings are there for it: every repeat sticker of a good layout has one partner in
the program, or it is reported.

## Main definitions

* `Layout.PairsRepeat` — the end of a repeat has written the brace that closes the loop of a repeat.
* `Compilation.Promises` — what a good layout says about the stickers and the warnings.
* `LinksUnevenRow` — a measure of overlap links the page of the counterexample as its row lies.

## Main results

* `Layout.PairsRepeat.closing_unique`, `Layout.PairsRepeat.opening_unique` — partners come in pairs.
* `Layout.mem_opened_iff`, `Layout.mem_unmatchedEnds_iff` — what is reported are the repeat stickers
  without a partner.
* `compileBy_promises` — good layouts keep the promise.
* `hint_ok_unevenMarkers` — but they do not promise that every repeat has a partner.
-/

namespace StickerBot

/-! ### Places of a piece -/

section Places

variable {ps : List Piece} {place place' id : Nat}

/-- Every instruction is in the piece of a statement. -/
lemma exists_inPiece (h : place < (ps.flatMap Piece.code).length) :
    ∃ p ∈ ps, InPiece ps place p.statement := by
  induction ps generalizing place with
  | nil => exact absurd h (Nat.not_lt_zero _)
  | cons p ps ih =>
    rw [List.flatMap_cons, List.length_append] at h
    rcases Nat.lt_or_ge place p.code.length with hlt | hge
    · exact ⟨p, List.mem_cons_self, [], p.code, ps, rfl, Nat.zero_le _, by simpa using hlt⟩
    · have hrest : place - p.code.length < (ps.flatMap Piece.code).length := by omega
      obtain ⟨q, hq, before, code, after, rfl, hle, hlt⟩ := ih hrest
      refine ⟨q, List.mem_cons_of_mem _ hq, p :: before, code, after, rfl, ?_, ?_⟩
      · rw [List.flatMap_cons, List.length_append]
        omega
      · rw [List.flatMap_cons, List.length_append]
        omega

/-- An instruction of a piece, by its place there. -/
lemma InPiece.exists_offset (h : InPiece ps place id) :
    ∃ (before : List Piece) (p : Piece) (after : List Piece), ps = before ++ p :: after ∧
      p.statement = id ∧ ∃ offset, place = (before.flatMap Piece.code).length + offset ∧
        (ps.flatMap Piece.code)[place]? = p.code[offset]? := by
  obtain ⟨before, code, after, rfl, hle, hlt⟩ := h
  have hoffset : place - (before.flatMap Piece.code).length < code.length := by omega
  refine ⟨before, ⟨id, code⟩, after, rfl, rfl, place - (before.flatMap Piece.code).length,
    by omega, ?_⟩
  rw [List.flatMap_append, List.flatMap_cons, List.getElem?_append_right hle,
    List.getElem?_append_left hoffset]

/-- Whoever has a place in the pieces has a piece. -/
lemma InPiece.exists_mem (h : InPiece ps place id) : ∃ p ∈ ps, p.statement = id := by
  obtain ⟨before, code, after, rfl, -⟩ := h
  exact ⟨⟨id, code⟩, List.mem_append_right _ List.mem_cons_self, rfl⟩

/-- What the pieces of a statement have once is in one place.

**Proof sketch.** No statement has two pieces, so that both places are in the same piece, at two
offsets. The piece has the instruction at most once, so that the offsets are the same. -/
lemma InPiece.place_unique (hnodup : (ps.map Piece.statement).Nodup) (h : InPiece ps place id)
    (h' : InPiece ps place' id) {q : Instruction → Bool}
    (hone : ∀ p ∈ ps, p.statement = id → p.code.countP q ≤ 1) {i i' : Instruction}
    (hi : (ps.flatMap Piece.code)[place]? = some i) (hq : q i = true)
    (hi' : (ps.flatMap Piece.code)[place']? = some i') (hq' : q i' = true) : place = place' := by
  obtain ⟨before, p, after, hsplit, hp, offset, hplace, hoffset⟩ := h.exists_offset
  obtain ⟨before', p', after', hsplit', hp', offset', hplace', hoffset'⟩ := h'.exists_offset
  have hat : ∀ {front : List Piece} {p : Piece} {back : List Piece}, ps = front ++ p :: back →
      p.statement = id → (ps.map Piece.statement)[front.length]? = some id := by
    rintro front p back rfl rfl
    simp
  have hlength : before.length = before'.length :=
    (List.getElem?_inj (List.getElem?_eq_some_iff.1 (hat hsplit hp)).1 hnodup).1
      ((hat hsplit hp).trans (hat hsplit' hp').symm)
  obtain ⟨rfl, hrest⟩ := List.append_inj (hsplit.symm.trans hsplit') hlength
  obtain ⟨rfl, -⟩ := List.cons.inj hrest
  have hmem : p ∈ ps := by
    rw [hsplit]
    exact List.mem_append_right _ List.mem_cons_self
  have hsame := eq_of_countP_le_one (hone p hmem hp) (hoffset.symm.trans hi) hq
    (hoffset'.symm.trans hi') hq'
  rw [hplace, hplace', hsame]

end Places

/-! ### Pairs of repeats -/

namespace Layout

variable {l : Layout} {debug : Bool} {opening closing : Nat}

/-- **Paired repeats.** The first statement is a repeat, and the second has written the brace that
closes its loop. -/
def PairsRepeat (l : Layout) (ps : List Piece) (opening closing : Nat) : Prop :=
  ∃ header place, l.HeadsRepeat ps header opening ∧ InPiece ps place closing ∧
    Closes (ps.flatMap Piece.code) place header

/-- Whoever has a partner that begins closes a repeat. -/
lemma closesRepeat_iff_exists {ps : List Piece} :
    l.ClosesRepeat ps closing ↔ ∃ opening, l.PairsRepeat ps opening closing := by
  constructor
  · rintro ⟨place, header, opening, hplace, hcloses, hheads⟩
    exact ⟨opening, header, place, hheads, hplace, hcloses⟩
  · rintro ⟨opening, header, place, hheads, hplace, hcloses⟩
    exact ⟨place, header, opening, hplace, hcloses, hheads⟩

/-- A repeat has one loop. -/
lemma countP_isLoop_code (hkind : (l.get? opening).map Statement.kind = some .loopBegin)
    (pen : Pen) : (l.code debug pen opening).countP Instruction.isLoop = 1 := by
  obtain ⟨s, hs, hk⟩ := Option.map_eq_some_iff.1 hkind
  have hrepeat : ∀ (v : ParameterValue) (counter : String),
      (repeatCode v counter).countP Instruction.isLoop = 1 := fun v counter => by
    cases v <;> rfl
  simp only [code, step?, hs, hk, Option.bind_some, Brace.isRemarked, Brace.code, Bool.and_true,
    List.countP_append, hrepeat]
  cases debug <;> rfl

/-- The end of a repeat has one brace at most. -/
lemma length_code_le_one (hkind : (l.get? closing).map Statement.kind = some .loopEnd)
    (pen : Pen) : (l.code debug pen closing).length ≤ 1 := by
  rw [code_of_loopEnd hkind]
  split <;> simp

/-- An end of a repeat that has a partner is one. -/
lemma PairsRepeat.kind_closing (h : l.PairsRepeat (l.written debug) opening closing) :
    (l.get? closing).map Statement.kind = some .loopEnd := by
  have hcloses := closesRepeat_iff_exists.2 ⟨opening, h⟩
  obtain ⟨header, place, -, hplace, -⟩ := h
  obtain ⟨p, hp, rfl⟩ := hplace.exists_mem
  exact ((closesRepeat_iff hp).1 hcloses).1

/-- A repeat has one header. -/
lemma HeadsRepeat.header_unique {header header' : Nat}
    (h : l.HeadsRepeat (l.written debug) header opening)
    (h' : l.HeadsRepeat (l.written debug) header' opening) {c c' : Condition}
    (hc : ((l.written debug).flatMap Piece.code)[header]? = some (.loop c))
    (hc' : ((l.written debug).flatMap Piece.code)[header']? = some (.loop c')) :
    header = header' := by
  refine h.1.place_unique (l.nodup_written debug) h'.1 (fun p hp hstatement => ?_) hc
    (q := Instruction.isLoop) rfl hc' rfl
  obtain ⟨-, pen, hcode⟩ := mem_written hp
  rw [hcode, hstatement, countP_isLoop_code h.2]

/-- A repeat of the chain has a header. The piece of a start of a repeat has exactly one loop
header, whatever its limit is, and the place of this header in the code is found by what was written
before the piece. -/
lemma exists_header (debug : Bool) (hchain : opening ∈ l.chain [] l.start?.toList)
    (hkind : (l.get? opening).map Statement.kind = some .loopBegin) :
    ∃ header c, l.HeadsRepeat (l.written debug) header opening ∧
      ((l.written debug).flatMap Piece.code)[header]? = some (.loop c) := by
  obtain ⟨p, hp, rfl⟩ := exists_mem_written hchain debug
  obtain ⟨-, pen, hcode⟩ := mem_written hp
  have hpos : 0 < p.code.countP Instruction.isLoop := by
    rw [hcode, countP_isLoop_code hkind]
    exact Nat.one_pos
  obtain ⟨i, hi, hloop⟩ := List.countP_pos_iff.1 hpos
  obtain ⟨offset, hoffset⟩ := List.mem_iff_getElem?.1 hi
  obtain ⟨c, rfl⟩ : ∃ c, i = .loop c := by
    cases i with
    | loop c => exact ⟨c, rfl⟩
    | _ => exact absurd hloop (by simp [Instruction.isLoop])
  obtain ⟨before, after, hsplit⟩ := List.append_of_mem hp
  have hlt := (List.getElem?_eq_some_iff.1 hoffset).1
  refine ⟨(before.flatMap Piece.code).length + offset, c,
    ⟨⟨before, p.code, after, hsplit, Nat.le_add_right _ _, by omega⟩, hkind⟩, ?_⟩
  rw [hsplit, List.flatMap_append, List.flatMap_cons,
    List.getElem?_append_right (Nat.le_add_right _ _), Nat.add_sub_cancel_left,
    List.getElem?_append_left hlt, hoffset]

/-- **One end.** A repeat has one partner at most. -/
theorem PairsRepeat.closing_unique {closing' : Nat}
    (h : l.PairsRepeat (l.written debug) opening closing)
    (h' : l.PairsRepeat (l.written debug) opening closing') : closing = closing' := by
  obtain ⟨header, place, hheads, hplace, hcloses⟩ := h
  obtain ⟨header', place', hheads', hplace', hcloses'⟩ := h'
  obtain ⟨-, c, hc⟩ := hcloses.header_spec
  obtain ⟨-, c', hc'⟩ := hcloses'.header_spec
  obtain rfl := hheads.header_unique hheads' hc hc'
  obtain rfl := hcloses.closing_unique hcloses'
  exact hplace.unique hplace'

/-- **One beginning.** The end of a repeat has one partner at most. -/
theorem PairsRepeat.opening_unique {opening' : Nat}
    (h : l.PairsRepeat (l.written debug) opening closing)
    (h' : l.PairsRepeat (l.written debug) opening' closing) : opening = opening' := by
  have hkind := h.kind_closing
  obtain ⟨header, place, ⟨hheader, -⟩, hplace, hcloses⟩ := h
  obtain ⟨header', place', ⟨hheader', -⟩, hplace', hcloses'⟩ := h'
  obtain rfl := hplace.place_unique (q := fun _ => true) (l.nodup_written debug) hplace'
    (fun p hp hstatement => by
      obtain ⟨-, pen, hcode⟩ := mem_written hp
      rw [hcode, hstatement]
      exact List.countP_le_length.trans (length_code_le_one hkind pen)) hcloses.1 rfl hcloses'.1 rfl
  obtain rfl := hcloses.header_unique hcloses'
  exact hheader.unique hheader'

/-- Of partners there is one if there is any. -/
lemma existsUnique_closing_iff : (∃! closing, l.PairsRepeat (l.written debug) opening closing) ↔
    ∃ closing, l.PairsRepeat (l.written debug) opening closing :=
  ⟨ExistsUnique.exists, fun ⟨closing, h⟩ => ⟨closing, h, fun _ h' => h'.closing_unique h⟩⟩

/-- An end of a repeat is paired with one start at most, because pairs are matched like brackets; so
there is exactly one start as soon as there is any. -/
lemma existsUnique_opening_iff : (∃! opening, l.PairsRepeat (l.written debug) opening closing) ↔
    ∃ opening, l.PairsRepeat (l.written debug) opening closing :=
  ⟨ExistsUnique.exists, fun ⟨opening, h⟩ => ⟨opening, h, fun _ h' => h'.opening_unique h⟩⟩

/-- **Open repeats** are those without a partner.

**Proof sketch.** The headers that are open at the end are those of the repeats that are open. A
header that is not open there is closed by a brace, which is in the piece of a statement. -/
theorem mem_opened_iff : opening ∈ (l.lastPen debug).opened ↔
    opening ∈ l.chain [] l.start?.toList ∧
      (l.get? opening).map Statement.kind = some .loopBegin ∧
      ¬ ∃ closing, l.PairsRepeat (l.written debug) opening closing := by
  have hopened := (l.soundPieces_written debug).opened
  constructor
  · intro hmem
    obtain ⟨header, hheader, hheads⟩ : ∃ header ∈ unclosed _,
        l.HeadsRepeat (l.written debug) header opening := exists_of_mem_forall₂ hopened.flip hmem
    obtain ⟨⟨c, hc⟩, hnot⟩ := mem_unclosed_iff.1 hheader
    obtain ⟨p, hp, rfl⟩ := hheads.1.exists_mem
    refine ⟨(mem_written hp).1, hheads.2, ?_⟩
    rintro ⟨closing, header', place, hheads', -, hcloses⟩
    obtain ⟨-, c', hc'⟩ := hcloses.header_spec
    obtain rfl := hheads.header_unique hheads' hc hc'
    exact hnot place hcloses
  · rintro ⟨hchain, hkind, hnone⟩
    obtain ⟨header, c, hheads, hc⟩ := exists_header debug hchain hkind
    have hheader : header ∈ unclosed ((l.written debug).flatMap Piece.code) := by
      refine mem_unclosed_iff.2 ⟨⟨c, hc⟩, fun place hcloses => hnone ?_⟩
      obtain ⟨p, -, hplace⟩ := exists_inPiece (List.getElem?_eq_some_iff.1 hcloses.1).1
      exact ⟨p.statement, header, place, hheads, hplace, hcloses⟩
    obtain ⟨other, hother, hheads'⟩ := exists_of_mem_forall₂ hopened hheader
    rwa [hheads.1.unique hheads'.1]

/-- **Unmatched ends** are those without a partner. -/
theorem mem_unmatchedEnds_iff : closing ∈ l.unmatchedEnds debug ↔
    closing ∈ l.chain [] l.start?.toList ∧
      (l.get? closing).map Statement.kind = some .loopEnd ∧
      ¬ ∃ opening, l.PairsRepeat (l.written debug) opening closing := by
  rw [mem_unmatchedEnds, ← closesRepeat_iff_exists]
  constructor
  · rintro ⟨p, hp, rfl, hkind, hcode⟩
    exact ⟨(mem_written hp).1, hkind, fun h => ((closesRepeat_iff hp).1 h).2 hcode⟩
  · rintro ⟨hchain, hkind, hnone⟩
    obtain ⟨p, hp, rfl⟩ := exists_mem_written hchain debug
    refine ⟨p, hp, rfl, hkind, ?_⟩
    by_contra hcode
    exact hnone ((closesRepeat_iff hp).2 ⟨hkind, hcode⟩)

end Layout

/-! ### Good layouts -/

/-- **Good layouts** have one start, repeats that begin and repeats that end or neither, and no
statement that was not reached. -/
theorem LayoutReport.hintFor_eq_ok_iff (l : Layout) : hintFor l = .ok ↔
    l.startCount = 1 ∧ l.containsKind .loopBegin = l.containsKind .loopEnd ∧
      ∀ s ∈ l.statements, s.isCompiled = true := by
  have hnames : misplacedNames l = [] ↔ ∀ s ∈ l.statements, s.isCompiled = true := by
    simp [misplacedNames]
  rw [← hnames, hintFor, Layout.hasStart]
  by_cases hstart : l.startCount = 1
  · cases l.containsKind .loopBegin <;> cases l.containsKind .loopEnd <;>
      cases misplacedNames l <;> simp [hstart]
  · simp [hstart]

/-- **Promises of a good layout**, whose statements are connected as in another one. -/
structure Compilation.Promises (c : Compilation) (l : Layout) (debug : Bool) : Prop where
  /-- The program is that of the page. -/
  code : c.program.instructions = (l.written debug).flatMap Piece.code
  /-- Every sticker is part of the program. -/
  compiled : ∀ s ∈ c.layout.statements, s.isCompiled = true
  /-- There are repeats that begin and repeats that end, or neither. -/
  both : c.layout.containsKind .loopBegin = c.layout.containsKind .loopEnd
  /-- A repeat has one end, or it is reported. -/
  repeats : ∀ id, (c.layout.get? id).map Statement.kind = some .loopBegin →
    ((∃! closing, l.PairsRepeat (l.written debug) id closing) ↔
      some id ∉ (c.diagnostics.withCode .unclosedLoop).map Diagnostic.statement)
  /-- The end of a repeat has one beginning, or it is reported. -/
  ends : ∀ id, (c.layout.get? id).map Statement.kind = some .loopEnd →
    ((∃! opening, l.PairsRepeat (l.written debug) opening id) ↔
      some id ∉ (c.diagnostics.withCode .unmatchedLoopEnd).map Diagnostic.statement)
  /-- Neither is reported if and only if every repeat sticker has its partner. -/
  paired : c.diagnostics.withCode .unmatchedLoopEnd = [] ∧
      c.diagnostics.withCode .unclosedLoop = [] ↔
    (∀ id, (c.layout.get? id).map Statement.kind = some .loopBegin →
      ∃! closing, l.PairsRepeat (l.written debug) id closing) ∧
    ∀ id, (c.layout.get? id).map Statement.kind = some .loopEnd →
      ∃! opening, l.PairsRepeat (l.written debug) opening id

section Promises

variable {δ : Type} {distances : δ → δ → Ordering} {overlap : Zone → Zone → Option δ}
  {catalog : Catalog} {options : GenerateOptions} {ms : List Marker} {c : Compilation}

/-- What is generated from the connected page is a compilation. -/
lemma compileBy_of_generate {l : Layout} {g : Generated}
    (h : generate ((Layout.ofMarkers catalog ms).1.connectBy distances overlap).1 options =
      (l, .ok g)) :
    compileBy distances overlap catalog options ms =
      .ok ⟨g.program, l, (Layout.ofMarkers catalog ms).2.extend g.diagnostics, .ofLayout l⟩ := by
  unfold compileBy
  dsimp only
  rw [h]

/-- The report of a compilation is about its page. -/
lemma report_of_compileBy (h : compileBy distances overlap catalog options ms = .ok c) :
    c.report = .ofLayout c.layout := by
  obtain ⟨g, hg, -⟩ := exists_generate_of_compileBy h
  exact congrArg Compilation.report (Except.ok.inj (h.symm.trans (compileBy_of_generate hg)))

/-- Which statements are reported as open repeats. -/
lemma Layout.Reported.mem_unclosed_iff {l : Layout} {debug : Bool} {unknown : List Diagnostic}
    {log : DiagnosticLog} (h : l.Reported debug unknown log) {x : Option Nat} :
    x ∈ (log.withCode .unclosedLoop).map Diagnostic.statement ↔
      ∃ id ∈ (l.lastPen debug).opened, some id = x := by
  rw [(h.repeats_perm.map Diagnostic.statement).mem_iff, List.map_map, List.mem_map]
  exact Iff.rfl

/-- Which statements are reported as unmatched ends. -/
lemma Layout.Reported.mem_unmatched_iff {l : Layout} {debug : Bool} {unknown : List Diagnostic}
    {log : DiagnosticLog} (h : l.Reported debug unknown log) {x : Option Nat} :
    x ∈ (log.withCode .unmatchedLoopEnd).map Diagnostic.statement ↔
      ∃ id ∈ l.unmatchedEnds debug, some id = x := by
  rw [h.ends_perm.mem_iff, List.mem_map]

/-- Nothing is reported if each of the statements concerned is in order, when it is in order unless
it is reported. -/
lemma eq_nil_iff_of_reported {ds : List Diagnostic} {Concerned Ordered : Nat → Prop}
    (hall : ∀ x ∈ ds.map Diagnostic.statement, ∃ id, Concerned id ∧ some id = x)
    (hone : ∀ id, Concerned id → (Ordered id ↔ some id ∉ ds.map Diagnostic.statement)) :
    ds = [] ↔ ∀ id, Concerned id → Ordered id := by
  constructor
  · rintro rfl id hid
    exact (hone id hid).2 (by simp)
  · intro hordered
    have hnone : ds.map Diagnostic.statement = [] :=
      List.eq_nil_iff_forall_not_mem.2 fun x hx => by
        obtain ⟨id, hid, rfl⟩ := hall x hx
        exact (hone id hid).1 (hordered id hid) hx
    exact List.map_eq_nil_iff.1 hnone

/-- **Good layouts keep their promise.** If a layout looks good then every sticker is part of the
program, and a repeat sticker has one partner in the program unless it is reported. So all repeat
stickers have partners if none is reported.

**Proof sketch.** A layout looks good only if everything was reached, so every repeat sticker has
written a piece. What is open at the end, and what had nothing to close, are those without a
partner. -/
theorem compileBy_promises (h : compileBy distances overlap catalog options ms = .ok c)
    (hok : c.report.hint = .ok) :
    c.Promises ((Layout.ofMarkers catalog ms).1.connectBy distances overlap).1 options.debug := by
  obtain ⟨g, hg, hprogram, -⟩ := exists_generate_of_compileBy h
  have hreported := reported_of_compileBy h
  rw [report_of_compileBy h, LayoutReport.ofLayout, LayoutReport.hintFor_eq_ok_iff] at hok
  obtain ⟨-, hboth, hcompiled⟩ := hok
  generalize ((Layout.ofMarkers catalog ms).1.connectBy distances overlap).1 = l at *
  obtain ⟨context, rfl, hwalked⟩ := exists_walked hg
  have hkind := fun id => hwalked.marks.map_get? Statement.kind (fun _ => rfl) id
  -- every statement of the flow was reached
  have hchain : ∀ {id kind}, (c.layout.get? id).map Statement.kind = some kind →
      kind.isParameter = false → id ∈ l.chain [] l.start?.toList := by
    intro id kind hid hp
    obtain ⟨s, hs, rfl⟩ := Option.map_eq_some_iff.1 hid
    exact (hwalked.marks.compiled id s hs hp).1 (hcompiled s (List.mem_of_getElem? hs))
  have hrepeats : ∀ id, (c.layout.get? id).map Statement.kind = some .loopBegin →
      ((∃! closing, l.PairsRepeat (l.written options.debug) id closing) ↔
        some id ∉ (c.diagnostics.withCode .unclosedLoop).map Diagnostic.statement) := by
    intro id hid
    simp only [hreported.mem_unclosed_iff, Option.some.injEq, exists_eq_right]
    rw [Layout.mem_opened_iff, Layout.existsUnique_closing_iff]
    simp [hchain hid rfl, ← hkind, hid]
  have hends : ∀ id, (c.layout.get? id).map Statement.kind = some .loopEnd →
      ((∃! opening, l.PairsRepeat (l.written options.debug) opening id) ↔
        some id ∉ (c.diagnostics.withCode .unmatchedLoopEnd).map Diagnostic.statement) := by
    intro id hid
    simp only [hreported.mem_unmatched_iff, Option.some.injEq, exists_eq_right]
    rw [Layout.mem_unmatchedEnds_iff, Layout.existsUnique_opening_iff]
    simp [hchain hid rfl, ← hkind, hid]
  refine ⟨by rw [hprogram]; exact hwalked.code, hcompiled, hboth, hrepeats, hends, ?_⟩
  -- what is reported is a repeat sticker
  rw [and_comm]
  refine and_congr (eq_nil_iff_of_reported (fun x hx => ?_) hrepeats)
    (eq_nil_iff_of_reported (fun x hx => ?_) hends)
  · obtain ⟨id, hid, rfl⟩ := hreported.mem_unclosed_iff.1 hx
    exact ⟨id, (hkind id).trans (Layout.mem_opened_iff.1 hid).2.1, rfl⟩
  · obtain ⟨id, hid, rfl⟩ := hreported.mem_unmatched_iff.1 hx
    exact ⟨id, (hkind id).trans (Layout.mem_unmatchedEnds_iff.1 hid).2.1, rfl⟩

end Promises

/-- A row of stickers with two repeats: one has an end, the other comes last; and a further end of
a repeat comes first. -/
def unevenMarkers : List Marker :=
  [⟨31, ⟨0, 0⟩, 0, 20⟩, ⟨117, ⟨40, 0⟩, 0, 20⟩, ⟨115, ⟨80, 0⟩, 0, 20⟩, ⟨47, ⟨120, 0⟩, 0, 20⟩,
    ⟨155, ⟨80, 40⟩, 0, 20⟩, ⟨117, ⟨160, 0⟩, 0, 20⟩, ⟨115, ⟨200, 0⟩, 0, 20⟩]

/-- Their page, linked as the row lies: each sticker to the next one in the row, and the first
repeat to its number below it; wherever the markers and the zones are. -/
def unevenPage (zone : Nat → Nat → Zone) (marker : Nat → Marker) : Layout :=
  ⟨[⟨.start, "Begin", marker 0, [⟨"next", .outgoing, zone 0 0, some 1⟩], false, false⟩,
    ⟨.loopEnd, "End Repeat", marker 1,
      [⟨"prev", .incoming, zone 1 0, some 0⟩, ⟨"next", .outgoing, zone 1 1, some 2⟩], false, false⟩,
    ⟨.loopBegin, "Begin Repeat", marker 2,
      [⟨"prev", .incoming, zone 2 0, some 1⟩, ⟨"next", .outgoing, zone 2 1, some 3⟩,
        ⟨"param", .parameter, zone 2 2, some 4⟩], false, false⟩,
    ⟨.action .walk, "Walk", marker 3,
      [⟨"prev", .incoming, zone 3 0, some 2⟩, ⟨"next", .outgoing, zone 3 1, some 5⟩], false, false⟩,
    ⟨.parameter (.count 3), "3", marker 4, [⟨"value", .incoming, zone 4 0, some 2⟩], false, false⟩,
    ⟨.loopEnd, "End Repeat", marker 5,
      [⟨"prev", .incoming, zone 5 0, some 3⟩, ⟨"next", .outgoing, zone 5 1, some 6⟩], false, false⟩,
    ⟨.loopBegin, "Begin Repeat", marker 6,
      [⟨"prev", .incoming, zone 6 0, some 5⟩, ⟨"next", .outgoing, zone 6 1, none⟩,
        ⟨"param", .parameter, zone 6 2, none⟩], false, false⟩]⟩

/-- **Linking the row.** A measure of overlap and of distances links the connectors of the page
as the row lies. The circles of the page do, and so does every other measure that gives the same
pairs. -/
def LinksUnevenRow {δ : Type} (distances : δ → δ → Ordering) (overlap : Zone → Zone → Option δ) :
    Prop :=
  ∃ zone marker, ((Layout.ofMarkers .standard unevenMarkers).1.connectBy distances overlap).1 =
    unevenPage zone marker

/-- What is written for the page. -/
def unevenCode : Generated where
  program := ⟨repeatCode (.count 3) "a" ++ [.native .walk [], .close] ++ repeatCode .forever "a",
    .empty⟩
  diagnostics := .ofList [unmatchedLoopEnd 1 "End Repeat", danglingBranch 6 "Begin Repeat",
    unclosedLoop ⟨6, some "a"⟩]

/-- Where every plug overlaps every socket, all at one distance, the pairs are joined in the order
of their statements, and that is as the row lies. -/
lemma linksUnevenRow_of_overlap :
    LinksUnevenRow (fun _ _ => .eq) (fun _ _ => some ()) := by
  have hpage : ∃ zone marker,
      (Layout.ofMarkers .standard unevenMarkers).1 = (unevenPage zone marker).clearTargets :=
    ⟨fun id place => (((Layout.ofMarkers .standard unevenMarkers).1.get? id).bind fun s =>
        s.connectors[place]?).elim default Connector.zone,
      fun id => ((Layout.ofMarkers .standard unevenMarkers).1.get? id).elim default
        Statement.marker, rfl⟩
  have hlinks : ∀ zone marker, ((unevenPage zone marker).clearTargets.connectBy (fun _ _ => .eq)
      (fun _ _ => some ())).1 = unevenPage zone marker := fun zone marker => by cbv
  obtain ⟨zone, marker, hpage⟩ := hpage
  exact ⟨zone, marker, hpage ▸ hlinks zone marker⟩

/-- The page looks good, and yet the program holds repeat stickers without a partner. What is
written depends on the links alone, so it is the same for every measure that links the row. -/
lemma exists_compileBy_unevenMarkers {δ : Type} {distances : δ → δ → Ordering}
    {overlap : Zone → Zone → Option δ} (h : LinksUnevenRow distances overlap) :
    ∃ c, compileBy distances overlap .standard {} unevenMarkers = .ok c ∧
      c.report.hint = .ok ∧ c.program = unevenCode.program ∧ c.diagnostics =
        (Layout.ofMarkers .standard unevenMarkers).2.extend unevenCode.diagnostics := by
  have hcode : ∀ zone marker, (generate (unevenPage zone marker) {}).2 = .ok unevenCode :=
    fun zone marker => by cbv
  have hhint : ∀ zone marker,
      LayoutReport.hintFor (generate (unevenPage zone marker) {}).1 = .ok :=
    fun zone marker => by cbv
  obtain ⟨zone, marker, hpage⟩ := h
  have hgenerate : generate ((Layout.ofMarkers .standard unevenMarkers).1.connectBy
      distances overlap).1 {} = (_, .ok unevenCode) :=
    Prod.ext rfl (hpage ▸ hcode zone marker)
  exact ⟨_, compileBy_of_generate hgenerate, hpage ▸ hhint zone marker, rfl, rfl⟩

/-- **A good layout does not promise** that every repeat sticker has a partner: a page may look good
although the end of a repeat comes before any repeat, and a repeat after all ends. This is so
however overlap is measured, if only the row is linked as it lies. -/
theorem hint_ok_unevenMarkers :
    LinksUnevenRow (fun _ _ => .eq) (fun _ _ => some ()) ∧
      ∀ {δ : Type} (distances : δ → δ → Ordering) (overlap : Zone → Zone → Option δ),
        LinksUnevenRow distances overlap →
          ∃ c, compileBy distances overlap .standard {} unevenMarkers = .ok c ∧
            c.report.hint = .ok ∧
            c.diagnostics.withCode .unmatchedLoopEnd = [unmatchedLoopEnd 1 "End Repeat"] ∧
            c.diagnostics.withCode .unclosedLoop = [unclosedLoop ⟨6, some "a"⟩] := by
  refine ⟨linksUnevenRow_of_overlap, fun distances overlap hlinks => ?_⟩
  obtain ⟨c, hc, hhint, -, hlog⟩ := exists_compileBy_unevenMarkers hlinks
  refine ⟨c, hc, hhint, ?_, ?_⟩
  · rw [hlog]
    decide
  · rw [hlog]
    decide

/-- The page keeps its promise. -/
theorem compileBy_promises_unevenMarkers :
    ∃ c, compileBy (fun _ _ => .eq) (fun _ _ => some ()) .standard {} unevenMarkers = .ok c ∧
      c.report.hint = .ok ∧
      c.Promises ((Layout.ofMarkers .standard unevenMarkers).1.connectBy (fun _ _ => .eq)
        (fun _ _ => some ())).1 false := by
  obtain ⟨c, hc, hhint, -⟩ := exists_compileBy_unevenMarkers linksUnevenRow_of_overlap
  exact ⟨c, hc, hhint, compileBy_promises hc hhint⟩

end StickerBot
