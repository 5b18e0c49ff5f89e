import StickerBot.Proofs.Coverage
import StickerBot.Proofs.Leaves
import StickerBot.Proofs.SafeCode
import StickerBot.Proofs.Warnings
set_option autoImplicit false

/-!
# Warnings account for the program

What a page is warned about and what its program is like are found in different places: marks and
loose ends during the walk, open repeats at its end, braces by counting. They agree. A warning about
a loose end, an open repeat or a program that never acts stands for what it says, one for one; and
the end of a repeat is either reported or has written the brace that closes a repeat.

## Main definitions

* `Layout.ClosesRepeat` — a statement has written the brace that closes the loop of a repeat.
* `Layout.Reported` — a log holds the warnings about a page.
* `Compilation.Accounted` — the warnings of a compilation account for its program.

## Main results

* `Layout.closesRepeat_iff` — what closes a repeat is an end of a repeat that has written something.
* `Layout.Covered.sum_looseEnds` — loose ends of marked statements are those along the chain.
* `compileBy_accounted` — compilations are accounted for.
-/

namespace StickerBot

/-! ### Places and pieces -/

/-- A place is in the piece of one statement.

**Proof sketch.** The pieces follow one another in the code. If one of the two came first, the place
would have to be before the end of the one and not before the end of the other. -/
lemma InPiece.unique {ps : List Piece} {place id id' : Nat} (h : InPiece ps place id)
    (h' : InPiece ps place id') : id = id' := by
  -- of two pieces the instructions of the first come before those of the second
  have hfirst : ∀ {p q : Piece} {before mid after : List Piece},
      place < (before.flatMap Piece.code).length + p.code.length →
        ((before ++ p :: mid).flatMap Piece.code).length ≤ place →
          before ++ p :: mid ++ q :: after = ps → False := by
    intro p q before mid after hlt hle _
    rw [List.flatMap_append, List.flatMap_cons, List.length_append, List.length_append] at hle
    omega
  obtain ⟨before, code, after, hps, hle, hlt⟩ := h
  obtain ⟨before', code', after', hps', hle', hlt'⟩ := h'
  rcases List.append_eq_append_iff.1 (hps.symm.trans hps') with
    ⟨mid, rfl, hmid⟩ | ⟨mid, rfl, hmid⟩
  · cases mid with
    | nil => exact congrArg Piece.statement (List.cons.inj hmid).1
    | cons p mid =>
      obtain ⟨rfl, -⟩ := List.cons.inj hmid
      exact (hfirst hlt hle' hps'.symm).elim
  · cases mid with
    | nil => exact (congrArg Piece.statement (List.cons.inj hmid).1).symm
    | cons p mid =>
      obtain ⟨rfl, -⟩ := List.cons.inj hmid
      exact (hfirst hlt' hle hps.symm).elim

/-- If instructions leave open what was open, then a brace at their end closes a loop among them. -/
lemma Closes.le_header {is pre : List Instruction} {header : Nat}
    (hopened : unclosed (is ++ (pre ++ [Instruction.close])) = unclosed is)
    (h : Closes (is ++ (pre ++ [Instruction.close])) (is.length + pre.length) header) :
    is.length ≤ header := by
  refine Nat.le_of_not_lt fun hlt => ?_
  obtain ⟨-, c, hc⟩ := h.header_spec
  have hbehind : openAt (is ++ (pre ++ [Instruction.close])) header = unclosed is := by
    rw [← h.openAt_succ, ← hopened, unclosed]
    congr 1
    simp only [List.length_append, List.length_singleton]
    omega
  -- a header before them that is closed behind them is open where they begin
  have hmem : header ∈ openAt (is ++ (pre ++ [Instruction.close])) is.length := by
    refine mem_openAt_of_not_closes hc hlt fun closing hclosing hother => ?_
    have heq := h.closing_unique hother
    omega
  rw [openAt_append_left is _ (Nat.le_refl _), ← unclosed, ← hbehind] at hmem
  exact absurd (of_mem_openAt hmem).1 (Nat.lt_irrefl _)

/-- The program holds this statement, and not as a parameter. -/
def Statement.isWritten (s : Statement) : Bool := !s.kind.isParameter && s.isCompiled

namespace Layout

/-! ### Ends of repeats -/

variable {l : Layout} {debug : Bool}

/-- **Closing a repeat.** A statement has written a brace that closes the loop of a repeat. -/
def ClosesRepeat (l : Layout) (ps : List Piece) (id : Nat) : Prop :=
  ∃ place header other, InPiece ps place id ∧ Closes (ps.flatMap Piece.code) place header ∧
    l.HeadsRepeat ps header other

/-- The end of a repeat writes a brace, if a repeat is open. -/
lemma code_of_loopEnd {id : Nat} (hkind : (l.get? id).map Statement.kind = some .loopEnd)
    (pen : Pen) : l.code debug pen id = if pen.opened.length = 0 then [] else [.close] := by
  obtain ⟨s, hs, hk⟩ := Option.map_eq_some_iff.1 hkind
  simp [code, step?, hs, hk, Brace.isRemarked, Brace.code]

/-- An instruction at the end of a list and nowhere before is at no other place. -/
lemma eq_length_of_getElem?_concat {pre : List Instruction} {i : Instruction} {place : Nat}
    (hnot : i ∉ pre) (h : (pre ++ [i])[place]? = some i) : place = pre.length := by
  rcases Nat.lt_trichotomy place pre.length with hlt | heq | hgt
  · rw [List.getElem?_append_left hlt] at h
    exact absurd (List.mem_of_getElem? h) hnot
  · exact heq
  · have hbound := (List.getElem?_eq_some_iff.1 h).1
    simp only [List.length_append, List.length_singleton] at hbound
    omega

/-- The code of a wait ends with its only closing brace. -/
lemma exists_waitCode_eq_concat (v : ParameterValue) (counter : String) :
    ∃ pre, waitCode v counter = pre ++ [.close] ∧ .close ∉ pre := by
  unfold waitCode
  split
  · exact ⟨[_, _, _, _], rfl, by simp [Instruction.native, Instruction.whileNotRaised]⟩
  · exact ⟨[_, _, _, _, _, _], rfl, by simp [Instruction.native, Instruction.whileBelow]⟩

/-- Where the code of a statement has a closing brace the statement is the end of a repeat, or it is
a wait, which ends with the brace and leaves open what was open. -/
lemma of_close_code {pen : Pen} {id offset : Nat}
    (h : (l.code debug pen id)[offset]? = some .close) :
    (l.get? id).map Statement.kind = some .loopEnd ∨
      (l.get? id).map Statement.kind = some .wait ∧
        ∃ pre : List Instruction, l.code debug pen id = pre ++ [.close] ∧ offset = pre.length ∧
          ∀ is, unclosed (is ++ l.code debug pen id) = unclosed is := by
  unfold code step? at h ⊢
  cases hs : l.get? id with
  | none => simp [hs] at h
  | some s =>
    rw [hs, Option.bind_some] at h
    rw [Option.bind_some, Option.map_some]
    -- remarks have no braces and leave open what is open
    have hremarked := fun is => (appends_remarks is debug pen.point s.name).opened
    have hquiet : .close ∉ (if debug then [.trace pen.point, .print s.name] else [] :
        List Instruction) := by cases debug <;> simp
    cases hk : s.kind with
    | loopEnd => exact .inl rfl
    | start | parameter v => simp [hk] at h
    | action a =>
      simp only [hk, Brace.isRemarked, Brace.code, Bool.and_true] at h
      refine absurd ((List.mem_append.1 (List.mem_of_getElem? h)).resolve_left hquiet) ?_
      simp [Instruction.native]
    | loopBegin =>
      simp only [hk, Brace.isRemarked, Brace.code, Bool.and_true] at h
      refine absurd ((List.mem_append.1 (List.mem_of_getElem? h)).resolve_left hquiet) ?_
      unfold repeatCode
      split <;> simp [Instruction.whileNotRaised, Instruction.whileBelow]
    | wait =>
      simp only [hk, Brace.isRemarked, Brace.code, Bool.and_true] at h ⊢
      generalize (if debug then [.trace pen.point, .print s.name] else [] :
        List Instruction) = remarks at h hremarked hquiet ⊢
      obtain ⟨pre, hpre, hnot⟩ := exists_waitCode_eq_concat (readParameter id l).1
        (Context.counterAt pen.opened.length)
      refine .inr ⟨trivial, remarks ++ pre, ?_, ?_, fun is => ?_⟩
      · rw [hpre, List.append_assoc]
      · rw [hpre, ← List.append_assoc] at h
        exact eq_length_of_getElem?_concat (by simp [hquiet, hnot]) h
      · have hwait := appends_waitCode (is ++ remarks) (readParameter id l).1
          (Context.counterAt pen.opened.length)
        rw [← List.append_assoc, hwait.opened, hremarked]

/-- A place in the piece of a statement of the page, and what was written before the piece. -/
lemma of_inPiece_written {p : Piece} (hp : p ∈ l.written debug) {place : Nat}
    (h : InPiece (l.written debug) place p.statement) :
    ∃ before after pen, l.written debug = before ++ p :: after ∧
      p.code = l.code debug pen p.statement ∧ (before.flatMap Piece.code).length ≤ place ∧
      place < (before.flatMap Piece.code).length + p.code.length := by
  obtain ⟨before, code, after, hsplit, hle, hlt⟩ := h
  have hmem : (⟨p.statement, code⟩ : Piece) ∈ l.written debug := by
    rw [hsplit]
    exact List.mem_append_right _ List.mem_cons_self
  obtain rfl : p.code = code :=
    congrArg Piece.code (List.inj_on_of_nodup_map (l.nodup_written debug) hp hmem rfl)
  obtain ⟨front, -, hcode⟩ := l.of_pieces_eq_append debug _ hsplit
  exact ⟨before, after, _, hsplit, hcode, hle, hlt⟩

/-- Only an end of a repeat closes one, by what it has written.

**Proof sketch.** The brace that stands at the place comes from a piece. Only the pieces of ends of
repeats and of waits write braces, and the brace of a wait closes the loop that the same wait has
opened, which is not the header of a repeat. -/
lemma ClosesRepeat.loopEnd {p : Piece} (hp : p ∈ l.written debug)
    (h : l.ClosesRepeat (l.written debug) p.statement) :
    (l.get? p.statement).map Statement.kind = some .loopEnd ∧ p.code ≠ [] := by
  obtain ⟨place, header, other, hplace, hcloses, hheads⟩ := h
  obtain ⟨before, after, pen, hsplit, hcode, hle, hlt⟩ := of_inPiece_written hp hplace
  have hall : (l.written debug).flatMap Piece.code =
      before.flatMap Piece.code ++ p.code ++ after.flatMap Piece.code := by
    rw [hsplit, List.flatMap_append, List.flatMap_cons, List.append_assoc]
  rw [hall, closes_append_left_iff _ _ (by rwa [List.length_append])] at hcloses
  have hclose := hcloses.1
  rw [List.getElem?_append_right hle] at hclose
  have hne : p.code ≠ [] := fun hnil => by simp [hnil] at hclose
  rw [hcode] at hclose
  rcases of_close_code hclose with hkind | ⟨hkind, pre, hpre, hoffset, hopened⟩
  · exact ⟨hkind, hne⟩
  · -- the brace of a wait closes a loop in the same piece, and that is no repeat
    exfalso
    rw [← hcode] at hpre hopened
    obtain rfl : place = (before.flatMap Piece.code).length + pre.length := by omega
    have hopened := hopened (before.flatMap Piece.code)
    rw [hpre] at hcloses hopened
    have hheader := hcloses.header_spec.1
    have hown : InPiece (l.written debug) header p.statement :=
      ⟨before, p.code, after, hsplit, hcloses.le_header hopened, Nat.lt_trans hheader hlt⟩
    obtain rfl := hown.unique hheads.1
    exact absurd (hkind.symm.trans hheads.2) (by simp)

/-- An end of a repeat that has written something has closed the repeat that was open innermost.

**Proof sketch.** The pen knows the repeats that are open, and these are the open headers of the
code so far. Since the piece is not empty some repeat was open, and the brace that the piece writes
closes the innermost header. -/
lemma closesRepeat_of_loopEnd {p : Piece} (hp : p ∈ l.written debug)
    (hkind : (l.get? p.statement).map Statement.kind = some .loopEnd) (hne : p.code ≠ []) :
    l.ClosesRepeat (l.written debug) p.statement := by
  obtain ⟨before, after, hsplit⟩ := List.append_of_mem hp
  obtain ⟨front, rfl, hcode⟩ := l.of_pieces_eq_append debug _ hsplit
  have hopen := (l.soundPieces_start debug front).opened
  generalize front.foldl (l.penAfter debug) .start = pen at hcode hopen
  rw [code_of_loopEnd hkind] at hcode
  generalize hheaders : unclosed ((l.pieces debug .start front).flatMap Piece.code) = headers
    at hopen
  generalize pen.opened = opened at hcode hopen
  cases hopen with
  | nil => exact absurd hcode hne
  | @cons header first headers opened hfirst hrest =>
    have hclose : p.code = [.close] := hcode
    have hall : (l.written debug).flatMap Piece.code =
        (l.pieces debug .start front).flatMap Piece.code ++
          ([.close] ++ after.flatMap Piece.code) := by
      rw [hsplit, List.flatMap_append, List.flatMap_cons, hclose]
    refine ⟨_, header, first, ⟨_, p.code, after, hsplit, Nat.le_refl _, ?_⟩, ⟨?_, ?_⟩, ?_⟩
    · simp [hclose]
    · rw [hall, List.getElem?_append_right (Nat.le_refl _)]
      simp
    · rw [hall, openAt_append_left _ _ (Nat.le_refl _)]
      change (unclosed _).head? = _
      rw [hheaders, List.head?_cons]
    · rw [hsplit]
      exact ⟨hfirst.1.append _, hfirst.2⟩

/-- **What closes a repeat** is an end of a repeat that has written something.

**Proof sketch.** The end of a repeat writes a brace while a repeat is open, and the loop that is
open innermost is then that of a repeat. Waits too have braces, but these close loops of their
own. -/
theorem closesRepeat_iff {p : Piece} (hp : p ∈ l.written debug) :
    l.ClosesRepeat (l.written debug) p.statement ↔
      (l.get? p.statement).map Statement.kind = some .loopEnd ∧ p.code ≠ [] :=
  ⟨ClosesRepeat.loopEnd hp, fun ⟨hkind, hne⟩ => closesRepeat_of_loopEnd hp hkind hne⟩

/-! ### Loose ends -/

/-- How many outgoing connectors of the statement of a number lead nowhere. -/
def looseEndsAt (l : Layout) (id : Nat) : Nat := ((l.get? id).map Statement.looseEnds).getD 0

/-- One warning for each loose end. -/
lemma length_looseWarnings (l : Layout) (id : Nat) :
    (l.looseWarnings id).length = l.looseEndsAt id := by
  unfold looseWarnings looseEndsAt
  cases l.get? id with
  | none => rfl
  | some s => exact List.length_replicate

/-- Loose ends of statements in a row. -/
lemma sum_looseEndsAt (l : Layout) (ids : List Nat) :
    ((ids.filterMap l.get?).map Statement.looseEnds).sum = (ids.map l.looseEndsAt).sum := by
  induction ids with
  | nil => rfl
  | cons id ids ih =>
    cases hs : l.get? id with
    | none => simp [hs, looseEndsAt, ih]
    | some s => simp [hs, looseEndsAt, ih]

/-- Statements without loose ends do not count. So two ways to choose among statements count the
same, if the one takes all that the other takes, and besides these only some without loose ends. -/
lemma sum_filter_looseEnds (p q : Statement → Bool) (ss : List Statement)
    (hq : ∀ s ∈ ss, q s = true → p s = true)
    (hp : ∀ s ∈ ss, p s = true → q s = false → s.looseEnds = 0) :
    ((ss.filter p).map Statement.looseEnds).sum = ((ss.filter q).map Statement.looseEnds).sum := by
  induction ss with
  | nil => rfl
  | cons s ss ih =>
    have hrest := ih (fun s hs => hq s (.tail _ hs)) (fun s hs => hp s (.tail _ hs))
    have hqs := hq s (.head _)
    have hps := hp s (.head _)
    cases hqv : q s with
    | true => simp [hqv, hqs hqv, hrest]
    | false =>
      cases hpv : p s with
      | true => simp [hqv, hpv, hps hpv hqv, hrest]
      | false => simp [hqv, hpv, hrest]

section Covered

variable {l' : Layout} {start : Nat} {instructions : List Instruction}

/-- Generating does not change how many loose ends there are at a statement. -/
lemma Covered.looseEndsAt_eq (h : l.Covered start debug l' instructions) :
    l.looseEndsAt = l'.looseEndsAt := by
  funext id
  have hmap := congrArg (Option.map Statement.looseEnds) (get?_of_clearMarks_eq h.same id)
  rw [Option.map_map, Option.map_map] at hmap
  exact congrArg (·.getD 0) hmap.symm

/-- The statements along the chain are those that are written, each once. -/
lemma Covered.perm_written (h : l.Covered start debug l' instructions) :
    ((l.written debug).map Piece.statement).Perm
      ((List.range l'.size).filter fun id => (l'.get? id).any Statement.isWritten) := by
  refine (List.perm_ext_iff_of_nodup h.once (List.nodup_range.filter _)).2 fun id => ?_
  rw [h.all id, List.mem_filter, List.mem_range, Option.any_eq_true]
  constructor
  · rintro ⟨s, hs, hp, hcompiled⟩
    have hflow : s.isWritten = true := by simp [Statement.isWritten, hp, hcompiled]
    exact ⟨(List.getElem?_eq_some_iff.1 hs).1, s, hs, hflow⟩
  · rintro ⟨-, s, hs, hflow⟩
    obtain ⟨hp, hcompiled⟩ := Bool.and_eq_true_iff.1 hflow
    exact ⟨s, hs, by simpa using hp, hcompiled⟩

/-- **Loose ends** of the marked statements are those along the chain.

**Proof sketch.** Marked parameters have no loose ends, so only the statements of the flow count.
Their numbers are those of the pieces, in another order, and a walk does not change where connectors
lead. -/
theorem Covered.sum_looseEnds (h : l.Covered start debug l' instructions)
    (hleaf : l.LeafParameters) :
    ((l'.statements.filter Statement.isCompiled).map Statement.looseEnds).sum =
      (((l.written debug).map Piece.statement).map l.looseEndsAt).sum := by
  -- a parameter has no loose ends, marked or not
  have hparameters : ((l'.statements.filter Statement.isCompiled).map Statement.looseEnds).sum =
      ((l'.statements.filter Statement.isWritten).map Statement.looseEnds).sum := by
    refine sum_filter_looseEnds _ _ _ (fun s _ hs => (Bool.and_eq_true_iff.1 hs).2) ?_
    intro s hs hcompiled hflow
    have hp : s.kind.isParameter = true := by simpa [Statement.isWritten, hcompiled] using hflow
    obtain ⟨id, hid⟩ := List.mem_iff_getElem?.1 hs
    obtain ⟨s₀, hs₀, hclear⟩ := Option.map_eq_some_iff.1
      ((get?_of_clearMarks_eq h.same id).symm.trans (by rw [get?, hid, Option.map_some]))
    obtain ⟨hkind, houtgoing⟩ := Statement.of_clearMarks_eq hclear
    have hnone := hleaf.outgoing_eq_nil hs₀ (hkind ▸ hp)
    rw [Statement.looseEnds, ← houtgoing, hnone]
    rfl
  calc ((l'.statements.filter Statement.isCompiled).map Statement.looseEnds).sum
      = ((l'.statements.filter Statement.isWritten).map Statement.looseEnds).sum := hparameters
    _ = ((((List.range l'.size).filter fun id =>
          (l'.get? id).any Statement.isWritten).filterMap l'.get?).map
          Statement.looseEnds).sum := by rw [l'.filter_statements]
    _ = ((((l.written debug).map Piece.statement).filterMap l'.get?).map
          Statement.looseEnds).sum := ((h.perm_written.filterMap _).map _).sum_nat.symm
    _ = (((l.written debug).map Piece.statement).map l'.looseEndsAt).sum :=
        l'.sum_looseEndsAt _
    _ = (((l.written debug).map Piece.statement).map l.looseEndsAt).sum := by
        rw [h.looseEndsAt_eq]

end Covered

/-! ### Warnings of one code -/

/-- Of warnings that have one code, those of a code are all or none. -/
lemma filter_code_of_forall {ds : List Diagnostic} {own : Code} (h : ∀ d ∈ ds, d.code = own)
    (code : Code) : (ds.filter fun d => d.code = code) = if own = code then ds else [] := by
  split
  · rename_i heq
    exact List.filter_eq_self.2 fun d hd => decide_eq_true ((h d hd).trans heq)
  · rename_i hne
    refine List.filter_eq_nil_iff.2 fun d hd hcode => ?_
    exact hne ((h d hd).symm.trans (of_decide_eq_true hcode))

/-- What a warning about the end of a repeat says. -/
lemma of_endWarning? {p : Piece} {d : Diagnostic} (h : l.endWarning? p = some d) :
    ((l.get? p.statement).map Statement.kind = some .loopEnd ∧ p.code = []) ∧
      d.code = .unmatchedLoopEnd ∧ d.statement = some p.statement := by
  obtain ⟨s, hs, hd⟩ := Option.bind_eq_some_iff.1 h
  split at hd
  · rename_i hend
    obtain rfl := Option.some.inj hd
    exact ⟨⟨by rw [hs, Option.map_some, hend.1], hend.2⟩, rfl, rfl⟩
  · exact nomatch hd

/-- The end of a repeat is reported if it has written nothing. -/
lemma isSome_endWarning?_iff {p : Piece} : (l.endWarning? p).isSome = true ↔
    (l.get? p.statement).map Statement.kind = some .loopEnd ∧ p.code = [] := by
  constructor
  · intro h
    obtain ⟨d, hd⟩ := Option.isSome_iff_exists.1 h
    exact (of_endWarning? hd).1
  · rintro ⟨hkind, hcode⟩
    obtain ⟨s, hs, hk⟩ := Option.map_eq_some_iff.1 hkind
    simp [endWarning?, hs, hk, hcode]

/-- The warnings of one code about a page. Each of the four parts of the warnings has diagnostics of
one code, so a code keeps one part and drops the others. -/
lemma filter_warnings (l : Layout) (debug : Bool) (code : Code) :
    ((l.warnings debug).filter fun d => d.code = code) =
      ((l.written debug).flatMap fun p =>
        (if .unmatchedLoopEnd = code then (l.endWarning? p).toList else []) ++
          if .danglingBranch = code then l.looseWarnings p.statement else []) ++
      (if .unclosedLoop = code then
        (l.lastPen debug).opened.reverse.map fun id => unclosedLoop ⟨id, none⟩ else []) ++
      if .emptyProgram = code then
        if ((l.written debug).flatMap Piece.code).countP Instruction.isCall = 0 then [emptyProgram]
        else []
      else [] := by
  have hends : ∀ p, ∀ d ∈ (l.endWarning? p).toList, d.code = .unmatchedLoopEnd := fun p d hd =>
    (of_endWarning? (Option.mem_toList.1 hd)).2.1
  have hloose : ∀ id, ∀ d ∈ l.looseWarnings id, d.code = .danglingBranch := fun id d hd => by
    unfold looseWarnings at hd
    split at hd
    · rw [(List.mem_replicate.1 hd).2]
      rfl
    · exact absurd hd List.not_mem_nil
  have hopened : ∀ d ∈ (l.lastPen debug).opened.reverse.map fun id => unclosedLoop ⟨id, none⟩,
      d.code = .unclosedLoop := fun d hd => by
    obtain ⟨id, -, rfl⟩ := List.mem_map.1 hd
    rfl
  have hempty : ∀ d ∈ (if ((l.written debug).flatMap Piece.code).countP Instruction.isCall = 0 then
      [emptyProgram] else [] : List Diagnostic), d.code = .emptyProgram := fun d hd => by
    split at hd
    · rw [List.mem_singleton.1 hd]
      rfl
    · exact absurd hd List.not_mem_nil
  unfold warnings
  rw [List.filter_append, List.filter_append, List.filter_flatMap,
    filter_code_of_forall hopened code, filter_code_of_forall hempty code]
  congr 2
  refine List.flatMap_congr fun p _ => ?_
  rw [pieceWarnings, List.filter_append, filter_code_of_forall (hends p) code,
    filter_code_of_forall (hloose p.statement) code]

/-- The ends of repeats that are reported. -/
def unmatchedEnds (l : Layout) (debug : Bool) : List Nat :=
  ((l.written debug).filter fun p => (l.endWarning? p).isSome).map Piece.statement

/-- They are reported one by one. -/
lemma map_statement_endWarnings (l : Layout) (ps : List Piece) :
    (ps.flatMap fun p => (l.endWarning? p).toList).map Diagnostic.statement =
      ((ps.filter fun p => (l.endWarning? p).isSome).map Piece.statement).map some := by
  induction ps with
  | nil => rfl
  | cons p ps ih =>
    cases hp : l.endWarning? p with
    | none => simp [hp, ih]
    | some d => simp [hp, ih, (of_endWarning? hp).2.2]

/-- A statement is among the reported ends exactly if a piece of it was written that is an end of a
repeat and wrote no instruction: had it closed a loop, it would have written the end of it. -/
lemma mem_unmatchedEnds {id : Nat} : id ∈ l.unmatchedEnds debug ↔
    ∃ p ∈ l.written debug, p.statement = id ∧
      (l.get? id).map Statement.kind = some .loopEnd ∧ p.code = [] := by
  simp only [unmatchedEnds, List.mem_map, List.mem_filter, isSome_endWarning?_iff]
  constructor
  · rintro ⟨p, ⟨hp, hend⟩, rfl⟩
    exact ⟨p, hp, rfl, hend⟩
  · rintro ⟨p, hp, rfl, hend⟩
    exact ⟨p, ⟨hp, hend⟩, rfl⟩

/-- **Ends of repeats** that are marked are reported, or they have closed a repeat.

**Proof sketch.** A marked end of a repeat has a piece, since all of the flow that is marked has
one. Either the piece is empty, and this is what is reported, or it holds a brace, and this is what
closes a repeat. -/
theorem Covered.ends {l' : Layout} {start : Nat} {instructions : List Instruction}
    (h : l.Covered start debug l' instructions) :
    (∀ id, (∃ s, l'.get? id = some s ∧ s.isCompiled = true ∧ s.kind = .loopEnd) ↔
      id ∈ l.unmatchedEnds debug ∨ l.ClosesRepeat (l.written debug) id) ∧
    ∀ id ∈ l.unmatchedEnds debug, ¬ l.ClosesRepeat (l.written debug) id := by
  have hsame := get?_of_clearMarks_eq h.same
  have hkind : ∀ id, (l'.get? id).map Statement.kind = (l.get? id).map Statement.kind := by
    intro id
    have hmap := congrArg (Option.map Statement.kind) (hsame id)
    rwa [Option.map_map, Option.map_map] at hmap
  -- whoever has a piece and is an end of a repeat is a marked one
  have hmarked : ∀ p ∈ l.written debug, (l.get? p.statement).map Statement.kind = some .loopEnd →
      ∃ s, l'.get? p.statement = some s ∧ s.isCompiled = true ∧ s.kind = .loopEnd := by
    intro p hp hend
    obtain ⟨s, hs, -, hcompiled⟩ := (h.all p.statement).1 (List.mem_map_of_mem hp)
    refine ⟨s, hs, hcompiled, ?_⟩
    rwa [← hkind, hs, Option.map_some, Option.some.injEq] at hend
  have hpiece : ∀ id, l.ClosesRepeat (l.written debug) id →
      ∃ p ∈ l.written debug, p.statement = id := by
    rintro id ⟨-, -, -, ⟨before, code, after, hsplit, -⟩, -⟩
    exact ⟨⟨id, code⟩, by rw [hsplit]; exact List.mem_append_right _ List.mem_cons_self, rfl⟩
  refine ⟨fun id => ⟨?_, ?_⟩, ?_⟩
  · rintro ⟨s, hs, hcompiled, hend⟩
    obtain ⟨p, hp, rfl⟩ := List.mem_map.1
      ((h.all id).2 ⟨s, hs, by rw [hend]; rfl, hcompiled⟩)
    have hend' : (l.get? p.statement).map Statement.kind = some .loopEnd := by
      rw [← hkind, hs, Option.map_some, hend]
    by_cases hcode : p.code = []
    · exact .inl (mem_unmatchedEnds.2 ⟨p, hp, rfl, hend', hcode⟩)
    · exact .inr ((closesRepeat_iff hp).2 ⟨hend', hcode⟩)
  · rintro (hid | hid)
    · obtain ⟨p, hp, rfl, hend, -⟩ := mem_unmatchedEnds.1 hid
      exact hmarked p hp hend
    · obtain ⟨p, hp, rfl⟩ := hpiece id hid
      exact hmarked p hp ((closesRepeat_iff hp).1 hid).1
  · intro id hid hcloses
    obtain ⟨p, hp, rfl, -, hcode⟩ := mem_unmatchedEnds.1 hid
    exact ((closesRepeat_iff hp).1 hcloses).2 hcode

/-- The repeats that are open are among the statements that were written. By induction on the
statements: each of them puts itself on the open repeats, takes one away, or leaves them alone. -/
lemma sublist_opened (l : Layout) (debug : Bool) (ids : List Nat) : ∀ pen : Pen,
    (ids.foldl (l.penAfter debug) pen).opened.Sublist (ids.reverse ++ pen.opened) := by
  induction ids with
  | nil => exact fun pen => .refl _
  | cons id ids ih =>
    intro pen
    have hnext : (l.penAfter debug pen id).opened.Sublist (id :: pen.opened) := by
      unfold penAfter
      cases l.step? id with
      | none => exact List.sublist_cons_self ..
      | some x =>
        cases x with
        | plain => exact List.sublist_cons_self ..
        | opening => exact .refl _
        | closing => exact (List.tail_sublist _).trans (List.sublist_cons_self ..)
    have hall := (ih (l.penAfter debug pen id)).trans (hnext.append_left ids.reverse)
    rwa [List.reverse_cons, List.append_assoc]

/-! ### What is reported -/

/-- **Reported.** A log holds the warnings about a page, and others about markers that nobody
knows. -/
structure Reported (l : Layout) (debug : Bool) (unknown : List Diagnostic) (log : DiagnosticLog) :
    Prop where
  code : ∀ d ∈ unknown, d.code = .unknownMarker
  warns : log.Warns (unknown ++ l.warnings debug)

namespace Reported

variable {unknown : List Diagnostic} {log : DiagnosticLog}

/-- The warnings of one code. -/
lemma withCode_perm (h : l.Reported debug unknown log) (code : Code) :
    (log.withCode code).Perm ((if .unknownMarker = code then unknown else []) ++
      (l.warnings debug).filter fun d => d.code = code) := by
  have hperm := h.warns.withCode_perm code
  rwa [List.filter_append, filter_code_of_forall h.code] at hperm

/-- Each unknown marker is reported. -/
lemma length_unknown (h : l.Reported debug unknown log) :
    (log.withCode .unknownMarker).length = unknown.length := by
  rw [(h.withCode_perm .unknownMarker).length_eq]
  simp +decide [filter_warnings]

/-- Each loose end along the chain is reported. -/
lemma length_loose (h : l.Reported debug unknown log) : (log.withCode .danglingBranch).length =
    (((l.written debug).map Piece.statement).map l.looseEndsAt).sum := by
  rw [(h.withCode_perm .danglingBranch).length_eq]
  simp +decide [filter_warnings, List.length_flatMap, length_looseWarnings, Function.comp_def]

/-- Each repeat that is left open is reported. -/
lemma repeats_perm (h : l.Reported debug unknown log) : (log.withCode .unclosedLoop).Perm
    ((l.lastPen debug).opened.map fun id => unclosedLoop ⟨id, none⟩) := by
  have hnothing : (l.written debug).flatMap (fun _ => ([] : List Diagnostic)) = [] := by simp
  simpa +decide [filter_warnings, hnothing] using h.withCode_perm .unclosedLoop

/-- Each end of a repeat that has nothing to close is reported. -/
lemma ends_perm (h : l.Reported debug unknown log) :
    ((log.withCode .unmatchedLoopEnd).map Diagnostic.statement).Perm
      ((l.unmatchedEnds debug).map some) := by
  rw [unmatchedEnds, ← map_statement_endWarnings]
  refine List.Perm.map _ ?_
  simpa +decide [filter_warnings] using h.withCode_perm .unmatchedLoopEnd

/-- It is reported if nothing acts. -/
lemma length_empty (h : l.Reported debug unknown log) : (log.withCode .emptyProgram).length =
    if ((l.written debug).flatMap Piece.code).countP Instruction.isCall = 0 then 1 else 0 := by
  have hnothing : (l.written debug).flatMap (fun _ => ([] : List Diagnostic)) = [] := by simp
  have hlength := (h.withCode_perm .emptyProgram).length_eq
  simp +decide only [filter_warnings, reduceIte, List.append_nil, List.nil_append, hnothing]
    at hlength
  rw [hlength]
  split <;> rfl

/-- Nothing else is reported. -/
lemma code_mem (h : l.Reported debug unknown log) {d : Diagnostic} (hd : d ∈ log.stored) :
    d.code ∈ [.unknownMarker, .danglingBranch, .unmatchedLoopEnd, .unclosedLoop,
      .emptyProgram] := by
  by_contra hother
  simp only [List.mem_cons, List.not_mem_nil, or_false, not_or] at hother
  obtain ⟨h101, h200, h201, h202, h203⟩ := hother
  have hnothing : (l.written debug).flatMap (fun _ => ([] : List Diagnostic)) = [] := by simp
  have hnone := h.withCode_perm d.code
  rw [filter_warnings, if_neg (Ne.symm h101), if_neg (Ne.symm h202), if_neg (Ne.symm h203)] at hnone
  simp only [if_neg (Ne.symm h200), if_neg (Ne.symm h201), List.append_nil, hnothing] at hnone
  have hmem : d ∈ log.withCode d.code := List.mem_filter.2 ⟨hd, decide_eq_true rfl⟩
  rw [hnone.eq_nil] at hmem
  exact List.not_mem_nil hmem

end Reported

end Layout

/-! ### Accounts -/

/-- **Accounted.** The warnings of a compilation account for its program and for the marks of its
page, whose statements are connected as in a layout, among markers of which some are unknown. -/
structure Compilation.Accounted (c : Compilation) (l : Layout) (debug : Bool) (unknown : Nat) :
    Prop where
  /-- The program and the marks are those of the page. -/
  covered : ∃ start, l.Covered start debug c.layout c.program.instructions
  /-- Nothing is an error. -/
  errors : c.diagnostics.errors = [] ∧ c.diagnostics.totalErrors = 0
  /-- One warning for each marker that nobody knows. -/
  unknown : (c.diagnostics.withCode .unknownMarker).length = unknown
  /-- One for each loose end of a marked statement. -/
  loose : (c.diagnostics.withCode .danglingBranch).length =
    ((c.layout.statements.filter Statement.isCompiled).map Statement.looseEnds).sum
  /-- One for each loop header that is never closed. -/
  unclosed : (c.diagnostics.withCode .unclosedLoop).length = c.program.balance.unclosed
  /-- These headers are those of the repeats that are reported, one of each. -/
  repeats : ∃ opened : List Nat, opened.Nodup ∧
    ((c.diagnostics.withCode .unclosedLoop).map Diagnostic.statement).Perm (opened.map some) ∧
    List.Forall₂ (l.HeadsRepeat (l.written debug)) (StickerBot.unclosed c.program.instructions)
      opened
  /-- One if the program never acts. -/
  empty : (c.diagnostics.withCode .emptyProgram).length = if c.program.callCount = 0 then 1 else 0
  /-- A marked end of a repeat is reported, or it has written the brace that closes a repeat. -/
  ends : ∃ unmatched : List Nat, unmatched.Nodup ∧
    ((c.diagnostics.withCode .unmatchedLoopEnd).map Diagnostic.statement).Perm
      (unmatched.map some) ∧
    (∀ id, (∃ s, c.layout.get? id = some s ∧ s.isCompiled = true ∧ s.kind = .loopEnd) ↔
      id ∈ unmatched ∨ l.ClosesRepeat (l.written debug) id) ∧
    ∀ id ∈ unmatched, ¬ l.ClosesRepeat (l.written debug) id
  /-- No brace closes nothing. -/
  stray : c.program.balance.strayCloses = 0
  /-- There are no other warnings. -/
  codes : ∀ d ∈ c.diagnostics.stored, d.severity = .warning ∧ d.code ∈ [.unknownMarker,
    .danglingBranch, .unmatchedLoopEnd, .unclosedLoop, .emptyProgram]
  total : c.diagnostics.totalWarnings = c.diagnostics.stored.length
  runnable : c.program.isRunnable = true ↔
    c.diagnostics.withCode .unclosedLoop = [] ∧ c.diagnostics.withCode .emptyProgram = []

section Accounted

variable {δ : Type} {distances : δ → δ → Ordering} {overlap : Zone → Zone → Option δ}
  {catalog : Catalog} {options : GenerateOptions} {ms : List Marker} {c : Compilation}

/-- A compilation reports what its page is warned about. -/
lemma reported_of_compileBy (h : compileBy distances overlap catalog options ms = .ok c) :
    ((Layout.ofMarkers catalog ms).1.connectBy distances overlap).1.Reported options.debug
      ((ms.filter fun m => (catalog.get? m.code).isNone).map Layout.unknownMarker)
      c.diagnostics := by
  refine ⟨fun d hd => ?_, compileBy_warns h⟩
  obtain ⟨m, -, rfl⟩ := List.mem_map.1 hd
  rfl

/-- **Accounts.** Whatever markers are compiled with whatever catalog, the warnings account for the
program: those about unknown markers, loose ends, open repeats and a program that never acts are as
many as there are of these; an end of a repeat is either reported or closes a repeat; no brace
closes nothing; and the program can run exactly if no repeat is reported as open and the program not
as empty.

**Proof sketch.** The walk writes and warns piece by piece, so the warnings of each kind are known
from the pieces. A parameter is marked without a piece of its own, but it has no loose ends. What a
piece opens and closes is known from the loops that are open before it. -/
theorem compileBy_accounted (hcatalog : catalog.IsMade)
    (h : compileBy distances overlap catalog options ms = .ok c) :
    c.Accounted ((Layout.ofMarkers catalog ms).1.connectBy distances overlap).1 options.debug
      (ms.countP fun m => (catalog.get? m.code).isNone) := by
  obtain ⟨g, hg, hprogram, -⟩ := exists_generate_of_compileBy h
  have hreported := reported_of_compileBy h
  have hleaf := Layout.leafParameters_connectBy
    (Layout.leafParameters_ofMarkers hcatalog.leafParameters ms) distances overlap
  generalize ((Layout.ofMarkers catalog ms).1.connectBy distances overlap).1 = l at *
  obtain ⟨context, rfl, hwalked⟩ := exists_walked hg
  obtain ⟨start, hstart⟩ := hwalked.start
  have hcovered := hwalked.covered hstart
  have hinstructions : c.program.instructions = context.instructions := by rw [hprogram]; rfl
  rw [← hinstructions] at hcovered
  obtain ⟨hsound, hopened⟩ := l.soundPieces_written options.debug
  rw [← hcovered.code] at hsound hopened
  have hunclosed : (c.diagnostics.withCode .unclosedLoop).length = c.program.balance.unclosed := by
    rw [hreported.repeats_perm.length_eq, List.length_map, unclosed_balance, hopened.length_eq]
  have hempty := hreported.length_empty
  rw [← hcovered.code, ← Program.callCount] at hempty
  have hstray : c.program.balance.strayCloses = 0 :=
    strayCloses_balance c.program fun place hclose => hsound place .close hclose
  refine ⟨⟨start, hcovered⟩, ⟨hreported.warns.errors, hreported.warns.totalErrors⟩, ?_, ?_,
    hunclosed, ?_, hempty, ?_, hstray, fun d hd => ⟨?_, hreported.code_mem hd⟩, ?_, ?_⟩
  · rw [hreported.length_unknown, List.length_map, List.countP_eq_length_filter]
  · rw [hcovered.sum_looseEnds hleaf, hreported.length_loose]
  · refine ⟨_, ?_, ?_, hopened⟩
    · have hsub := l.sublist_opened options.debug (l.chain [] l.start?.toList) .start
      rw [Pen.start, List.append_nil] at hsub
      exact hsub.nodup (List.nodup_reverse.2 (Layout.nodup_chain l [] _))
    · have hstatements := hreported.repeats_perm.map Diagnostic.statement
      rwa [List.map_map] at hstatements
  · refine ⟨l.unmatchedEnds options.debug, ?_, hreported.ends_perm, hcovered.ends⟩
    exact (List.filter_sublist.map Piece.statement).nodup hcovered.once
  · exact hreported.warns.severity d (hreported.warns.stored_perm.mem_iff.1 hd)
  · rw [hreported.warns.totalWarnings, hreported.warns.stored_perm.length_eq]
  · rw [← List.length_eq_zero_iff, ← List.length_eq_zero_iff, hunclosed, hempty]
    simp [Program.isRunnable, Program.isEmpty, BlockBalance.isBalanced, hstray, and_comm]

end Accounted

/-- Five markers of which nobody knows one. -/
def strayMarkers : List Marker :=
  [⟨31, ⟨0, 0⟩, 0, 20⟩, ⟨117, ⟨0, 0⟩, 0, 30⟩, ⟨7, ⟨0, 0⟩, 0, 20⟩, ⟨115, ⟨0, 0⟩, 0, 44⟩,
    ⟨47, ⟨0, 0⟩, 0, 60⟩]

/-- Their page, wherever the markers and the zones lie. -/
def strayPage (zone : Nat → Nat → Zone) (marker : Nat → Marker) : Layout :=
  ⟨[⟨.start, "Begin", marker 0, [⟨"next", .outgoing, zone 0 0, none⟩], false, false⟩,
    ⟨.loopEnd, "End Repeat", marker 1,
      [⟨"prev", .incoming, zone 1 0, none⟩, ⟨"next", .outgoing, zone 1 1, none⟩], false, false⟩,
    ⟨.loopBegin, "Begin Repeat", marker 2, [⟨"prev", .incoming, zone 2 0, none⟩,
      ⟨"next", .outgoing, zone 2 1, none⟩, ⟨"param", .parameter, zone 2 2, none⟩], false, false⟩,
    ⟨.action .walk, "Walk", marker 3,
      [⟨"prev", .incoming, zone 3 0, none⟩, ⟨"next", .outgoing, zone 3 1, none⟩], false, false⟩]⟩

/-- What is written for the page if every plug overlaps every socket: the end of a repeat stands
before the repeat, which is never closed, and nothing comes after the walk. -/
def strayCode : Generated where
  program := ⟨[.assign "a" 0, .whileBelow "a" 1000, .wait 500, .increment "a" 1, .native .walk []],
    .empty⟩
  diagnostics := .ofList [unmatchedLoopEnd 1 "End Repeat", danglingBranch 3 "Walk",
    unclosedLoop ⟨2, some "a"⟩]

/-- The warnings about a page whose repeat ends before it begins account for its program. Where the
markers lie on the page plays no part, so the code is computed for any zones in their place. -/
theorem compileBy_accounted_strayMarkers :
    Catalog.standard.IsMade ∧
      ∃ c, compileBy (fun _ _ => .eq) (fun _ _ => some ()) .standard {} strayMarkers = .ok c ∧
        c.program = strayCode.program ∧
        c.diagnostics.withCode .unmatchedLoopEnd = [unmatchedLoopEnd 1 "End Repeat"] ∧
        c.diagnostics.withCode .unclosedLoop = [unclosedLoop ⟨2, some "a"⟩] ∧
        c.Accounted ((Layout.ofMarkers .standard strayMarkers).1.connectBy (fun _ _ => .eq)
          (fun _ _ => some ())).1 false 1 := by
  have hpage : ∃ zone marker,
      (Layout.ofMarkers .standard strayMarkers).1 = strayPage zone marker :=
    ⟨fun id place => (((Layout.ofMarkers .standard strayMarkers).1.get? id).bind fun s =>
        s.connectors[place]?).elim default Connector.zone,
      fun id => ((Layout.ofMarkers .standard strayMarkers).1.get? id).elim default
        Statement.marker, rfl⟩
  have hcode : ∀ zone marker, (generate ((strayPage zone marker).connectBy (fun _ _ => .eq)
      (fun _ _ => some ())).1 {}).2 = .ok strayCode := fun zone marker => by cbv
  obtain ⟨zone, marker, hpage⟩ := hpage
  have hgenerate := hcode zone marker
  rw [← hpage] at hgenerate
  obtain ⟨c, hc, hprogram, hlog⟩ : ∃ c, compileBy (fun _ _ => .eq) (fun _ _ => some ()) .standard {}
      strayMarkers = .ok c ∧ c.program = strayCode.program ∧ c.diagnostics =
        (Layout.ofMarkers .standard strayMarkers).2.extend strayCode.diagnostics := by
    unfold compileBy
    dsimp only
    rcases hwritten : generate ((Layout.ofMarkers .standard strayMarkers).1.connectBy
      (fun _ _ => .eq) (fun _ _ => some ())).1 {} with ⟨l', r⟩
    rw [hwritten] at hgenerate
    obtain rfl : r = .ok strayCode := hgenerate
    exact ⟨_, rfl, rfl, rfl⟩
  refine ⟨.standard, c, hc, hprogram, ?_, ?_, compileBy_accounted .standard hc⟩
  · rw [hlog]
    decide
  · rw [hlog]
    decide

end StickerBot
