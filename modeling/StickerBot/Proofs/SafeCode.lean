import Mathlib.Data.List.Forall2
import StickerBot.Proofs.Pieces
import StickerBot.Proofs.SafeRun
set_option autoImplicit false

/-!
# Generated code is sound

Whatever page a program comes from, the code that is written for it is sound: a wait and a repeat
count with a variable that is given its value right before their loop, and the end of a repeat is
written only while a repeat is open. The loops that are open at the end are those of the repeats
that are open.

## Main definitions

* `Appends` — instructions that leave sound code sound, and the loops open behind them.
* `Layout.HeadsRepeat` — a place in the piece of a repeat.
* `Layout.SoundPieces` — pieces that are sound code and leave open the loops of open repeats.

## Main results

* `appends_waitCode`, `appends_repeatCode` — the code of waits and repeats is sound.
* `Layout.soundPieces_written` — the pieces of a page are sound.
-/

namespace StickerBot

/-! ### Appending sound instructions -/

section Append

variable {is js : List Instruction} {place : Nat} {i : Instruction}

/-- What is assured at a place depends on what stands before it alone. -/
lemma Assured.append {x : String} (h : Assured is place x) (hle : place ≤ is.length)
    (js : List Instruction) : Assured (is ++ js) place x := by
  obtain ⟨header, hmem, before, n, rfl, hn⟩ := h
  rw [← openAt_append_left is js hle] at hmem
  exact ⟨_, hmem, before, n, rfl,
    (List.getElem?_append_left (List.getElem?_eq_some_iff.1 hn).1).trans hn⟩

/-- Whether an instruction is sound depends on what stands before it alone. -/
lemma Instruction.SoundAt.append (h : i.SoundAt is place) (hle : place ≤ is.length)
    (js : List Instruction) : i.SoundAt (is ++ js) place := by
  cases i with
  | loop c =>
    cases c with
    | below x limit => exact Assured.append h hle js
    | sensorNotRaised sensor => exact h
  | increment x n => exact Assured.append h hle js
  | close =>
    unfold Instruction.SoundAt at h ⊢
    rwa [openAt_append_left is js hle]
  | _ => exact h

/-- Sound code stays sound with a sound instruction behind it. -/
lemma SoundCode.concat (h : SoundCode is) (hi : i.SoundAt is is.length) :
    SoundCode (is ++ [i]) := by
  intro place j hj
  rcases Nat.lt_or_ge place is.length with hlt | hge
  · rw [List.getElem?_append_left hlt] at hj
    exact (h place j hj).append (Nat.le_of_lt hlt) [i]
  · have hplace : place = is.length := by
      have hbound := (List.getElem?_eq_some_iff.1 hj).1
      rw [List.length_append, List.length_singleton] at hbound
      omega
    subst hplace
    obtain rfl : i = j := by simpa using hj
    exact hi.append (Nat.le_refl _) [i]

/-- **Appending.** Instructions leave sound code sound, and loops of these headers open. -/
structure Appends (is js : List Instruction) (opened : List Nat) : Prop where
  sound : SoundCode is → SoundCode (is ++ js)
  opened : unclosed (is ++ js) = opened

/-- Nothing appended leaves sound code sound and the same loops open. -/
lemma appends_nil {opened : List Nat} (h : unclosed is = opened) : Appends is [] opened :=
  ⟨fun h => by rwa [List.append_nil], by rwa [List.append_nil]⟩

/-- A sound instruction in front of others. -/
lemma appends_cons {opened : List Nat} (hi : i.SoundAt is is.length)
    (h : Appends (is ++ [i]) js opened) : Appends is (i :: js) opened := by
  obtain ⟨hsound, hopened⟩ := h
  rw [List.append_assoc, List.singleton_append] at hsound hopened
  exact ⟨fun his => hsound (his.concat hi), hopened⟩

/-- Instructions behind others. -/
lemma Appends.append {opened opened' : List Nat} {ks : List Instruction}
    (h : Appends is js opened) (h' : Appends (is ++ js) ks opened') :
    Appends is (js ++ ks) opened' := by
  obtain ⟨hsound, hopened⟩ := h'
  rw [List.append_assoc] at hsound hopened
  exact ⟨fun his => hsound (h.sound his), hopened⟩

/-- A variable that was just given a value is assured. -/
lemma assured_assign (is : List Instruction) (x : String) (n : Int32) :
    Assured (is ++ [Instruction.assign x n]) (is ++ [Instruction.assign x n]).length x :=
  ⟨_, List.mem_cons_self, is.length, n, by simp, by simp⟩

/-- Inside a loop that counts with a variable the variable is assured. -/
lemma assured_inside (is : List Instruction) (x : String) (n limit : Int32) (units : UInt32) :
    let js := is ++ [Instruction.assign x n] ++ [.whileBelow x limit] ++ [.wait units]
    Assured js js.length x := by
  refine ⟨is.length + 1, List.mem_cons_of_mem _ ?_, is.length, n, rfl, by simp⟩
  change is.length + 1 ∈ unclosed _
  rw [unclosed_concat, unclosed_concat]
  simp [Instruction.whileBelow, Instruction.openedAfter]

end Append

/-! ### The code of waits and repeats -/

/-- **Waits** leave open what was open. They open a loop of their own and close it again, a loop
until a tap or a counted one, whose counter is set right before its header. -/
lemma appends_waitCode (is : List Instruction) (v : ParameterValue) (counter : String) :
    Appends is (waitCode v counter) (unclosed is) := by
  unfold waitCode
  cases v.limit? with
  | none =>
    refine appends_cons ⟨.wait, rfl⟩ (appends_cons trivial (appends_cons ⟨.touchSensor, rfl, rfl⟩
      (appends_cons trivial (appends_cons ?_ ?_))))
    · change unclosed _ ≠ []
      simp only [unclosed_concat, Instruction.openedAfter, Instruction.whileNotRaised]
      exact List.cons_ne_nil _ _
    · refine appends_nil ?_
      simp only [unclosed_concat, Instruction.openedAfter, Instruction.native,
        Instruction.whileNotRaised, List.tail_cons]
  | some limit =>
    refine appends_cons ⟨.wait, rfl⟩ (appends_cons trivial (appends_cons trivial
      (appends_cons ?_ (appends_cons trivial (appends_cons ?_ (appends_cons ?_ ?_))))))
    · exact assured_assign _ counter 0
    · exact assured_inside _ counter 0 limit waitTick
    · change unclosed _ ≠ []
      simp only [unclosed_concat, Instruction.openedAfter, Instruction.whileBelow]
      exact List.cons_ne_nil _ _
    · refine appends_nil ?_
      simp only [unclosed_concat, Instruction.openedAfter, Instruction.native,
        Instruction.whileBelow, List.tail_cons]

/-- **Repeats** leave one more loop open, whose header they hold. The header stands at their
beginning, or behind the initialization of the counter if there is a limit; what comes behind the
header opens nothing more. -/
lemma appends_repeatCode (is : List Instruction) (v : ParameterValue) (counter : String) :
    ∃ header, is.length ≤ header ∧ header < is.length + (repeatCode v counter).length ∧
      Appends is (repeatCode v counter) (header :: unclosed is) := by
  unfold repeatCode
  cases v.limit? with
  | none =>
    refine ⟨is.length, Nat.le_refl _, by simp, ?_⟩
    refine appends_cons ⟨.touchSensor, rfl, rfl⟩ (appends_cons trivial (appends_nil ?_))
    simp only [unclosed_concat, Instruction.openedAfter, Instruction.whileNotRaised]
  | some limit =>
    refine ⟨is.length + 1, Nat.le_succ _, by simp, ?_⟩
    refine appends_cons trivial (appends_cons ?_ (appends_cons trivial (appends_cons ?_ ?_)))
    · exact assured_assign is counter 0
    · exact assured_inside is counter 0 limit repeatSettle
    · refine appends_nil ?_
      simp only [unclosed_concat, Instruction.openedAfter, Instruction.whileBelow,
        List.length_append, List.length_singleton]

/-! ### The pieces of a page -/

/-- What stands in one list stands beside something in the other. -/
lemma exists_of_mem_forall₂ {α β : Type} {R : α → β → Prop} {xs : List α} {ys : List β}
    (h : List.Forall₂ R xs ys) {x : α} (hx : x ∈ xs) : ∃ y ∈ ys, R x y := by
  induction h with
  | nil => exact absurd hx List.not_mem_nil
  | cons hxy _ ih =>
    rcases List.mem_cons.1 hx with rfl | hx
    · exact ⟨_, List.mem_cons_self, hxy⟩
    · obtain ⟨y, hy, hR⟩ := ih hx
      exact ⟨y, List.mem_cons_of_mem _ hy, hR⟩

/-- A place is in the piece of a statement. -/
def InPiece (ps : List Piece) (place id : Nat) : Prop :=
  ∃ before code after, ps = before ++ ⟨id, code⟩ :: after ∧
    (before.flatMap Piece.code).length ≤ place ∧
    place < (before.flatMap Piece.code).length + code.length

/-- A place stays in its piece when there are more pieces. -/
lemma InPiece.append {ps : List Piece} {place id : Nat} (h : InPiece ps place id)
    (ps' : List Piece) : InPiece (ps ++ ps') place id := by
  obtain ⟨before, code, after, rfl, hplace⟩ := h
  exact ⟨before, code, after ++ ps', by simp, hplace⟩

/-- The instructions of one more piece come last. -/
lemma flatMap_code_concat (ps : List Piece) (p : Piece) :
    (ps ++ [p]).flatMap Piece.code = ps.flatMap Piece.code ++ p.code := by
  rw [List.flatMap_append, List.flatMap_singleton]

namespace Layout

/-- A place is in the piece of a repeat. -/
def HeadsRepeat (l : Layout) (ps : List Piece) (place id : Nat) : Prop :=
  InPiece ps place id ∧ (l.get? id).map Statement.kind = some .loopBegin

/-- **Sound pieces.** The instructions of pieces are sound code, and the loops that they leave open
are those of the repeats that are open, one for each and in the same order. -/
structure SoundPieces (l : Layout) (ps : List Piece) (opened : List Nat) : Prop where
  code : SoundCode (ps.flatMap Piece.code)
  opened : List.Forall₂ (l.HeadsRepeat ps) (unclosed (ps.flatMap Piece.code)) opened

variable {l : Layout} {ps : List Piece} {opened : List Nat} {id : Nat} {code : List Instruction}

/-- One more piece, which leaves open what was open. -/
lemma SoundPieces.concat (h : l.SoundPieces ps opened)
    (hcode : Appends (ps.flatMap Piece.code) code (unclosed (ps.flatMap Piece.code))) :
    l.SoundPieces (ps ++ [⟨id, code⟩]) opened := by
  constructor
  · rw [flatMap_code_concat]
    exact hcode.sound h.code
  · rw [flatMap_code_concat, hcode.opened]
    exact h.opened.imp fun _ _ hx => ⟨hx.1.append _, hx.2⟩

/-- One more piece, which opens the loop of a repeat. -/
lemma SoundPieces.concat_repeat (h : l.SoundPieces ps opened)
    (hkind : (l.get? id).map Statement.kind = some .loopBegin) {header : Nat}
    (hle : (ps.flatMap Piece.code).length ≤ header)
    (hlt : header < (ps.flatMap Piece.code).length + code.length)
    (hcode : Appends (ps.flatMap Piece.code) code (header :: unclosed (ps.flatMap Piece.code))) :
    l.SoundPieces (ps ++ [⟨id, code⟩]) (id :: opened) := by
  constructor
  · rw [flatMap_code_concat]
    exact hcode.sound h.code
  · rw [flatMap_code_concat, hcode.opened]
    refine .cons ⟨⟨ps, code, [], rfl, hle, hlt⟩, hkind⟩ ?_
    exact h.opened.imp fun _ _ hx => ⟨hx.1.append _, hx.2⟩

/-- One more piece, which closes the loop of a repeat. -/
lemma SoundPieces.concat_close {first : Nat} (h : l.SoundPieces ps (first :: opened)) :
    l.SoundPieces (ps ++ [⟨id, [.close]⟩]) opened := by
  obtain ⟨hcode, hopened⟩ := h
  generalize hheaders : unclosed (ps.flatMap Piece.code) = headers at hopened
  cases hopened with
  | cons hfirst hopened =>
    rename_i header headers
    constructor
    · rw [flatMap_code_concat]
      refine hcode.concat ?_
      change unclosed _ ≠ []
      rw [hheaders]
      exact List.cons_ne_nil _ _
    · rw [flatMap_code_concat, unclosed_concat, hheaders]
      exact hopened.imp fun _ _ hx => ⟨hx.1.append _, hx.2⟩

/-- Remarks leave open what was open. -/
lemma appends_remarks (is : List Instruction) (debug : Bool) (point : UInt32) (name : String) :
    Appends is (if debug then [.trace point, .print name] else []) (unclosed is) := by
  cases debug with
  | false => exact appends_nil rfl
  | true =>
    refine appends_cons trivial (appends_cons trivial (appends_nil ?_))
    simp only [unclosed_concat, Instruction.openedAfter]

/-- **A further piece** of a page is sound behind the others. One case for each kind of statement. A
start of a repeat opens its header behind the others, an end closes the innermost one, and all other
pieces leave open what was open. -/
lemma SoundPieces.next {pen : Pen} (h : l.SoundPieces ps pen.opened) (debug : Bool) (id : Nat) :
    l.SoundPieces (ps ++ [⟨id, l.code debug pen id⟩]) (l.penAfter debug pen id).opened := by
  have hnothing : l.SoundPieces (ps ++ [⟨id, []⟩]) pen.opened := h.concat (appends_nil rfl)
  unfold Layout.code penAfter step?
  cases hs : l.get? id with
  | none => exact hnothing
  | some s =>
    have hremarks := appends_remarks (ps.flatMap Piece.code) debug pen.point s.name
    have hopened := hremarks.opened
    rw [Option.bind_some]
    cases hk : s.kind with
    | start => exact hnothing
    | parameter v => exact hnothing
    | action b =>
      have hact := hremarks.append (appends_cons
        (show (Instruction.native b []).SoundAt _ _ from ⟨b, rfl⟩) (appends_nil rfl))
      rw [unclosed_concat, hopened] at hact
      simpa [Brace.isRemarked, Brace.code, Brace.openedAfter, Instruction.native] using
        h.concat hact
    | wait =>
      have hwait := hremarks.append (appends_waitCode _ (readParameter id l).1
        (Context.counterAt pen.opened.length))
      rw [hopened] at hwait
      simpa [Brace.isRemarked, Brace.code, Brace.openedAfter] using h.concat hwait
    | loopBegin =>
      obtain ⟨header, hle, hlt, hrepeat⟩ := appends_repeatCode (ps.flatMap Piece.code ++
        if debug then [.trace pen.point, .print s.name] else []) (readParameter id l).1
          (Context.counterAt pen.opened.length)
      rw [hopened] at hrepeat
      have hkind : (l.get? id).map Statement.kind = some .loopBegin := by
        rw [hs, Option.map_some, hk]
      rw [List.length_append] at hle hlt
      have hall := h.concat_repeat hkind (by omega) (by rw [List.length_append]; omega)
        (hremarks.append hrepeat)
      simpa [Brace.isRemarked, Brace.code, Brace.openedAfter] using hall
    | loopEnd =>
      cases hdepth : pen.opened with
      | nil => simpa [Brace.isRemarked, Brace.code, Brace.openedAfter, hdepth] using hnothing
      | cons first opened =>
        rw [hdepth] at h
        have hclose : l.SoundPieces (ps ++ [⟨id, [.close]⟩]) opened := h.concat_close
        simpa [Brace.isRemarked, Brace.code, Brace.openedAfter] using hclose

/-- **Pieces in a row** are sound behind others. -/
theorem SoundPieces.append_pieces (debug : Bool) (ids : List Nat) :
    ∀ {pen : Pen} {ps : List Piece}, l.SoundPieces ps pen.opened →
      l.SoundPieces (ps ++ l.pieces debug pen ids)
        (ids.foldl (l.penAfter debug) pen).opened := by
  induction ids with
  | nil => intro pen ps h; simpa [pieces] using h
  | cons id ids ih =>
    intro pen ps h
    have hnext := ih (h.next debug id)
    rw [List.append_assoc, List.singleton_append] at hnext
    exact hnext

/-- Pieces from the start on are sound. -/
lemma soundPieces_start (l : Layout) (debug : Bool) (ids : List Nat) :
    l.SoundPieces (l.pieces debug .start ids) (ids.foldl (l.penAfter debug) .start).opened := by
  have hnone : l.SoundPieces [] Pen.start.opened := ⟨fun _ _ h => by simp at h, .nil⟩
  exact hnone.append_pieces debug ids

/-- **The pieces of a page** are sound. -/
theorem soundPieces_written (l : Layout) (debug : Bool) :
    l.SoundPieces (l.written debug) (l.lastPen debug).opened :=
  l.soundPieces_start debug _

end Layout

end StickerBot
