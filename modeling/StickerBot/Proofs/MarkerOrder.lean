import Mathlib.Data.Fintype.EquivFin
import Mathlib.Logic.Equiv.Fin.Basic
import StickerBot.Compilation
import StickerBot.Proofs.RenamedWalk
set_option autoImplicit false

/-!
# The order of markers does not matter

Statements are numbered in the order in which their markers were found. If no two overlapping
pairs of a page have the same distance then this order decides nothing but the numbers: the same
markers in another order have the same program, written from the same statements.

## Main definitions

* `Catalog.knows`, `Catalog.numberOf` — the markers that become statements, and the number that
  the statement of a marker has.
* `CompileError.rename`, `Compilation.IsRenaming` — errors and compilations that differ in the
  numbers of statements only.

## Main results

* `exists_renumbering`, `exists_isRenaming_ofMarkers` — another order of markers gives other numbers
  to their statements, and makes the same statements of them.
* `compileBy_isOk` — a page within the limit on chains compiles.
* `compileBy_reorder` — compiling markers in another order has the same outcome.
-/

namespace StickerBot

variable {catalog : Catalog} {ms ms' : List Marker}

/-! ### Numbers of statements -/

namespace Catalog

/-- Whether a marker becomes a statement. -/
def knows (catalog : Catalog) (m : Marker) : Bool := (catalog.get? m.code).isSome

/-- **Numbering.** The number that the statement of the marker at a place has: how many markers
before it become statements. -/
def numberOf (catalog : Catalog) (ms : List Marker) (place : Nat) : Nat :=
  (ms.take place).countP catalog.knows

/-- Numbers ascend with the places of markers that become statements. -/
lemma numberOf_lt_numberOf {i j : Nat} (hi : i < ms.length) (hknown : catalog.knows ms[i])
    (hij : i < j) : catalog.numberOf ms i < catalog.numberOf ms j := by
  have hstep : catalog.numberOf ms (i + 1) = catalog.numberOf ms i + 1 := by
    unfold numberOf
    rw [List.take_add_one, List.getElem?_eq_getElem hi, Option.toList_some, List.countP_append,
      List.countP_singleton, if_pos hknown]
  have hmono : catalog.numberOf ms (i + 1) ≤ catalog.numberOf ms j :=
    (List.take_sublist_take_left hij).countP_le
  omega

/-- Markers that become statements have different numbers. -/
lemma numberOf_inj {i j : Nat} (hi : i < ms.length) (hj : j < ms.length)
    (hknowni : catalog.knows ms[i]) (hknownj : catalog.knows ms[j])
    (heq : catalog.numberOf ms i = catalog.numberOf ms j) : i = j := by
  rcases Nat.lt_trichotomy i j with hlt | hij | hlt
  · exact absurd heq (numberOf_lt_numberOf hi hknowni hlt).ne
  · exact hij
  · exact absurd heq (numberOf_lt_numberOf hj hknownj hlt).ne'

end Catalog

namespace Layout

/-- The statements of a page are the markers that have a template, in their order, each as an
instance of its template; markers of unknown codes leave no statement. -/
lemma statements_ofMarkers (catalog : Catalog) (ms : List Marker) :
    (ofMarkers catalog ms).1.statements =
      ms.filterMap fun m => (catalog.get? m.code).map fun t => t.instantiate m := rfl

/-- A page has as many statements as markers that become statements. -/
lemma size_ofMarkers (catalog : Catalog) (ms : List Marker) :
    (ofMarkers catalog ms).1.size = ms.countP catalog.knows := by
  rw [size, statements_ofMarkers, List.length_filterMap_eq_countP]
  simp only [Option.isSome_map]
  rfl

/-- The statement of a marker has the number of the marker. The number counts the known markers
before it, and just as many statements come before the one of this marker. -/
lemma get?_ofMarkers_numberOf {i : Nat} (hi : i < ms.length) (hknown : catalog.knows ms[i]) :
    (ofMarkers catalog ms).1.get? (catalog.numberOf ms i) =
      (catalog.get? ms[i].code).map fun t => t.instantiate ms[i] := by
  obtain ⟨t, ht⟩ := Option.isSome_iff_exists.1 hknown
  have hfront : (ofMarkers catalog (ms.take i)).1.size = catalog.numberOf ms i :=
    size_ofMarkers catalog _
  have hsplit : ms = ms.take i ++ ms[i] :: ms.drop (i + 1) := by
    rw [← List.drop_eq_getElem_cons hi, List.take_append_drop]
  have hstatements : (ofMarkers catalog ms).1.statements =
      (ofMarkers catalog (ms.take i)).1.statements ++
        t.instantiate ms[i] :: (ofMarkers catalog (ms.drop (i + 1))).1.statements := by
    conv_lhs => rw [hsplit]
    simp only [statements_ofMarkers, List.filterMap_append, List.filterMap_cons, ht,
      Option.map_some]
  rw [get?, hstatements, ht, Option.map_some, ← hfront, size, List.getElem?_append_right le_rfl,
    Nat.sub_self, List.getElem?_cons_zero]

/-- Every number of a page is the number of a marker. By induction on the markers: those with a
template take the numbers from zero on, and the others take none. -/
lemma exists_numberOf {id : Nat} (hid : id < (ofMarkers catalog ms).1.size) :
    ∃ i, ∃ hi : i < ms.length, catalog.knows ms[i] ∧ catalog.numberOf ms i = id := by
  rw [size_ofMarkers] at hid
  induction ms generalizing id with
  | nil => simp at hid
  | cons m ms ih =>
    by_cases hm : catalog.knows m = true
    · cases id with
      | zero => exact ⟨0, by simp, hm, rfl⟩
      | succ id =>
        rw [List.countP_cons_of_pos hm, Nat.add_lt_add_iff_right] at hid
        obtain ⟨i, hi, hknown, hnumber⟩ := ih hid
        refine ⟨i + 1, by simpa using hi, by simpa using hknown, ?_⟩
        rw [Catalog.numberOf, List.take_succ_cons, List.countP_cons_of_pos hm]
        exact congrArg (· + 1) hnumber
    · rw [List.countP_cons_of_neg hm] at hid
      obtain ⟨i, hi, hknown, hnumber⟩ := ih hid
      refine ⟨i + 1, by simpa using hi, by simpa using hknown, ?_⟩
      rw [Catalog.numberOf, List.take_succ_cons, List.countP_cons_of_neg hm]
      exact hnumber

end Layout

/-! ### Other numbers by another order -/

/-- **Places and numbers.** The places of markers that become statements correspond to the numbers
of statements. -/
noncomputable def numbering (catalog : Catalog) (ms : List Marker) :
    { i : Fin ms.length // catalog.knows ms[i] } ≃ Fin (Layout.ofMarkers catalog ms).1.size :=
  Equiv.ofBijective
    (fun i => ⟨catalog.numberOf ms i.1, by
      obtain ⟨⟨i, hi⟩, hknown⟩ := i
      rw [Layout.size_ofMarkers]
      have hlt := Catalog.numberOf_lt_numberOf hi hknown hi
      rwa [Catalog.numberOf, Catalog.numberOf, List.take_length] at hlt⟩)
    ⟨fun i j h => Subtype.ext <| Fin.ext <| Catalog.numberOf_inj i.1.2 j.1.2 i.2 j.2
        (congrArg Fin.val h),
      fun id => by
        obtain ⟨i, hi, hknown, hnumber⟩ := Layout.exists_numberOf id.2
        exact ⟨⟨⟨i, hi⟩, hknown⟩, Fin.ext hnumber⟩⟩

/-- **Renumbering.** If the same markers are found in another order, then their statements have
other numbers, and the numbers of no statement stay. -/
theorem exists_renumbering (catalog : Catalog) (π : Fin ms.length ≃ Fin ms'.length)
    (hπ : ∀ i, ms'[π i] = ms[i]) :
    (Layout.ofMarkers catalog ms').1.size = (Layout.ofMarkers catalog ms).1.size ∧
      ∃ ρ : Equiv.Perm Nat,
        (∀ i : Fin ms.length, catalog.knows ms[i] →
          ρ (catalog.numberOf ms i) = catalog.numberOf ms' (π i)) ∧
        ∀ id, (Layout.ofMarkers catalog ms).1.size ≤ id → ρ id = id := by
  let e : Fin (Layout.ofMarkers catalog ms).1.size ≃ Fin (Layout.ofMarkers catalog ms').1.size :=
    (numbering catalog ms).symm.trans
      ((π.subtypeEquiv fun i => by rw [hπ]).trans (numbering catalog ms'))
  have hsize : (Layout.ofMarkers catalog ms').1.size = (Layout.ofMarkers catalog ms).1.size :=
    (Fin.equiv_iff_eq.1 ⟨e⟩).symm
  let numbers : Equiv.Perm (Fin (Layout.ofMarkers catalog ms).1.size) := e.trans (finCongr hsize)
  refine ⟨hsize, numbers.extendDomain Fin.equivSubtype, fun i hknown => ?_, fun id hid => ?_⟩
  · have hnumber := numbers.extendDomain_apply_image Fin.equivSubtype
      (numbering catalog ms ⟨i, hknown⟩)
    simp only [numbers, e, Equiv.trans_apply, Equiv.symm_apply_apply] at hnumber
    exact hnumber
  · exact Equiv.Perm.extendDomain_apply_not_subtype _ _ (Nat.not_lt.2 hid)

/-- New stickers lead nowhere, so numbers do not matter to them. -/
@[simp] lemma Template.instantiate_rename (ρ : Equiv.Perm Nat) (t : Template) (m : Marker) :
    (t.instantiate m).rename ρ = t.instantiate m := by
  simp [Template.instantiate, Statement.rename, Connector.rename, Connector.ofTemplate,
    Function.comp_def]

/-- The same markers in another order are the same statements under other numbers.

**Proof sketch.** A number on the page is that of a marker. The marker stands elsewhere in the other
order, and gets another number there, but it leaves the same statement. Numbers that are on no page
are left alone. -/
theorem exists_isRenaming_ofMarkers (catalog : Catalog) (π : Fin ms.length ≃ Fin ms'.length)
    (hπ : ∀ i, ms'[π i] = ms[i]) :
    ∃ ρ : Equiv.Perm Nat,
      (∀ i : Fin ms.length, catalog.knows ms[i] →
        ρ (catalog.numberOf ms i) = catalog.numberOf ms' (π i)) ∧
      (Layout.ofMarkers catalog ms).1.IsRenaming ρ (Layout.ofMarkers catalog ms').1 := by
  obtain ⟨hsize, ρ, hnumber, hstay⟩ := exists_renumbering catalog π hπ
  refine ⟨ρ, hnumber, fun id => ?_⟩
  by_cases hid : id < (Layout.ofMarkers catalog ms).1.size
  · obtain ⟨i, hi, hknown, rfl⟩ := Layout.exists_numberOf hid
    have hsame : ms'[π ⟨i, hi⟩] = ms[i] := hπ ⟨i, hi⟩
    have hknown' : catalog.knows ms'[π ⟨i, hi⟩] := by rw [hsame, hknown]
    have hget' := Layout.get?_ofMarkers_numberOf (π ⟨i, hi⟩).2 hknown'
    have hget := Layout.get?_ofMarkers_numberOf hi hknown
    rw [hnumber ⟨i, hi⟩ hknown, hget', hget, Option.map_map]
    change ms'[(π ⟨i, hi⟩).1] = ms[i] at hsame
    rw [hsame]
    simp [Function.comp_def]
  · have hnone : ∀ {l : Layout}, l.size ≤ id → l.get? id = none := List.getElem?_eq_none
    rw [hstay id (Nat.not_lt.1 hid), hnone (Nat.not_lt.1 hid), hnone (hsize ▸ Nat.not_lt.1 hid)]
    rfl

/-! ### Pages within the limit -/

namespace Layout

variable {δ : Type} (distances : δ → δ → Ordering) [Std.TransCmp distances]
  (overlap : Zone → Zone → Option δ) (l : Layout)

/-- Connecting changes nothing but connections. -/
lemma clearTargets_connectBy :
    (l.connectBy distances overlap).1.clearTargets = l.clearTargets := by
  obtain ⟨M, -, hjoins, -⟩ := l.exists_isStable_joins distances overlap
  exact hjoins.rest

/-- Connecting adds no statement. -/
lemma size_connectBy : (l.connectBy distances overlap).1.size = l.size := by
  have hsame := congrArg size (l.clearTargets_connectBy distances overlap)
  simpa [size, clearTargets] using hsame

/-- Connecting adds no start. -/
lemma startCount_connectBy : (l.connectBy distances overlap).1.startCount = l.startCount := by
  have hkinds : ∀ l : Layout, l.clearTargets.startCount = l.startCount := fun l => by
    rw [startCount, clearTargets, List.countP_map]
    rfl
  rw [← hkinds, clearTargets_connectBy, hkinds]

end Layout

/-- **Pages within the limit compile:** those with one Begin sticker and no more stickers than the
limit. -/
theorem compileBy_isOk {δ : Type} (distances : δ → δ → Ordering) [Std.TransCmp distances]
    (overlap : Zone → Zone → Option δ) {options : GenerateOptions}
    (hcount : (Layout.ofMarkers catalog ms).1.startCount = 1)
    (hsize : (Layout.ofMarkers catalog ms).1.size ≤ options.maxChainDepth) :
    ∃ c, compileBy distances overlap catalog options ms = .ok c := by
  obtain ⟨g, hg⟩ := generate_isOk
    (((Layout.ofMarkers catalog ms).1.startCount_connectBy distances overlap).trans hcount)
    (((Layout.ofMarkers catalog ms).1.size_connectBy distances overlap).trans_le hsize)
  unfold compileBy
  dsimp only
  rcases hgenerate : generate ((Layout.ofMarkers catalog ms).1.connectBy distances overlap).1
    options with ⟨marked, r⟩
  rw [hgenerate] at hg
  obtain rfl : r = .ok g := hg
  exact ⟨_, rfl⟩

/-! ### Renamed compilations -/

/-- An error whose cause names another number. -/
def CompileError.rename (ρ : Equiv.Perm Nat) : CompileError → CompileError
  | .failure cause => .failure (cause.rename ρ)
  | e => e

/-- An error of the generation becomes a compile error, and its statement gets the new number
whether it is renamed before that or after it. -/
lemma CompileError.ofGenerate_rename (ρ : Equiv.Perm Nat) (e : GenerateError) :
    CompileError.ofGenerate (e.rename ρ) = (CompileError.ofGenerate e).rename ρ := by
  cases e <;> rfl

/-- **Renaming compilations.** Two compilations have the same program; its trace points, the marks
and the connections are the same under other numbers. -/
structure Compilation.IsRenaming (ρ : Equiv.Perm Nat) (c c' : Compilation) : Prop where
  instructions : c'.program.instructions = c.program.instructions
  listing : c'.program.listing = c.program.listing
  fingerprint : c'.program.fingerprint = c.program.fingerprint
  traceMap : ∀ point, c'.program.traceMap.get? point = (c.program.traceMap.get? point).map ρ
  layout : c.layout.IsRenaming ρ c'.layout

/-- **The order of markers does not matter.** If no two pairs that overlap have the same distance,
then compiling the same markers in another order has the same outcome: the same program, under the
numbers that the other order gives to the statements, or the same error. The measure of overlap is
any function, and distances are compared in any total order.

**Proof sketch.** The statements are the same under other numbers. Without ties there is one
stable matching whatever the numbers, so the renamed layout is connected alike; and the walk goes
along connectors and never compares numbers. -/
theorem compileBy_reorder {δ : Type} (distances : δ → δ → Ordering) [Std.TransCmp distances]
    (overlap : Zone → Zone → Option δ) (catalog : Catalog) (options : GenerateOptions)
    (π : Fin ms.length ≃ Fin ms'.length) (hπ : ∀ i, ms'[π i] = ms[i])
    (hties : (Layout.ofMarkers catalog ms).1.HasNoTies distances overlap) :
    ∃ ρ : Equiv.Perm Nat,
      (∀ i : Fin ms.length, catalog.knows ms[i] →
        ρ (catalog.numberOf ms i) = catalog.numberOf ms' (π i)) ∧
      ((∃ c c', compileBy distances overlap catalog options ms = .ok c ∧
          compileBy distances overlap catalog options ms' = .ok c' ∧ c.IsRenaming ρ c') ∨
        ∃ e, compileBy distances overlap catalog options ms = .error e ∧
          compileBy distances overlap catalog options ms' = .error (e.rename ρ)) := by
  obtain ⟨ρ, hnumber, hlayout⟩ := exists_isRenaming_ofMarkers catalog π hπ
  obtain ⟨hmarked, houtcome⟩ := renamed_generate (hlayout.connectBy hties) options
  refine ⟨ρ, hnumber, ?_⟩
  unfold compileBy
  dsimp only
  rcases hwritten : generate ((Layout.ofMarkers catalog ms).1.connectBy distances overlap).1
    options with ⟨marked, r⟩
  rcases hwritten' : generate ((Layout.ofMarkers catalog ms').1.connectBy distances overlap).1
    options with ⟨marked', r'⟩
  rw [hwritten, hwritten'] at hmarked houtcome
  dsimp only at hmarked houtcome
  rcases houtcome with ⟨g, g', rfl, rfl, hcode, htrace⟩ | ⟨e, rfl, rfl⟩
  · have hlisting : g'.program.listing = g.program.listing := by
      unfold Program.listing
      rw [hcode]
    have hfingerprint : g'.program.fingerprint = g.program.fingerprint := by
      unfold Program.fingerprint
      rw [hlisting]
    exact .inl ⟨_, _, rfl, rfl, hcode, hlisting, hfingerprint, htrace, hmarked⟩
  · exact .inr ⟨_, rfl, congrArg _ (CompileError.ofGenerate_rename ρ e)⟩

/-- A measure for which only sizes count: a plug overlaps the larger sockets, the nearer in size the
nearer. -/
def sizeGap (plug socket : Zone) : Option Int :=
  if plug.radius < socket.radius then some (totalRank socket.radius - totalRank plug.radius)
  else none

/-- A page of three stickers of different sizes, with a marker among them that nobody knows. -/
def sizedMarkers : List Marker :=
  [⟨31, ⟨0, 0⟩, 0, 20⟩, ⟨7, ⟨0, 0⟩, 0, 20⟩, ⟨47, ⟨0, 0⟩, 0, 30⟩, ⟨59, ⟨0, 0⟩, 0, 44⟩]

/-- The places of the markers if they are found from the last to the first. -/
def backwards : Fin sizedMarkers.length ≃ Fin sizedMarkers.reverse.length :=
  (Fin.revPerm : Equiv.Perm (Fin 4))

/-- Markers that are found from the last to the first have the same program; the first and the last
statement change their numbers. -/
theorem compileBy_reorder_backwards :
    (∀ i, sizedMarkers.reverse[backwards i] = sizedMarkers[i]) ∧
      (Layout.ofMarkers .standard sizedMarkers).1.HasNoTies compare sizeGap ∧
      ∃ ρ : Equiv.Perm Nat, ρ 0 = 2 ∧ ρ 1 = 1 ∧ ρ 2 = 0 ∧
        ∃ c c', compileBy compare sizeGap .standard {} sizedMarkers = .ok c ∧
          compileBy compare sizeGap .standard {} sizedMarkers.reverse = .ok c' ∧
          c.IsRenaming ρ c' := by
  have hπ : ∀ i, sizedMarkers.reverse[backwards i] = sizedMarkers[i] := by decide
  have hties : (Layout.ofMarkers .standard sizedMarkers).1.HasNoTies compare sizeGap := by
    unfold Layout.HasNoTies
    decide +kernel
  have hcompiles : ∃ c, compileBy compare sizeGap .standard {} sizedMarkers = .ok c :=
    compileBy_isOk compare sizeGap (by decide) (by decide)
  obtain ⟨ρ, hnumber, hsame | ⟨e, he, -⟩⟩ :=
    compileBy_reorder compare sizeGap .standard {} backwards hπ hties
  · exact ⟨hπ, hties, ρ, hnumber ⟨0, by decide⟩ (by decide), hnumber ⟨2, by decide⟩ (by decide),
      hnumber ⟨3, by decide⟩ (by decide), hsame⟩
  · obtain ⟨c, hc⟩ := hcompiles
    exact absurd (hc.symm.trans he) (by simp)

end StickerBot
