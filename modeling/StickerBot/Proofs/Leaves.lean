import Mathlib.Tactic.Lemma
import StickerBot.Matching
import StickerBot.Wire.Layout
set_option autoImplicit false

/-!
# Parameters are leaves

A catalog refuses a parameter that reaches out for another sticker. So however a catalog was made,
the parameters of a page have sockets alone, and nothing can be connected behind them.

## Main definitions

* `Catalog.IsMade` — the catalogs that there are.
* `Catalog.LeafParameters`, `Layout.LeafParameters` — parameters have no plugs.

## Main results

* `Catalog.isMade_ofText` — a catalog that is read is one of those.
* `Catalog.IsMade.leafParameters` — the parameters of every catalog are leaves.
* `Layout.leafParameters_ofMarkers`, `Layout.leafParameters_connectBy` — and so on every page,
  connected or not.
-/

namespace StickerBot

/-! ### In catalogs -/

namespace Catalog

/-- **Made catalogs.** A catalog is the one without stickers or the standard sheet, or it has taken
in a template. There are no others, for nobody else can put a template into one. -/
inductive IsMade : Catalog → Prop where
  | empty : IsMade .empty
  | standard : IsMade .standard
  | insert {catalog catalog' : Catalog} {t : Template} (h : IsMade catalog)
    (hinsert : catalog.insert t = .ok catalog') : IsMade catalog'

/-- Catalogs are filled with templates one after the other. -/
lemma IsMade.insertAll (ts : List Template) : ∀ {catalog catalog' : Catalog},
    catalog.IsMade → catalog.insertAll ts = .ok catalog' → catalog'.IsMade := by
  induction ts with
  | nil =>
    intro catalog catalog' h hall
    obtain rfl := Except.ok.inj hall
    exact h
  | cons t ts ih =>
    intro catalog catalog' h hall
    rw [Catalog.insertAll] at hall
    split at hall
    · rename_i next hinsert
      exact ih (h.insert hinsert) hall
    · exact nomatch hall

/-- **Catalogs that are read** are filled with templates. -/
theorem isMade_ofText {text : String} {catalog : Catalog} (h : ofText text = .ok catalog) :
    catalog.IsMade := by
  unfold ofText at h
  split at h
  · exact IsMade.empty.insertAll _ h
  · exact nomatch h

/-- **Leaf parameters.** The parameters of a catalog have no plugs. -/
def LeafParameters (catalog : Catalog) : Prop :=
  ∀ code t, catalog.get? code = some t → t.kind.isParameter = true →
    ∀ c ∈ t.connectors, c.direction.isPlug = false

/-- The catalog without templates has leaf parameters, as it has no parameters. -/
lemma leafParameters_empty : LeafParameters .empty := by
  intro code t h
  exact absurd h (by simp [get?, empty, Table.get?, Table.empty])

/-- A parameter without fault has no plugs. -/
lemma isPlug_of_fault?_eq_none {t : Template} (h : t.fault? = none)
    (hp : t.kind.isParameter = true) : ∀ c ∈ t.connectors, c.direction.isPlug = false := by
  unfold Template.fault? at h
  simp only [hp, if_true] at h
  -- only the last of the checks is of interest
  split at h
  · exact nomatch h
  · split at h
    · exact nomatch h
    · split at h
      · exact nomatch h
      · split at h
        · exact nomatch h
        · rename_i hnone
          simpa using hnone

/-- What a catalog takes in keeps its parameters leaves. -/
lemma leafParameters_insert {catalog catalog' : Catalog} (h : catalog.LeafParameters) {t : Template}
    (hinsert : catalog.insert t = .ok catalog') : catalog'.LeafParameters := by
  unfold insert at hinsert
  split at hinsert
  · exact nomatch hinsert
  · rename_i hfault
    split at hinsert
    · exact nomatch hinsert
    · obtain rfl := Except.ok.inj hinsert
      intro code t' ht'
      by_cases hcode : code = t.code
      · subst hcode
        obtain rfl : t = t' := Option.some.inj ((Table.get?_insert_self ..).symm.trans ht')
        exact isPlug_of_fault?_eq_none hfault
      · exact h code t' ((Table.get?_insert_of_ne _ _ hcode).symm.trans ht')

/-- The standard sheet has leaves for parameters. -/
lemma leafParameters_standard : standard.LeafParameters := by
  have hall : standard.templates.entries.all (fun e => !e.2.kind.isParameter ||
      e.2.connectors.all fun c => !c.direction.isPlug) = true := by decide +kernel
  intro code t ht hp c hc
  obtain ⟨e, he, rfl⟩ := Option.map_eq_some_iff.1 ht
  have hentry := List.all_eq_true.1 hall e (List.mem_of_find?_eq_some he)
  rw [hp, Bool.not_true, Bool.false_or] at hentry
  simpa using List.all_eq_true.1 hentry c hc

/-- **Catalogs** have leaves for parameters. -/
theorem IsMade.leafParameters {catalog : Catalog} (h : catalog.IsMade) :
    catalog.LeafParameters := by
  induction h with
  | empty => exact leafParameters_empty
  | standard => exact leafParameters_standard
  | insert _ hinsert ih => exact leafParameters_insert ih hinsert

end Catalog

/-! ### On pages -/

namespace Layout

/-- **Leaf parameters.** The parameters of a page have no plugs. -/
def LeafParameters (l : Layout) : Prop :=
  ∀ id s, l.get? id = some s → s.kind.isParameter = true →
    ∀ c ∈ s.connectors, c.direction.isPlug = false

variable {l : Layout}

/-- A page has the connectors of its catalog. -/
theorem leafParameters_ofMarkers {catalog : Catalog} (h : catalog.LeafParameters)
    (ms : List Marker) : (ofMarkers catalog ms).1.LeafParameters := by
  intro id s hs hp c hc
  obtain ⟨m, -, hm⟩ := List.mem_filterMap.1 (List.mem_of_getElem? hs)
  obtain ⟨t, ht, rfl⟩ := Option.map_eq_some_iff.1 hm
  obtain ⟨c', hc', rfl⟩ := List.mem_map.1 hc
  exact h m.code t ht hp c' hc'

/-- Letting a connector lead elsewhere makes it no plug. -/
lemma LeafParameters.setTarget (h : l.LeafParameters) (id index : Nat) (target : Option Nat) :
    (l.setTarget id index target).LeafParameters := by
  intro i s hs hp c hc
  unfold Layout.setTarget at hs
  by_cases hi : id = i
  · subst hi
    rw [get?_modify_self] at hs
    obtain ⟨s₀, hs₀, rfl⟩ := Option.map_eq_some_iff.1 hs
    obtain ⟨place, hplace⟩ := List.mem_iff_getElem?.1 hc
    rw [List.getElem?_modify] at hplace
    obtain ⟨c₀, hc₀, rfl⟩ := Option.map_eq_some_iff.1 hplace
    have hplug := h id s₀ hs₀ hp c₀ (List.mem_of_getElem? hc₀)
    split <;> exact hplug
  · rw [get?_modify_of_ne _ _ hi] at hs
    exact h i s hs hp c hc

/-- Taking connections away makes no connector a plug. -/
lemma LeafParameters.clearTargets (h : l.LeafParameters) : l.clearTargets.LeafParameters := by
  intro id s hs hp c hc
  obtain ⟨s₀, hs₀, rfl⟩ : ∃ s₀, l.get? id = some s₀ ∧ s₀.clearTargets = s := by
    simpa [get?, Layout.clearTargets] using hs
  obtain ⟨c₀, hc₀, rfl⟩ := List.mem_map.1 hc
  exact h id s₀ hs₀ hp c₀ hc₀

/-- **Connecting** makes no connector a plug. -/
theorem leafParameters_connectBy {δ : Type} (h : l.LeafParameters) (distances : δ → δ → Ordering)
    (overlap : Zone → Zone → Option δ) : (l.connectBy distances overlap).1.LeafParameters := by
  have hjoin : ∀ (cs : List (Matching.Candidate δ)) (state : Layout × Nat),
      state.1.LeafParameters → (cs.foldl Matching.join state).1.LeafParameters := by
    intro cs
    induction cs with
    | nil => exact fun _ h => h
    | cons c cs ih =>
      intro state hstate
      refine ih _ ?_
      simp only [Matching.join]
      split
      · exact (hstate.setTarget _ _ _).setTarget _ _ _
      · exact hstate
  exact hjoin _ _ h.clearTargets

/-- A parameter has no loose ends, for it has nothing to connect. -/
lemma LeafParameters.outgoing_eq_nil (h : l.LeafParameters) {id : Nat} {s : Statement}
    (hs : l.get? id = some s) (hp : s.kind.isParameter = true) : s.outgoing = [] := by
  refine List.filter_eq_nil_iff.2 fun c hc hout => ?_
  have hplug := h id s hs hp c hc
  rw [of_decide_eq_true hout] at hplug
  exact absurd hplug (by simp [Direction.isPlug])

end Layout

end StickerBot
