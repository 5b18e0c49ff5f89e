import Mathlib.Data.Finset.Image
import Mathlib.Logic.Equiv.Defs
import StickerBot.Proofs.StableMatching
set_option autoImplicit false

/-!
# Renamed layouts are connected alike

The numbers of statements come from the order in which markers were found, and they decide between
pairs at the same distance. If no two pairs have the same distance then numbers decide nothing: a
layout whose statements are numbered in another way is connected in the same way.

## Main definitions

* `Statement.rename`, `Layout.IsRenaming` — other numbers for the statements of a layout.
* `Matching.End.rename` — the same end with the other number.
* `Layout.HasNoTies` — no two pairs that meet have the same distance.

## Main results

* `Layout.IsStable.rename` — renaming a stable matching makes a stable matching.
* `Layout.IsRenaming.connectBy` — a renamed layout is connected as the layout is.
-/

namespace StickerBot

open Matching (End Candidate)

variable {δ : Type} {ρ : Equiv.Perm Nat}

/-! ### Other numbers -/

/-- The same connector, which leads to a statement of another number. -/
def Connector.rename (ρ : Equiv.Perm Nat) (c : Connector) : Connector :=
  { c with target := c.target.map ρ }

/-- **Renaming statements.** The same statement, whose connectors lead to other numbers. -/
def Statement.rename (ρ : Equiv.Perm Nat) (s : Statement) : Statement :=
  { s with connectors := s.connectors.map (Connector.rename ρ) }

/-- **Renaming layouts.** Another layout holds the same statements under other numbers. -/
def Layout.IsRenaming (ρ : Equiv.Perm Nat) (l l' : Layout) : Prop :=
  ∀ id, l'.get? (ρ id) = (l.get? id).map (Statement.rename ρ)

/-- The same end, whose statement has another number. -/
def Matching.End.rename (ρ : Equiv.Perm Nat) (e : End) : End := ⟨ρ e.statement, e.index⟩

/-- Renaming twice, there and back. -/
@[simp] lemma Connector.rename_symm_rename (ρ : Equiv.Perm Nat) (c : Connector) :
    (c.rename ρ).rename ρ.symm = c := by
  obtain ⟨name, direction, zone, target⟩ := c
  cases target <;> simp [Connector.rename]

/-- Renaming a statement there and back. -/
@[simp] lemma Statement.rename_symm_rename (ρ : Equiv.Perm Nat) (s : Statement) :
    (s.rename ρ).rename ρ.symm = s := by
  simp [Statement.rename, Function.comp_def]

/-- Renaming an end back and there. -/
@[simp] lemma Matching.End.rename_rename_symm (ρ : Equiv.Perm Nat) (e : End) :
    (e.rename ρ.symm).rename ρ = e := by
  simp [End.rename]

/-- Different ends stay different under a renaming. -/
@[simp] lemma Matching.End.rename_inj {e e' : End} : e.rename ρ = e'.rename ρ ↔ e = e' := by
  obtain ⟨s, i⟩ := e
  obtain ⟨s', i'⟩ := e'
  simp [End.rename]

namespace Layout

variable {l l' : Layout}

/-- What is renamed can be renamed back. -/
lemma IsRenaming.symm (h : l.IsRenaming ρ l') : l'.IsRenaming ρ.symm l := by
  intro id
  have hback := congrArg (Option.map (Statement.rename ρ.symm)) (h (ρ.symm id))
  rw [Equiv.apply_symm_apply, Option.map_map] at hback
  rw [hback]
  simp [Function.comp_def]

/-- Renamed ends have renamed connectors. -/
lemma IsRenaming.connectorAt? (h : l.IsRenaming ρ l') (e : End) :
    l'.connectorAt? (e.rename ρ) = (l.connectorAt? e).map (Connector.rename ρ) := by
  unfold Layout.connectorAt? End.rename
  rw [h]
  cases l.get? e.statement <;> simp [Statement.rename]

/-! ### Renamed matchings -/

/-- Renamed ends meet where the ends meet. -/
lemma IsRenaming.meets {overlap : Zone → Zone → Option δ} (h : l.IsRenaming ρ l') {p q : End}
    {d : δ} (hmeets : l.Meets overlap p q d) :
    l'.Meets overlap (p.rename ρ) (q.rename ρ) d := by
  obtain ⟨hapart, plug, socket, hp, hq, hplug, hsocket, hd⟩ := hmeets
  refine ⟨fun heq => hapart (ρ.injective heq), plug.rename ρ, socket.rename ρ, ?_, ?_, hplug,
    hsocket, hd⟩
  · rw [h.connectorAt?, hp, Option.map_some]
  · rw [h.connectorAt?, hq, Option.map_some]

/-- Ends meet where the renamed ends meet. -/
lemma IsRenaming.of_meets {overlap : Zone → Zone → Option δ} (h : l.IsRenaming ρ l') {p q : End}
    {d : δ} (hmeets : l'.Meets overlap p q d) :
    l.Meets overlap (p.rename ρ.symm) (q.rename ρ.symm) d := h.symm.meets hmeets

/-- The same pairs under other numbers. -/
def renamePairs (ρ : Equiv.Perm Nat) (M : Finset (End × End)) : Finset (End × End) :=
  M.image fun x => (x.1.rename ρ, x.2.rename ρ)

/-- The renamed pairs are those whose ends are the renamed ends of a pair. -/
lemma mem_renamePairs {M : Finset (End × End)} {x : End × End} :
    x ∈ renamePairs ρ M ↔ ∃ y ∈ M, (y.1.rename ρ, y.2.rename ρ) = x := Finset.mem_image

/-- **No ties.** No two pairs that meet have the same distance. -/
def HasNoTies (distances : δ → δ → Ordering) (overlap : Zone → Zone → Option δ) (l : Layout) :
    Prop :=
  ∀ c ∈ Matching.candidates overlap l, ∀ c' ∈ Matching.candidates overlap l,
    distances c.distance c'.distance = .eq → c.plug = c'.plug ∧ c.socket = c'.socket

/-- **Stability does not depend on numbers**, if no two pairs have the same distance.

**Proof sketch.** Pairs meet where the renamed pairs meet, so that only the order is in question. An
earlier pair is a nearer one, since ties are excluded, and how near pairs are does not depend on
numbers. -/
theorem IsStable.rename {distances : δ → δ → Ordering} {overlap : Zone → Zone → Option δ}
    {M : Finset (End × End)} (hM : l.IsStable distances overlap M)
    (h : l.IsRenaming ρ l') (hties : l.HasNoTies distances overlap) :
    l'.IsStable distances overlap (renamePairs ρ M) := by
  constructor
  · intro x hx
    obtain ⟨y, hy, rfl⟩ := mem_renamePairs.1 hx
    obtain ⟨d, hd⟩ := hM.meets y hy
    exact ⟨d, h.meets hd⟩
  · intro x hx x' hx' e he he'
    obtain ⟨y, hy, rfl⟩ := mem_renamePairs.1 hx
    obtain ⟨y', hy', rfl⟩ := mem_renamePairs.1 hx'
    rw [← e.rename_rename_symm ρ] at he he'
    simp only [End.rename_inj] at he he'
    rw [hM.apart y hy y' hy' _ he he']
  · intro p q d hmeets hnot
    have hmeets := h.of_meets hmeets
    have hnot : (p.rename ρ.symm, q.rename ρ.symm) ∉ M := fun hmem =>
      hnot (mem_renamePairs.2 ⟨_, hmem, by simp⟩)
    obtain ⟨x, hx, d', hmeets', hshare, hlt⟩ := hM.stable _ _ _ hmeets hnot
    refine ⟨_, mem_renamePairs.2 ⟨x, hx, rfl⟩, d', h.meets hmeets', ?_, ?_⟩
    · refine hshare.imp (fun heq => ?_) fun heq => ?_ <;> rw [← heq, End.rename_rename_symm]
    · -- the earlier pair is nearer, for it is not at the same distance
      have hnearer : distances d' d = .lt := by
        rcases Ordering.then_eq_lt.1 hlt with hlt | ⟨heq, -⟩
        · exact hlt
        · obtain ⟨hplug, hsocket⟩ := hties ⟨d', x.1, x.2⟩ (Matching.mem_candidates.2 hmeets')
            ⟨d, _, _⟩ (Matching.mem_candidates.2 hmeets) heq
          have hsame : x = (p.rename ρ.symm, q.rename ρ.symm) := Prod.ext hplug hsocket
          exact absurd (hsame ▸ hx) hnot
      exact Ordering.then_eq_lt.2 (.inl hnearer)

end Layout

/-! ### Renamed connections -/

namespace Statement

/-- New numbers do not matter where there are no connections. -/
@[simp] lemma clearTargets_rename (s : Statement) :
    (s.rename ρ).clearTargets = s.clearTargets := by
  simp [Statement.clearTargets, Statement.rename, Connector.rename, Function.comp_def]

/-- A statement is another one under other numbers if it is so but for its connections, and its
connectors lead to the other numbers. -/
lemma eq_rename {s s' : Statement}
    (hrest : s'.clearTargets = s.clearTargets)
    (htargets : ∀ i : Nat, (s'.connectors[i]?).bind Connector.target =
      ((s.connectors[i]?).bind Connector.target).map ρ) : s' = s.rename ρ := by
  obtain ⟨kind, name, marker, connectors, isCompiled, isDangling⟩ := s
  obtain ⟨kind', name', marker', connectors', isCompiled', isDangling'⟩ := s'
  simp only [Statement.clearTargets, Statement.mk.injEq] at hrest
  obtain ⟨rfl, rfl, rfl, hconnectors, rfl, rfl⟩ := hrest
  simp only [Statement.rename, Statement.mk.injEq, true_and, and_true]
  refine List.ext_getElem? fun i => ?_
  have hclear := congrArg (fun cs : List Connector => cs[i]?) hconnectors
  have htarget := htargets i
  simp only [List.getElem?_map] at hclear htarget ⊢
  cases hc : connectors[i]? with
  | none => simpa [hc] using hclear
  | some c =>
    obtain ⟨c', hc', hsame⟩ := Option.map_eq_some_iff.1 (hclear.trans (by rw [hc]; rfl))
    rw [hc, hc', Option.bind_some, Option.bind_some] at htarget
    obtain ⟨cname, direction, zone, target⟩ := c
    obtain ⟨cname', direction', zone', target'⟩ := c'
    simp only [Connector.mk.injEq, and_true] at hsame
    obtain ⟨rfl, rfl, rfl⟩ := hsame
    rw [hc', Option.map_some, Connector.rename, ← htarget]

end Statement

namespace Layout

variable {l l' : Layout}

/-- Statements are found alike but for their connections. -/
lemma map_clearTargets_get? (h : l'.clearTargets = l.clearTargets) (id : Nat) :
    (l'.get? id).map Statement.clearTargets = (l.get? id).map Statement.clearTargets := by
  have hget := congrArg (fun l => l.get? id) h
  simpa only [clearTargets, get?, List.getElem?_map] using hget

/-- A layout that joins the renamed pairs is a renaming of one that joins the pairs.

**Proof sketch.** An end that is in a pair leads to its partner, and an end in no pair leads
nowhere, in both layouts. All the rest of a statement is not changed by joining. -/
lemma IsRenaming.joins {M : Finset (End × End)} {joined joined' : Layout}
    (h : l.IsRenaming ρ l') (hjoins : l.Joins M joined)
    (hjoins' : l'.Joins (renamePairs ρ M) joined') : joined.IsRenaming ρ joined' := by
  have htarget : ∀ e, joined'.target? (e.rename ρ) = (joined.target? e).map ρ := by
    intro e
    by_cases hpaired : ∃ x ∈ M, e = x.1 ∨ e = x.2
    · obtain ⟨x, hx, hend⟩ := hpaired
      obtain ⟨hplug, hsocket⟩ := hjoins.paired x hx
      obtain ⟨hplug', hsocket'⟩ := hjoins'.paired _ (mem_renamePairs.2 ⟨x, hx, rfl⟩)
      rcases hend with rfl | rfl
      · rw [hplug, hplug']
        rfl
      · rw [hsocket, hsocket']
        rfl
    · rw [hjoins.alone e fun x hx => ⟨fun heq => hpaired ⟨x, hx, .inl heq⟩,
        fun heq => hpaired ⟨x, hx, .inr heq⟩⟩]
      refine hjoins'.alone _ fun x' hx' => ?_
      obtain ⟨x, hx, rfl⟩ := mem_renamePairs.1 hx'
      simp only [ne_eq, End.rename_inj]
      exact ⟨fun heq => hpaired ⟨x, hx, .inl heq⟩, fun heq => hpaired ⟨x, hx, .inr heq⟩⟩
  intro id
  have hrest := map_clearTargets_get? hjoins.rest id
  have hrest' := map_clearTargets_get? hjoins'.rest (ρ id)
  rw [h, Option.map_map] at hrest'
  have hsame : (joined'.get? (ρ id)).map Statement.clearTargets =
      (joined.get? id).map Statement.clearTargets := by
    rw [hrest', hrest]
    simp [Function.comp_def]
  cases hs : joined.get? id with
  | none => simpa [hs] using hsame
  | some s =>
    obtain ⟨s', hs', hclear⟩ := Option.map_eq_some_iff.1 (hsame.trans (by rw [hs]; rfl))
    rw [hs', Option.map_some, Statement.eq_rename hclear fun i => ?_]
    have hend := htarget ⟨id, i⟩
    unfold Layout.target? Layout.connectorAt? End.rename at hend
    rwa [hs, hs', Option.bind_some, Option.bind_some] at hend

/-- **Renamed layouts are connected alike**, if no two pairs have the same distance. -/
theorem IsRenaming.connectBy {distances : δ → δ → Ordering} [Std.TransCmp distances]
    {overlap : Zone → Zone → Option δ} (h : l.IsRenaming ρ l')
    (hties : l.HasNoTies distances overlap) :
    (l.connectBy distances overlap).1.IsRenaming ρ (l'.connectBy distances overlap).1 := by
  obtain ⟨M, hM, hjoins, -⟩ := l.exists_isStable_joins distances overlap
  obtain ⟨M', hM', hjoins', -⟩ := l'.exists_isStable_joins distances overlap
  obtain rfl := hM'.eq (hM.rename h hties)
  exact h.joins hjoins hjoins'

end Layout

end StickerBot
