import Mathlib.Data.List.Nodup
import Mathlib.Logic.Relation
import StickerBot.Proofs.Chain
set_option autoImplicit false

/-!
# The chain holds what can be reached

The chain of a page is found by going down the first branch to its end, then the next, and never
twice to the same statement. What it holds does not depend on this order: it holds each statement
once that can be reached along outgoing connectors without going through a parameter.

## Main definitions

* `Layout.IsFlow` — the statements that are no parameters.
* `Layout.LeadsTo`, `Layout.Reaches` — one connector, and any number of them one after the other.

## Main results

* `Layout.nodup_chain` — a chain holds nothing twice.
* `Layout.mem_chain_iff` — the chain from a statement holds what can be reached from it.
-/

namespace StickerBot

namespace Layout

/-- **Flow.** There is a statement of this number, and it is no parameter. -/
def IsFlow (l : Layout) (id : Nat) : Prop :=
  ∃ s, l.get? id = some s ∧ s.kind.isParameter = false

/-- **Leading.** An outgoing connector of one statement of the flow leads to another. -/
def LeadsTo (l : Layout) (id next : Nat) : Prop :=
  ∃ s, l.get? id = some s ∧ s.kind.isParameter = false ∧
    next ∈ s.outgoing.filterMap Connector.target ∧ l.IsFlow next

/-- **Reaching.** One statement leads to another, over any number of statements of the flow. -/
def Reaches (l : Layout) : Nat → Nat → Prop := Relation.ReflTransGen l.LeadsTo

variable {l : Layout}

/-- **Induction along a chain.** The next statement to visit is left out, or it is on the chain. -/
@[elab_as_elim]
lemma chain_induction (l : Layout) {motive : List Nat → List Nat → Prop}
    (nil : ∀ seen, motive seen [])
    (skip : ∀ seen id todo, (∀ s, l.get? id = some s → s.kind.isParameter = true ∨ id ∈ seen) →
      motive seen todo → motive seen (id :: todo))
    (new : ∀ seen id todo s, l.get? id = some s → s.kind.isParameter = false → id ∉ seen →
      motive (id :: seen) (s.outgoing.filterMap Connector.target ++ todo) →
      motive seen (id :: todo))
    (seen todo : List Nat) : motive seen todo := by
  induction seen, todo using chain.induct l with
  | case1 seen => exact nil seen
  | case2 seen id todo hnone ih => exact skip seen id todo (by simp [hnone]) ih
  | case3 seen id todo s hs hp ih => exact skip seen id todo (by simp [hs, hp]) ih
  | case4 seen id todo s hs hp hold ih => exact skip seen id todo (fun _ _ => .inr hold) ih
  | case5 seen id todo s hs hp hnew ih => exact new seen id todo s hs (by simpa using hp) hnew ih

/-- What is on a chain is of the flow, was not seen before, and is reached from a statement to
visit. -/
lemma of_mem_chain (l : Layout) (seen todo : List Nat) : ∀ id ∈ l.chain seen todo,
    l.IsFlow id ∧ id ∉ seen ∧ ∃ first ∈ todo, l.Reaches first id := by
  induction seen, todo using chain_induction l with
  | nil seen =>
    intro id h
    rw [chain] at h
    exact absurd h List.not_mem_nil
  | skip seen head todo hskip ih =>
    intro id h
    rw [chain_skip _ hskip] at h
    obtain ⟨hflow, hseen, first, hfirst, hreach⟩ := ih id h
    exact ⟨hflow, hseen, first, List.mem_cons_of_mem _ hfirst, hreach⟩
  | new seen head todo s hs hp hnew ih =>
    intro id h
    rw [chain_new _ hs hp hnew] at h
    rcases List.mem_cons.1 h with rfl | h
    · exact ⟨⟨s, hs, hp⟩, hnew, id, List.mem_cons_self, .refl⟩
    · obtain ⟨hflow, hseen, first, hfirst, hreach⟩ := ih id h
      refine ⟨hflow, fun hin => hseen (List.mem_cons_of_mem _ hin), ?_⟩
      rcases List.mem_append.1 hfirst with hfirst | hfirst
      · -- the first statement after the head is reached from the head
        have hfirstFlow : l.IsFlow first := by
          rcases Relation.ReflTransGen.cases_head hreach with rfl | ⟨_, ⟨t, ht, htp, -⟩, -⟩
          · exact hflow
          · exact ⟨t, ht, htp⟩
        exact ⟨head, List.mem_cons_self, .head ⟨s, hs, hp, hfirst, hfirstFlow⟩ hreach⟩
      · exact ⟨first, List.mem_cons_of_mem _ hfirst, hreach⟩

/-- **No statement twice.** -/
theorem nodup_chain (l : Layout) (seen todo : List Nat) : (l.chain seen todo).Nodup := by
  induction seen, todo using chain_induction l with
  | nil seen =>
    rw [chain]
    exact .nil
  | skip seen head todo hskip ih =>
    rw [chain_skip _ hskip]
    exact ih
  | new seen head todo s hs hp hnew ih =>
    rw [chain_new _ hs hp hnew]
    refine List.nodup_cons.2 ⟨fun h => ?_, ih⟩
    exact (of_mem_chain l _ _ _ h).2.1 List.mem_cons_self

/-- What was seen and what is on the chain is closed: it holds what was to be visited, and what
the chain leads to. -/
lemma chain_closed (l : Layout) (seen todo : List Nat) :
    (∀ id ∈ todo, l.IsFlow id → id ∈ seen ∨ id ∈ l.chain seen todo) ∧
      ∀ id ∈ l.chain seen todo, ∀ next, l.LeadsTo id next →
        next ∈ seen ∨ next ∈ l.chain seen todo := by
  induction seen, todo using chain_induction l with
  | nil seen =>
    rw [chain]
    exact ⟨fun _ h => absurd h List.not_mem_nil, fun _ h => absurd h List.not_mem_nil⟩
  | skip seen head todo hskip ih =>
    rw [chain_skip _ hskip]
    refine ⟨fun id h hflow => ?_, ih.2⟩
    rcases List.mem_cons.1 h with rfl | h
    · obtain ⟨s, hs, hp⟩ := hflow
      exact .inl ((hskip s hs).resolve_left (by simp [hp]))
    · exact ih.1 id h hflow
  | new seen head todo s hs hp hnew ih =>
    rw [chain_new _ hs hp hnew]
    have hmove : ∀ {id chain}, id ∈ head :: seen ∨ id ∈ chain →
        id ∈ seen ∨ id ∈ head :: chain := by
      intro id chain h
      simp only [List.mem_cons] at h ⊢
      rcases h with (h | h) | h
      · exact .inr (.inl h)
      · exact .inl h
      · exact .inr (.inr h)
    constructor
    · intro id h hflow
      rcases List.mem_cons.1 h with rfl | h
      · exact .inr List.mem_cons_self
      · exact hmove (ih.1 id (List.mem_append_right _ h) hflow)
    · intro id h next hleads
      rcases List.mem_cons.1 h with rfl | h
      · obtain ⟨t, ht, -, hnext, hflow⟩ := hleads
        obtain rfl := Option.some.inj (hs.symm.trans ht)
        exact hmove (ih.1 next (List.mem_append_left _ hnext) hflow)
      · exact hmove (ih.2 id h next hleads)

/-- **What is on a chain.** The chain from a statement of the flow holds exactly the statements
that can be reached from it. -/
theorem mem_chain_iff {start : Nat} (h : l.IsFlow start) {id : Nat} :
    id ∈ l.chain [] [start] ↔ l.Reaches start id := by
  constructor
  · intro hid
    obtain ⟨-, -, first, hfirst, hreach⟩ := of_mem_chain l _ _ _ hid
    obtain rfl := List.mem_singleton.1 hfirst
    exact hreach
  · intro hreach
    obtain ⟨htodo, hclosed⟩ := chain_closed l [] [start]
    induction hreach with
    | refl => exact (htodo start List.mem_cons_self h).resolve_left List.not_mem_nil
    | tail _ hleads ih => exact (hclosed _ ih _ hleads).resolve_left List.not_mem_nil

end Layout

end StickerBot
