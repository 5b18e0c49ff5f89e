import Mathlib.Data.Finset.Card
import Mathlib.Data.Fintype.Card
import Mathlib.Data.Set.Finite.List
import Mathlib.Tactic.Lemma
import Mathlib.Tactic.Set
import StickerBot.Matching
set_option autoImplicit false

/-!
# Connecting finds the stable matching

Plugs and sockets that overlap may be joined in many ways. Exactly one of them is stable: a pair
that overlaps and is not joined has an end in a joined pair that comes earlier. This is the one
that connecting finds, whatever connections there were before.

## Main definitions

* `Layout.connectorAt?`, `Layout.target?` — the connector at an end, and where it leads.
* `Layout.Meets` — a plug and a socket of different statements overlap.
* `Layout.IsStable` — stable matchings of a layout.
* `Layout.Joins` — a layout differs from another in its connections only, and these are those of
  a matching.

## Main results

* `Matching.mem_candidates` — the candidates are the pairs that meet.
* `Layout.IsStable.eq` — there is at most one stable matching.
* `Layout.connectBy_stable` — connecting joins the stable matching.

## Design

Candidates are taken one after the other, and each that is taken makes its ends useless for those
after it. So what is taken depends only on the candidates taken before (`Matching.take`), and the
layout is no more than a record of them (`Matching.Records`).
-/

namespace StickerBot

open Matching (End Candidate)

variable {δ : Type}

/-! ### Ends of a layout -/

namespace Layout

/-- The connector at an end. -/
def connectorAt? (l : Layout) (e : End) : Option Connector :=
  (l.get? e.statement).bind fun s => s.connectors[e.index]?

/-- Where the connector at an end leads. -/
def target? (l : Layout) (e : End) : Option Nat := (l.connectorAt? e).bind Connector.target

/-- Setting a target changes the connector at its end and no other. Ends that differ are of
different statements, or have different indices in the same statement; in both cases what is set
elsewhere is not seen. -/
lemma connectorAt?_setTarget (l : Layout) (e e' : End) (target : Option Nat) :
    (l.setTarget e.statement e.index target).connectorAt? e' =
      if e' = e then (l.connectorAt? e).map fun c => { c with target := target }
      else l.connectorAt? e' := by
  obtain ⟨id, i⟩ := e
  obtain ⟨id', i'⟩ := e'
  simp only [connectorAt?, setTarget, End.mk.injEq]
  by_cases hid : id' = id
  · subst hid
    rw [get?_modify_self]
    rcases l.get? id' with _ | s
    · simp
    · by_cases hi : i' = i
      · subst hi
        simp
      · simp [hi, Ne.symm hi]
  · rw [get?_modify_of_ne _ _ (Ne.symm hid)]
    simp [hid]

/-- Taking the connections away leaves every connector but for its target. -/
lemma connectorAt?_clearTargets (l : Layout) (e : End) :
    l.clearTargets.connectorAt? e = (l.connectorAt? e).map fun c => { c with target := none } := by
  simp only [connectorAt?, clearTargets, get?, List.getElem?_map]
  rcases l.statements[e.statement]? with _ | s
  · rfl
  · simp [Statement.clearTargets]

/-- A change that a function does not see leaves its values as they were. -/
lemma map_modify_of_eq {α β : Type} {f : α → α} {g : α → β} (h : ∀ x, g (f x) = g x)
    (xs : List α) (i : Nat) : (xs.modify i f).map g = xs.map g := by
  apply List.ext_getElem?
  intro j
  rw [List.getElem?_map, List.getElem?_map, List.getElem?_modify]
  by_cases hj : i = j <;> rcases xs[j]? with _ | x <;> simp [hj, h]

/-- A target that was set is taken away with the others. -/
@[simp] lemma clearTargets_setTarget (l : Layout) (id index : Nat) (target : Option Nat) :
    (l.setTarget id index target).clearTargets = l.clearTargets := by
  simp only [clearTargets, setTarget, modify, Layout.mk.injEq]
  refine map_modify_of_eq (fun s => ?_) l.statements id
  simp only [Statement.clearTargets, Statement.mk.injEq, true_and, and_true]
  apply map_modify_of_eq
  intro c
  rfl

/-- Connections that were taken away are not there to take away again. -/
@[simp] lemma clearTargets_clearTargets (l : Layout) :
    l.clearTargets.clearTargets = l.clearTargets := by
  simp [clearTargets, Statement.clearTargets, Function.comp_def]

/-- **Meeting.** A plug and a socket of different statements overlap at a distance. -/
structure Meets (overlap : Zone → Zone → Option δ) (l : Layout) (p q : End) (d : δ) : Prop where
  apart : p.statement ≠ q.statement
  overlaps : ∃ plug socket, l.connectorAt? p = some plug ∧ l.connectorAt? q = some socket ∧
    plug.direction.isPlug = true ∧ socket.direction = .incoming ∧
    overlap plug.zone socket.zone = some d

section Meets

variable {overlap : Zone → Zone → Option δ} {l : Layout} {p q : End} {d : δ}

/-- Which ends meet does not depend on the connections. -/
@[simp] lemma meets_clearTargets : l.clearTargets.Meets overlap p q d ↔ l.Meets overlap p q d := by
  constructor
  · rintro ⟨hapart, plug', socket', hp, hq, hplug, hsocket, hd⟩
    rw [connectorAt?_clearTargets] at hp hq
    obtain ⟨plug, hp', rfl⟩ := Option.map_eq_some_iff.1 hp
    obtain ⟨socket, hq', rfl⟩ := Option.map_eq_some_iff.1 hq
    exact ⟨hapart, plug, socket, hp', hq', hplug, hsocket, hd⟩
  · rintro ⟨hapart, plug, socket, hp, hq, hplug, hsocket, hd⟩
    refine ⟨hapart, { plug with target := none }, { socket with target := none }, ?_, ?_, hplug,
      hsocket, hd⟩
    · rw [connectorAt?_clearTargets, hp, Option.map_some]
    · rw [connectorAt?_clearTargets, hq, Option.map_some]

/-- No plug is a socket. -/
lemma Meets.plug_ne_socket (h : l.Meets overlap p q d) {p' q' : End} {d' : δ}
    (h' : l.Meets overlap p' q' d') : p ≠ q' := by
  rintro rfl
  obtain ⟨-, plug, -, hp, -, hplug, -⟩ := h
  obtain ⟨-, -, socket, -, hp', -, hsocket, -⟩ := h'
  obtain rfl := Option.some.inj (hp.symm.trans hp')
  simp [hsocket, Direction.isPlug] at hplug

end Meets

end Layout

namespace Matching

/-- The ends of one sort are those whose connectors are of this sort. -/
lemma mem_ends {l : Layout} {plugs : Bool} {e : End} {c : Connector} :
    (e, c) ∈ ends l plugs ↔ l.connectorAt? e = some c ∧ c.direction.isPlug = plugs := by
  simp only [ends, Layout.numbered, List.mem_flatMap, List.mem_map, List.mem_filter, Prod.exists,
    Prod.mk.injEq, List.mem_zipIdx_iff_getElem?, Layout.connectorAt?, Layout.get?,
    Option.bind_eq_some_iff, decide_eq_true_eq]
  constructor
  · rintro ⟨s, id, hs, c', i, ⟨hc, hplug⟩, rfl, rfl⟩
    exact ⟨⟨s, hs, hc⟩, hplug⟩
  · rintro ⟨⟨s, hs, hc⟩, hplug⟩
    exact ⟨s, e.statement, hs, c, e.index, ⟨hc, hplug⟩, rfl, rfl⟩

/-- **Candidates** are the pairs of ends that meet. They are collected by going through all plugs
and, for each of them, through all sockets, and keeping those that are of two statements and
overlap. -/
theorem mem_candidates {overlap : Zone → Zone → Option δ} {l : Layout} {c : Candidate δ} :
    c ∈ candidates overlap l ↔ l.Meets overlap c.plug c.socket c.distance := by
  have hsocket : ∀ d : Direction, d.isPlug = false ↔ d = .incoming := by
    intro d
    cases d <;> simp [Direction.isPlug]
  simp only [candidates, List.mem_flatMap, List.mem_filterMap, Prod.exists, mem_ends]
  constructor
  · rintro ⟨p, plug, ⟨hp, hplug⟩, q, socket, ⟨hq, hincoming⟩, h⟩
    split at h
    · exact absurd h (by simp)
    · rename_i hapart
      obtain ⟨d, hd, rfl⟩ := Option.map_eq_some_iff.1 h
      exact ⟨hapart, plug, socket, hp, hq, hplug, (hsocket _).1 hincoming, hd⟩
  · rintro ⟨hapart, plug, socket, hp, hq, hplug, hincoming, hd⟩
    refine ⟨c.plug, plug, ⟨hp, hplug⟩, c.socket, socket, ⟨hq, (hsocket _).2 hincoming⟩, ?_⟩
    rw [if_neg hapart, hd, Option.map_some]

/-! ### The order of candidates -/

section Order

variable {distances : δ → δ → Ordering}

/-- Ends are compared by their statements and then by their indices, which is a consistent order. -/
instance : Std.TransCmp End.compare := inferInstanceAs (Std.TransCmp (compareLex _ _))

/-- Ends that come neither before nor after one another are the same. -/
instance : Std.LawfulEqCmp End.compare where
  eq_of_compare := by
    rintro ⟨s, i⟩ ⟨s', i'⟩ h
    obtain ⟨hs, hi⟩ := compareLex_eq_eq.1 h
    rw [End.mk.injEq]
    exact ⟨Std.LawfulEqOrd.eq_of_compare hs, Std.LawfulEqOrd.eq_of_compare hi⟩

/-- A comparison of parts is a comparison. -/
lemma transCmp_on {α β : Type} (cmp : β → β → Ordering) [Std.TransCmp cmp] (f : α → β) :
    Std.TransCmp fun a b => cmp (f a) (f b) where
  eq_swap := Std.OrientedCmp.eq_swap
  isLE_trans := Std.TransCmp.isLE_trans

/-- Candidates are compared by their distances and then by their ends, which is a consistent order
if that of the distances is one. -/
instance [Std.TransCmp distances] : Std.TransCmp (Candidate.compare distances) :=
  have := transCmp_on distances Candidate.distance
  have := transCmp_on End.compare (Candidate.plug (δ := δ))
  have := transCmp_on End.compare (Candidate.socket (δ := δ))
  inferInstanceAs (Std.TransCmp (compareLex _ (compareLex _ _)))

/-- Singles stand in one order, whatever they are. -/
instance : Std.TransCmp compareTotal := transCmp_on compare totalRank

/-- Candidates that come neither before nor after one another have the same ends. -/
lemma ends_eq_of_compare {a b : Candidate δ} (h : a.compare distances b = .eq) :
    a.plug = b.plug ∧ a.socket = b.socket := by
  obtain ⟨-, hends⟩ := compareLex_eq_eq.1 h
  obtain ⟨hplug, hsocket⟩ := compareLex_eq_eq.1 hends
  exact ⟨Std.LawfulEqCmp.eq_of_compare hplug, Std.LawfulEqCmp.eq_of_compare hsocket⟩

end Order

/-! ### Taking candidates -/

/-- Two candidates share an end. -/
def Candidate.Touches (c x : Candidate δ) : Prop := c.plug = x.plug ∨ c.socket = x.socket

/-- Whether two candidates share an end can be computed. -/
instance (c x : Candidate δ) : Decidable (c.Touches x) :=
  inferInstanceAs (Decidable (_ ∨ _))

/-- Sharing an end is symmetric. -/
lemma Candidate.Touches.symm {c x : Candidate δ} (h : c.Touches x) : x.Touches c :=
  h.imp Eq.symm Eq.symm

/-- **Taking a candidate** if it shares no end with those taken before. -/
def take (taken : List (Candidate δ)) (c : Candidate δ) : List (Candidate δ) :=
  if ∃ x ∈ taken, x.Touches c then taken else c :: taken

/-- A candidate is passed over if one taken before shares an end with it. -/
lemma take_of_touches {taken : List (Candidate δ)} {c x : Candidate δ} (hx : x ∈ taken)
    (h : x.Touches c) : take taken c = taken :=
  if_pos ⟨x, hx, h⟩

/-- A candidate is taken if none taken before shares an end with it. -/
lemma take_of_free {taken : List (Candidate δ)} {c : Candidate δ}
    (h : ∀ x ∈ taken, ¬ x.Touches c) : take taken c = c :: taken :=
  if_neg fun ⟨x, hx, ht⟩ => h x hx ht

/-- What is taken was taken before or is the new candidate. -/
lemma mem_of_mem_take {taken : List (Candidate δ)} {c x : Candidate δ} (h : x ∈ take taken c) :
    x = c ∨ x ∈ taken := by
  unfold take at h
  split at h
  · exact .inr h
  · exact List.mem_cons.1 h

/-- What was taken stays taken. -/
lemma mem_take_of_mem {taken : List (Candidate δ)} {c x : Candidate δ} (h : x ∈ taken) :
    x ∈ take taken c := by
  unfold take
  split
  · exact h
  · exact List.mem_cons_of_mem _ h

/-- What is taken of a list was taken before or is in the list. -/
lemma mem_of_mem_foldl_take {cs : List (Candidate δ)} :
    ∀ {taken : List (Candidate δ)} {x : Candidate δ}, x ∈ cs.foldl take taken →
      x ∈ taken ∨ x ∈ cs := by
  induction cs with
  | nil => exact fun h => .inl h
  | cons c cs ih =>
    intro taken x h
    rcases ih h with h | h
    · rcases mem_of_mem_take h with rfl | h
      · exact .inr List.mem_cons_self
      · exact .inl h
    · exact .inr (List.mem_cons_of_mem _ h)

/-- What was taken stays taken, whatever comes. -/
lemma mem_foldl_take_of_mem {cs : List (Candidate δ)} :
    ∀ {taken : List (Candidate δ)} {x : Candidate δ}, x ∈ taken → x ∈ cs.foldl take taken := by
  induction cs with
  | nil => exact fun h => h
  | cons c cs ih => exact fun h => ih (mem_take_of_mem h)

/-- No two candidates that are taken share an end. -/
lemma pairwise_foldl_take {cs : List (Candidate δ)} :
    ∀ {taken : List (Candidate δ)}, taken.Pairwise (fun x y => ¬ x.Touches y) →
      (cs.foldl take taken).Pairwise fun x y => ¬ x.Touches y := by
  induction cs with
  | nil => exact fun h => h
  | cons c cs ih =>
    intro taken h
    refine ih ?_
    unfold take
    split
    · exact h
    · rename_i hfree
      exact List.pairwise_cons.2 ⟨fun x hx ht => hfree ⟨x, hx, ht.symm⟩, h⟩

/-- **Stability.** Of candidates in order each is taken, or shares an end with one that is taken
and comes no later. -/
lemma mem_foldl_take_or {r : Candidate δ → Candidate δ → Prop} {cs : List (Candidate δ)}
    (hcs : cs.Pairwise r) :
    ∀ {taken : List (Candidate δ)}, (∀ x ∈ taken, ∀ c ∈ cs, r x c) → ∀ c ∈ cs,
      c ∈ cs.foldl take taken ∨ ∃ x ∈ cs.foldl take taken, x.Touches c ∧ r x c := by
  induction cs with
  | nil => exact fun _ c hc => absurd hc List.not_mem_nil
  | cons d cs ih =>
    intro taken htaken c hc
    obtain ⟨hd, hcs⟩ := List.pairwise_cons.1 hcs
    rw [List.foldl_cons]
    rcases List.mem_cons.1 hc with rfl | hc
    · by_cases h : ∃ x ∈ taken, x.Touches c
      · obtain ⟨x, hx, ht⟩ := h
        exact .inr ⟨x, mem_foldl_take_of_mem (mem_take_of_mem hx), ht, htaken x hx c hc⟩
      · refine .inl (mem_foldl_take_of_mem ?_)
        rw [take_of_free fun x hx ht => h ⟨x, hx, ht⟩]
        exact List.mem_cons_self
    · refine ih hcs (fun x hx c' hc' => ?_) c hc
      rcases mem_of_mem_take hx with rfl | hx
      · exact hd c' hc'
      · exact htaken x hx c' (List.mem_cons_of_mem _ hc')

/-! ### The layout records what is taken -/

/-- **Records.** A layout is another one up to connections, and in it exactly the ends of the
candidates taken are connected, to each other; these have been counted. -/
structure Records (l : Layout) (taken : List (Candidate δ)) (state : Layout × Nat) : Prop where
  count : state.2 = taken.length
  rest : state.1.clearTargets = l.clearTargets
  joined : ∀ x ∈ taken, state.1.target? x.plug = some x.socket.statement ∧
    state.1.target? x.socket = some x.plug.statement
  alone : ∀ e, (∀ x ∈ taken, e ≠ x.plug ∧ e ≠ x.socket) → state.1.target? e = none

/-- Where a connector leads after a target is set. -/
lemma target?_setTarget {l : Layout} {e : End} (h : (l.connectorAt? e).isSome) (e' : End)
    (id : Nat) :
    (l.setTarget e.statement e.index (some id)).target? e' =
      if e' = e then some id else l.target? e' := by
  obtain ⟨c, hc⟩ := Option.isSome_iff_exists.1 h
  unfold Layout.target?
  rw [l.connectorAt?_setTarget e e']
  split
  · simp [hc]
  · rfl

/-- Setting a target adds and takes away no connector. -/
lemma isSome_connectorAt?_of_clearTargets {l l' : Layout}
    (h : l'.clearTargets = l.clearTargets) (e : End) :
    (l'.connectorAt? e).isSome = (l.connectorAt? e).isSome := by
  have hsame := congrArg (fun l => (l.connectorAt? e).isSome) h
  simpa [Layout.connectorAt?_clearTargets] using hsame

/-- An end is free if its connector exists and leads nowhere. -/
lemma isFree_eq_true_iff {l : Layout} {e : End} :
    isFree l e = true ↔ (l.connectorAt? e).isSome ∧ l.target? e = none := by
  unfold isFree Layout.target? Layout.connectorAt?
  rcases (l.get? e.statement).bind fun s => s.connectors[e.index]? with _ | c <;> simp

section Records

variable {overlap : Zone → Zone → Option δ} {l : Layout} {taken : List (Candidate δ)}
  {state : Layout × Nat} {c : Candidate δ}

/-- Both ends of a pair that meets exist, whatever the connections. -/
lemma Records.isSome (h : Records l taken state) (hc : l.Meets overlap c.plug c.socket c.distance) :
    (state.1.connectorAt? c.plug).isSome ∧ (state.1.connectorAt? c.socket).isSome := by
  obtain ⟨-, plug, socket, hplug, hsocket, -⟩ := hc
  rw [isSome_connectorAt?_of_clearTargets h.rest, isSome_connectorAt?_of_clearTargets h.rest, hplug,
    hsocket]
  exact ⟨rfl, rfl⟩

/-- Where connectors lead after two ends are joined. -/
lemma target?_joined {l : Layout} {p q : End} (hp : (l.connectorAt? p).isSome)
    (hq : (l.connectorAt? q).isSome) (e : End) :
    ((l.setTarget p.statement p.index (some q.statement)).setTarget q.statement q.index
        (some p.statement)).target? e =
      if e = q then some p.statement else if e = p then some q.statement else l.target? e := by
  have hq' : ((l.setTarget p.statement p.index (some q.statement)).connectorAt? q).isSome := by
    rwa [isSome_connectorAt?_of_clearTargets (l.clearTargets_setTarget _ _ _)]
  rw [target?_setTarget hq', target?_setTarget hp]

/-- No end of a pair that touches none of the pairs taken is an end of one of them. -/
lemma ends_ne_of_not_touches (hc : l.Meets overlap c.plug c.socket c.distance) {x : Candidate δ}
    (hx : l.Meets overlap x.plug x.socket x.distance) (hapart : ¬ x.Touches c) :
    (c.plug ≠ x.plug ∧ c.plug ≠ x.socket) ∧ c.socket ≠ x.plug ∧ c.socket ≠ x.socket :=
  ⟨⟨fun heq => hapart (.inl heq.symm), hc.plug_ne_socket hx⟩, (hx.plug_ne_socket hc).symm,
    fun heq => hapart (.inr heq.symm)⟩

/-- Both ends of a pair are free if it touches none of the pairs taken. An end is free if it leads
nowhere. The ends of the pairs that were taken lead to their partners, and all other ends lead
nowhere, which is what the record says. -/
lemma Records.areFree_iff (h : Records l taken state)
    (htaken : ∀ x ∈ taken, l.Meets overlap x.plug x.socket x.distance)
    (hc : l.Meets overlap c.plug c.socket c.distance) :
    (isFree state.1 c.plug && isFree state.1 c.socket) = true ↔ ∀ x ∈ taken, ¬ x.Touches c := by
  obtain ⟨hplug, hsocket⟩ := h.isSome hc
  rw [Bool.and_eq_true, isFree_eq_true_iff, isFree_eq_true_iff]
  constructor
  · rintro ⟨⟨-, hfree⟩, -, hfree'⟩ x hx ht
    obtain ⟨hjplug, hjsocket⟩ := h.joined x hx
    rcases ht with heq | heq
    · rw [← heq, hjplug] at hfree
      exact absurd hfree (by simp)
    · rw [← heq, hjsocket] at hfree'
      exact absurd hfree' (by simp)
  · intro hapart
    have hnew := fun x hx => ends_ne_of_not_touches hc (htaken x hx) (hapart x hx)
    exact ⟨⟨hplug, h.alone _ fun x hx => (hnew x hx).1⟩,
      hsocket, h.alone _ fun x hx => (hnew x hx).2⟩

/-- **Joining** a pair is recorded exactly if it is taken.

**Proof sketch.** The ends of the pair are free exactly if no pair that was taken shares one of
them. Then both targets are set, which are no targets of the other pairs, and otherwise nothing is
changed. -/
lemma Records.join (h : Records l taken state)
    (htaken : ∀ x ∈ taken, l.Meets overlap x.plug x.socket x.distance)
    (hc : l.Meets overlap c.plug c.socket c.distance) :
    Records l (take taken c) (join state c) := by
  have hfree := h.areFree_iff htaken hc
  obtain ⟨hplug, hsocket⟩ := h.isSome hc
  obtain ⟨l', count⟩ := state
  by_cases hapart : ∀ x ∈ taken, ¬ x.Touches c
  · have hboth : (isFree l' c.plug && isFree l' c.socket) = true := hfree.2 hapart
    have htarget := target?_joined hplug hsocket
    have hne : c.plug ≠ c.socket := hc.plug_ne_socket hc
    have hcount : count = taken.length := h.count
    rw [take_of_free hapart]
    simp only [Matching.join, hboth, if_true]
    refine ⟨by simp [hcount], ?_, fun x hx => ?_, fun e he => ?_⟩
    · rw [Layout.clearTargets_setTarget, Layout.clearTargets_setTarget, h.rest]
    · rcases List.mem_cons.1 hx with rfl | hx
      · simp [htarget, hne]
      · obtain ⟨⟨hpp, hps⟩, hsp, hss⟩ := ends_ne_of_not_touches hc (htaken x hx) (hapart x hx)
        rw [htarget, htarget, if_neg hsp.symm, if_neg hpp.symm, if_neg hss.symm, if_neg hps.symm]
        exact h.joined x hx
    · obtain ⟨⟨hplug', hsocket'⟩, he⟩ := List.forall_mem_cons.1 he
      rw [htarget, if_neg hsocket', if_neg hplug']
      exact h.alone e he
  · have hbusy : (isFree l' c.plug && isFree l' c.socket) = false :=
      Bool.eq_false_iff.2 fun hboth => hapart (hfree.1 hboth)
    obtain ⟨x, hx, ht⟩ : ∃ x ∈ taken, x.Touches c := by simpa using hapart
    rw [take_of_touches hx ht]
    simpa [Matching.join, hbusy] using h

/-- Joining candidates one after the other records what is taken of them. -/
lemma Records.foldl {cs : List (Candidate δ)}
    (hcs : ∀ c ∈ cs, l.Meets overlap c.plug c.socket c.distance) :
    ∀ {taken : List (Candidate δ)} {state : Layout × Nat}, Records l taken state →
      (∀ x ∈ taken, l.Meets overlap x.plug x.socket x.distance) →
      Records l (cs.foldl take taken) (cs.foldl Matching.join state) := by
  induction cs with
  | nil => exact fun h _ => h
  | cons c cs ih =>
    intro taken state h htaken
    obtain ⟨hc, hcs⟩ := List.forall_mem_cons.1 hcs
    refine ih hcs (h.join htaken hc) fun x hx => ?_
    rcases mem_of_mem_take hx with rfl | hx
    · exact hc
    · exact htaken x hx

/-- A layout without connections records that nothing was taken. -/
lemma records_clearTargets (l : Layout) :
    Records l ([] : List (Candidate δ)) (l.clearTargets, 0) := by
  refine ⟨rfl, l.clearTargets_clearTargets, fun x hx => absurd hx List.not_mem_nil, fun e _ => ?_⟩
  unfold Layout.target?
  rw [Layout.connectorAt?_clearTargets]
  rcases l.connectorAt? e with _ | c <;> rfl

end Records

end Matching

/-! ### Stable matchings -/

namespace Layout

/-- **Stable matchings.** Every pair of a stable matching meets, no connector is in two pairs, and
a plug and a socket that meet and are no pair have an end in a pair that comes earlier: by its
distance, then by its plug, then by its socket. -/
structure IsStable (distances : δ → δ → Ordering) (overlap : Zone → Zone → Option δ) (l : Layout)
    (M : Finset (End × End)) : Prop where
  meets : ∀ x ∈ M, ∃ d, l.Meets overlap x.1 x.2 d
  apart : ∀ x ∈ M, ∀ y ∈ M, ∀ e, (e = x.1 ∨ e = x.2) → (e = y.1 ∨ e = y.2) → x = y
  stable : ∀ p q d, l.Meets overlap p q d → (p, q) ∉ M →
    ∃ x ∈ M, ∃ d', l.Meets overlap x.1 x.2 d' ∧ (p = x.1 ∨ q = x.2) ∧
      Candidate.compare distances ⟨d', x.1, x.2⟩ ⟨d, p, q⟩ = .lt

/-- **Joining a matching.** The ends of its pairs lead to each other, all other connectors lead
nowhere, and nothing else is changed. -/
structure Joins (l : Layout) (M : Finset (End × End)) (l' : Layout) : Prop where
  paired : ∀ x ∈ M, l'.target? x.1 = some x.2.statement ∧ l'.target? x.2 = some x.1.statement
  alone : ∀ e, (∀ x ∈ M, e ≠ x.1 ∧ e ≠ x.2) → l'.target? e = none
  rest : l'.clearTargets = l.clearTargets

section Stable

variable {distances : δ → δ → Ordering} [Std.TransCmp distances]
  {overlap : Zone → Zone → Option δ} {l : Layout}

/-- **At most one matching is stable.**

**Proof sketch.** Induction on the order of the pairs that meet, of which there are finitely many.
If a pair is in one stable matching and not in another, then an earlier pair that shares an end
with it is in the other, hence also in the first. -/
theorem IsStable.eq {M M' : Finset (End × End)} (h : l.IsStable distances overlap M)
    (h' : l.IsStable distances overlap M') : M = M' := by
  let earlier (x y : {c : Candidate δ // c ∈ Matching.candidates overlap l}) : Prop :=
    x.1.compare distances y.1 = .lt
  have htrans : IsTrans _ earlier := ⟨fun _ _ _ => Std.TransCmp.lt_trans⟩
  have hirrefl : Std.Irrefl earlier := ⟨fun x hx => by
    simp [earlier, Std.ReflCmp.compare_self] at hx⟩
  have hfinite : Finite {c : Candidate δ // c ∈ Matching.candidates overlap l} :=
    (List.finite_toSet _).to_subtype
  have hwf : WellFounded earlier := Finite.wellFounded_of_trans_of_irrefl earlier
  -- a pair of one matching is in the other if this is so for all earlier pairs
  have hstep : ∀ {M M' : Finset (End × End)}, l.IsStable distances overlap M →
      l.IsStable distances overlap M' → ∀ c,
      (∀ x, earlier x c → ((x.1.plug, x.1.socket) ∈ M' → (x.1.plug, x.1.socket) ∈ M)) →
      (c.1.plug, c.1.socket) ∈ M → (c.1.plug, c.1.socket) ∈ M' := by
    intro M M' h h' c ih hc
    by_contra hnot
    obtain ⟨x, hx, d, hmeets, hshare, hlt⟩ :=
      h'.stable _ _ _ (Matching.mem_candidates.1 c.2) hnot
    have hxM : x ∈ M := ih ⟨⟨d, x.1, x.2⟩, Matching.mem_candidates.2 hmeets⟩ hlt hx
    obtain rfl : x = (c.1.plug, c.1.socket) := by
      rcases hshare with hshare | hshare
      · exact h.apart x hxM _ hc _ (.inl rfl) (.inl hshare.symm)
      · exact h.apart x hxM _ hc _ (.inr rfl) (.inr hshare.symm)
    exact hnot hx
  have hiff : ∀ c : {c : Candidate δ // c ∈ Matching.candidates overlap l},
      (c.1.plug, c.1.socket) ∈ M ↔ (c.1.plug, c.1.socket) ∈ M' := by
    intro c
    induction c using hwf.induction with
    | _ c ih =>
      exact ⟨hstep h h' c fun x hx => (ih x hx).2, hstep h' h c fun x hx => (ih x hx).1⟩
  ext x
  constructor
  · intro hx
    obtain ⟨d, hd⟩ := h.meets x hx
    exact (hiff ⟨⟨d, x.1, x.2⟩, Matching.mem_candidates.2 hd⟩).1 hx
  · intro hx
    obtain ⟨d, hd⟩ := h'.meets x hx
    exact (hiff ⟨⟨d, x.1, x.2⟩, Matching.mem_candidates.2 hd⟩).2 hx

omit [Std.TransCmp distances] in
/-- The ends of the candidates that are taken are a stable matching, if the candidates are all
there are and come in order. -/
lemma isStable_foldl_take {cs : List (Candidate δ)}
    (hmem : ∀ c, c ∈ cs ↔ l.Meets overlap c.plug c.socket c.distance)
    (hcs : cs.Pairwise fun a b => (a.compare distances b).isLE) :
    l.IsStable distances overlap
      ((cs.foldl Matching.take []).map fun c => (c.plug, c.socket)).toFinset := by
  have hsubset : ∀ x ∈ cs.foldl Matching.take [], x ∈ cs := fun x hx =>
    (Matching.mem_of_mem_foldl_take hx).resolve_left List.not_mem_nil
  have hapart : (cs.foldl Matching.take []).Pairwise fun x y => ¬ x.Touches y :=
    Matching.pairwise_foldl_take .nil
  constructor
  · intro x hx
    obtain ⟨c, hc, rfl⟩ := List.mem_map.1 (List.mem_toFinset.1 hx)
    exact ⟨c.distance, (hmem c).1 (hsubset c hc)⟩
  · intro x hx y hy e hex hey
    obtain ⟨c, hc, rfl⟩ := List.mem_map.1 (List.mem_toFinset.1 hx)
    obtain ⟨d, hd, rfl⟩ := List.mem_map.1 (List.mem_toFinset.1 hy)
    have hmc := (hmem c).1 (hsubset c hc)
    have hmd := (hmem d).1 (hsubset d hd)
    -- an end of both pairs is a plug of both or a socket of both
    have htouches : c.Touches d := by
      rcases hex with rfl | rfl <;> rcases hey with hey | hey
      · exact .inl hey
      · exact absurd hey (hmc.plug_ne_socket hmd)
      · exact absurd hey.symm (hmd.plug_ne_socket hmc)
      · exact .inr hey
    by_contra hne
    have hcd : c ≠ d := fun h => hne (by rw [h])
    have hsymm : Std.Symm fun x y : Candidate δ => ¬ x.Touches y := ⟨fun _ _ h ht => h ht.symm⟩
    exact hapart.forall hc hd hcd htouches
  · intro p q d hmeets hnot
    rcases Matching.mem_foldl_take_or hcs (fun x hx => absurd hx List.not_mem_nil) ⟨d, p, q⟩
      ((hmem _).2 hmeets) with hc | ⟨x, hx, htouches, hle⟩
    · exact absurd (List.mem_toFinset.2 (List.mem_map.2 ⟨_, hc, rfl⟩)) hnot
    · refine ⟨(x.plug, x.socket), List.mem_toFinset.2 (List.mem_map.2 ⟨x, hx, rfl⟩), x.distance,
        (hmem x).1 (hsubset x hx), htouches.imp Eq.symm Eq.symm, ?_⟩
      -- two candidates of the same ends would be the same pair
      refine (Ordering.isLE_iff_eq_lt_or_eq_eq.1 hle).resolve_right fun heq => hnot ?_
      obtain ⟨rfl, rfl⟩ := Matching.ends_eq_of_compare heq
      exact List.mem_toFinset.2 (List.mem_map.2 ⟨x, hx, rfl⟩)

/-- Connecting joins a matching that is stable, and counts its pairs.

**Proof sketch.** Candidates are sorted, so those taken of them are a stable matching; and the
layout records what is taken. -/
theorem exists_isStable_joins (distances : δ → δ → Ordering) [Std.TransCmp distances]
    (overlap : Zone → Zone → Option δ) (l : Layout) :
    ∃ M : Finset (End × End), l.IsStable distances overlap M ∧
      l.Joins M (l.connectBy distances overlap).1 ∧
      (l.connectBy distances overlap).2 = M.card := by
  set cs := (Matching.candidates overlap l.clearTargets).mergeSort fun a b =>
    (a.compare distances b).isLE with hcs
  have hmem : ∀ c, c ∈ cs ↔ l.Meets overlap c.plug c.socket c.distance := fun c => by
    rw [hcs, List.mem_mergeSort, Matching.mem_candidates, meets_clearTargets]
  have hsorted : cs.Pairwise fun a b => (a.compare distances b).isLE := by
    refine List.pairwise_mergeSort (fun a b c => Std.TransCmp.isLE_trans) (fun a b => ?_) _
    have hswap : b.compare distances a = (a.compare distances b).swap :=
      Std.OrientedCmp.eq_swap
    rw [hswap]
    cases a.compare distances b <;> rfl
  obtain ⟨hcount, hrest, hjoined, halone⟩ :=
    (Matching.records_clearTargets l).foldl (fun c hc => (hmem c).1 hc)
      fun x hx => absurd hx List.not_mem_nil
  have hnodup : ((cs.foldl Matching.take []).map fun c => (c.plug, c.socket)).Nodup := by
    refine List.pairwise_map.2 ((Matching.pairwise_foldl_take .nil).imp fun hfree heq => ?_)
    exact hfree (.inl (congrArg Prod.fst heq))
  refine ⟨_, isStable_foldl_take hmem hsorted, ⟨fun x hx => ?_, fun e he => ?_, hrest⟩, ?_⟩
  · obtain ⟨c, hc, rfl⟩ := List.mem_map.1 (List.mem_toFinset.1 hx)
    exact hjoined c hc
  · exact halone e fun c hc => he _ (List.mem_toFinset.2 (List.mem_map.2 ⟨c, hc, rfl⟩))
  · rw [List.toFinset_card_of_nodup hnodup, List.length_map]
    exact hcount

/-- **Connecting finds the stable matching.** Whatever connections and marks a layout had before,
connecting it joins a matching that is stable, and counts its pairs; and no other matching of the
layout is stable. The measure of overlap is any function, and distances are compared in any total
order. -/
theorem connectBy_stable (distances : δ → δ → Ordering) [Std.TransCmp distances]
    (overlap : Zone → Zone → Option δ) (l : Layout) :
    ∃ M : Finset (End × End), l.IsStable distances overlap M ∧
      l.Joins M (l.connectBy distances overlap).1 ∧ (l.connectBy distances overlap).2 = M.card ∧
      ∀ M' : Finset (End × End), l.IsStable distances overlap M' → M' = M := by
  obtain ⟨M, hstable, hjoins, hcount⟩ := l.exists_isStable_joins distances overlap
  exact ⟨M, hstable, hjoins, hcount, fun M' h' => h'.eq hstable⟩

end Stable

/-- A page on which two stickers overlap the plug of Begin, the farther one first. -/
def crowdedPage : Layout :=
  (ofMarkers .standard
    [⟨31, ⟨0, 0⟩, 0, 20⟩, ⟨47, ⟨44, 0⟩, 0, 20⟩, ⟨59, ⟨41, 1⟩, 0, 20⟩]).1

/-- The stickers of a crowded page are joined as in the only stable matching by their distances in
the plane. -/
theorem connectBy_stable_crowdedPage :
    Std.TransCmp compareTotal ∧
      ∃ M : Finset (End × End), crowdedPage.IsStable compareTotal Zone.overlap M ∧
        crowdedPage.Joins M crowdedPage.connect.1 ∧ crowdedPage.connect.2 = M.card ∧
        ∀ M' : Finset (End × End), crowdedPage.IsStable compareTotal Zone.overlap M' → M' = M :=
  ⟨inferInstance, connectBy_stable compareTotal Zone.overlap crowdedPage⟩

end Layout

end StickerBot
