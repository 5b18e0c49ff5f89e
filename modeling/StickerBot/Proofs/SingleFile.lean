import Mathlib.Data.List.Chain
import Mathlib.Data.List.Nodup
import StickerBot.Proofs.MarkerOrder
set_option autoImplicit false

/-!
# Standard stickers stand in single file

A sticker of the standard sheet has one plug for what comes after it and at most one socket for
what comes before, and Begin has no socket. A socket takes one plug. So whatever the stickers lie
like, also on top of each other, the plugs lead from Begin along a single file: it does not branch,
nothing joins it, and it never comes back to where it was.

## Main definitions

* `Layout.PlugsInto` — an outgoing connector of one statement leads to another.
* `Catalog.IsSlim`, `Layout.IsSlim` — stickers with few connectors.
* `Layout.IsUnbranched` — every statement leads to one at most, and none to the start.
* `Layout.IsFile` — a single file of statements, and what is at its end.
* `Layout.IsOnWay` — what holds of a chain while it is followed from the start.

## Main results

* `Catalog.isSlim_standard` — the standard sheet is slim.
* `Layout.isUnbranched_connectBy` — connecting slim stickers, no two of them plug into the same one.
* `Layout.IsUnbranched.nodup_of_isChain` — what leads on from the start never comes back.
* `Layout.IsUnbranched.exists_isFile` — there is a single file behind the start.
-/

namespace StickerBot

/-! ### Slim stickers -/

/-- **Slim stickers** have a socket at most, and the start has none; they have one outgoing
connector, and parameters have none. -/
def isSlim (kind : StatementKind) (directions : List Direction) : Bool :=
  directions.count .incoming ≤ (if kind.isStart then 0 else 1) &&
    directions.count .outgoing = if kind.isParameter then 0 else 1

/-- The stickers of a catalog are slim. -/
def Catalog.IsSlim (catalog : Catalog) : Prop :=
  ∀ code t, catalog.get? code = some t →
    isSlim t.kind (t.connectors.map ConnectorTemplate.direction) = true

/-- **The standard sheet** is slim. -/
theorem Catalog.isSlim_standard : standard.IsSlim := by
  have hall : (standard.templates.entries.all fun e =>
      isSlim e.2.kind (e.2.connectors.map ConnectorTemplate.direction)) = true := by decide +kernel
  intro code t ht
  obtain ⟨e, he, rfl⟩ := Option.map_eq_some_iff.1 ht
  exact List.all_eq_true.1 hall e (List.mem_of_find?_eq_some he)

namespace Layout

/-- The statements of a page are slim. -/
def IsSlim (l : Layout) : Prop :=
  ∀ id s, l.get? id = some s → isSlim s.kind (s.connectors.map Connector.direction) = true

/-- A page has the connectors of its catalog. -/
lemma isSlim_ofMarkers {catalog : Catalog} (h : catalog.IsSlim) (ms : List Marker) :
    (ofMarkers catalog ms).1.IsSlim := by
  intro id s hs
  obtain ⟨m, -, hm⟩ := List.mem_filterMap.1 (List.mem_of_getElem? hs)
  obtain ⟨t, ht, rfl⟩ := Option.map_eq_some_iff.1 hm
  have hdirections : (t.instantiate m).connectors.map Connector.direction =
      t.connectors.map ConnectorTemplate.direction := by
    rw [Template.instantiate, List.map_map]
    rfl
  rw [hdirections]
  exact h m.code t ht

/-- Connections do not make a statement less slim. It is slim by its kind and by the directions of
its connectors, and both are the same whatever the connectors lead to. -/
lemma isSlim_of_clearTargets {l l' : Layout} (h : l.IsSlim)
    (hrest : l'.clearTargets = l.clearTargets) : l'.IsSlim := by
  intro id s' hs'
  have hget := congrArg (fun l => l.get? id) hrest
  simp only [get?, clearTargets, List.getElem?_map] at hget
  rw [show l'.statements[id]? = some s' from hs', Option.map_some] at hget
  obtain ⟨s, hs, hsame⟩ := Option.map_eq_some_iff.1 hget.symm
  have hdirections : ∀ s : Statement,
      s.clearTargets.connectors.map Connector.direction = s.connectors.map Connector.direction :=
    fun s => by
      rw [Statement.clearTargets, List.map_map]
      rfl
  have hkind : s.clearTargets.kind = s'.clearTargets.kind := congrArg Statement.kind hsame
  change s.kind = s'.kind at hkind
  rw [← hkind, ← hdirections s', ← hsame, hdirections s]
  exact h id s hs

/-! ### What plugs into what -/

/-- **Plugging.** An outgoing connector of one statement leads to another, which may be a
parameter. -/
def PlugsInto (l : Layout) (id next : Nat) : Prop :=
  ∃ s, l.get? id = some s ∧ next ∈ s.outgoing.filterMap Connector.target

/-- **Unbranched pages.** A statement of the flow has one plug for what comes after it, and a
parameter has none. What is plugged into is there and no start, and only one statement plugs into
it. -/
structure IsUnbranched (l : Layout) : Prop where
  outgoing : ∀ id s, l.get? id = some s →
    s.outgoing.length = if s.kind.isParameter then 0 else 1
  target : ∀ id next, l.PlugsInto id next → ∃ t, l.get? next = some t ∧ t.kind.isStart = false
  source : ∀ id id' next, l.PlugsInto id next → l.PlugsInto id' next → id = id'

section Connect

variable {δ : Type} {distances : δ → δ → Ordering} {overlap : Zone → Zone → Option δ}
variable {l l' : Layout} {M : Finset (Matching.End × Matching.End)} {id next : Nat}

/-- What plugs into a statement does so by a pair of the matching. Ends in no pair lead nowhere, and
a connector that leads out is no socket, so that it is the first end of its pair. -/
lemma Joins.exists_mem (h : l.Joins M l') (hstable : l.IsStable distances overlap M)
    (hplugs : l'.PlugsInto id next) : ∃ x ∈ M, x.1.statement = id ∧ x.2.statement = next ∧
      ∃ socket, l'.connectorAt? x.2 = some socket ∧ socket.direction = .incoming := by
  obtain ⟨s, hs, hnext⟩ := hplugs
  obtain ⟨c, hc, htarget⟩ := List.mem_filterMap.1 hnext
  obtain ⟨hc, hout⟩ := List.mem_filter.1 hc
  obtain ⟨index, hindex⟩ := List.mem_iff_getElem?.1 hc
  have hat : l'.connectorAt? ⟨id, index⟩ = some c := by rw [connectorAt?, hs]; exact hindex
  have hleads : l'.target? ⟨id, index⟩ = some next := by rw [target?, hat]; exact htarget
  have hmeets : ∀ x ∈ M, ∃ d, l'.Meets overlap x.1 x.2 d := fun x hx => by
    obtain ⟨d, hd⟩ := hstable.meets x hx
    rw [← meets_clearTargets, ← h.rest, meets_clearTargets] at hd
    exact ⟨d, hd⟩
  -- an end that leads somewhere is one of a pair, and a plug is not the socket of one
  obtain ⟨x, hx, hend⟩ : ∃ x ∈ M, ⟨id, index⟩ = x.1 ∨ ⟨id, index⟩ = x.2 := by
    by_contra hnone
    have halone := h.alone ⟨id, index⟩ fun x hx =>
      ⟨fun heq => hnone ⟨x, hx, .inl heq⟩, fun heq => hnone ⟨x, hx, .inr heq⟩⟩
    rw [hleads] at halone
    exact absurd halone (by simp)
  obtain ⟨-, -, -, socket, -, hsocket, -, hincoming, -⟩ := hmeets x hx
  rcases hend with heq | heq
  · have hpaired := (h.paired x hx).1
    rw [← heq, hleads] at hpaired
    exact ⟨x, hx, by rw [← heq], (Option.some.inj hpaired).symm, socket, hsocket, hincoming⟩
  · rw [← heq, hat] at hsocket
    obtain rfl := Option.some.inj hsocket
    rw [of_decide_eq_true hout] at hincoming
    exact absurd hincoming (by simp)

/-- A slim statement with a socket is no start and has it in one place. There is room for one socket
at most, and for none in a start, by how slim statements are defined. -/
lemma socket_unique (h : l.IsSlim) {s : Statement} (hs : l.get? id = some s) {i : Nat}
    {socket : Connector} (hi : s.connectors[i]? = some socket)
    (hsocket : socket.direction = .incoming) :
    s.kind.isStart = false ∧ ∀ j other, s.connectors[j]? = some other →
      other.direction = .incoming → j = i := by
  have hcount : (s.connectors.map Connector.direction).count .incoming ≤
      if s.kind.isStart then 0 else 1 := by
    have hslim := h id s hs
    rw [isSlim, Bool.and_eq_true, decide_eq_true_eq] at hslim
    exact hslim.1
  have hat : ∀ {j : Nat} {other : Connector}, s.connectors[j]? = some other →
      other.direction = .incoming → (s.connectors.map Connector.direction)[j]? = some .incoming :=
    fun hj hother => by rw [List.getElem?_map, hj, Option.map_some, hother]
  have hpos : 0 < (s.connectors.map Connector.direction).count .incoming :=
    List.count_pos_iff.2 (List.mem_of_getElem? (hat hi hsocket))
  constructor
  · cases hstart : s.kind.isStart with
    | false => rfl
    | true => rw [hstart, if_pos rfl] at hcount; omega
  · intro j other hj hother
    have hone : (s.connectors.map Connector.direction).count .incoming ≤ 1 :=
      hcount.trans (by split <;> omega)
    exact eq_of_countP_le_one hone (hat hj hother) (by decide) (hat hi hsocket) (by decide)

/-- A slim statement has one outgoing connector, or none if it is a parameter. -/
lemma length_outgoing_of_isSlim (h : l.IsSlim) {s : Statement} (hs : l.get? id = some s) :
    s.outgoing.length = if s.kind.isParameter then 0 else 1 := by
  have hslim := h id s hs
  rw [isSlim, Bool.and_eq_true, decide_eq_true_eq, decide_eq_true_eq] at hslim
  rw [← hslim.2, Statement.outgoing, ← List.countP_eq_length_filter, List.count, List.countP_map]
  congr 1

/-- **Slim stickers do not branch.** On a page of slim stickers, joined in whatever way they
overlap, only one statement plugs into another.

**Proof sketch.** What plugs into a statement does so by a pair of the matching, whose other end is
a socket of the statement. It has but one, and no two pairs share an end. -/
theorem isUnbranched_connectBy (h : l.IsSlim) (distances : δ → δ → Ordering)
    [Std.TransCmp distances] (overlap : Zone → Zone → Option δ) :
    (l.connectBy distances overlap).1.IsUnbranched := by
  obtain ⟨M, hstable, hjoins, -⟩ := l.exists_isStable_joins distances overlap
  have hslim := isSlim_of_clearTargets h hjoins.rest
  -- the socket of a pair is a connector of the statement that is plugged into
  have hsocket : ∀ {id next}, (l.connectBy distances overlap).1.PlugsInto id next →
      ∃ x ∈ M, x.1.statement = id ∧ x.2.statement = next ∧
        ∃ t c, (l.connectBy distances overlap).1.get? next = some t ∧
          t.connectors[x.2.index]? = some c ∧ c.direction = .incoming := by
    intro id next hplugs
    obtain ⟨x, hx, hid, hnext, c, hc, hincoming⟩ := hjoins.exists_mem hstable hplugs
    obtain ⟨t, ht, hindex⟩ := Option.bind_eq_some_iff.1 hc
    exact ⟨x, hx, hid, hnext, t, c, hnext ▸ ht, hindex, hincoming⟩
  constructor
  · exact fun id s hs => length_outgoing_of_isSlim hslim hs
  · intro id next hplugs
    obtain ⟨x, -, -, -, t, c, ht, hc, hincoming⟩ := hsocket hplugs
    exact ⟨t, ht, (socket_unique hslim ht hc hincoming).1⟩
  · intro id id' next hplugs hplugs'
    obtain ⟨x, hx, rfl, hnext, t, c, ht, hc, hincoming⟩ := hsocket hplugs
    obtain ⟨x', hx', rfl, hnext', t', c', ht', hc', hincoming'⟩ := hsocket hplugs'
    obtain rfl := Option.some.inj (ht.symm.trans ht')
    have hindex := (socket_unique hslim ht hc hincoming).2 _ c' hc' hincoming'
    have hsame : x'.2 = x.2 := by
      rw [Matching.End.mk.injEq]
      exact ⟨hnext'.trans hnext.symm, hindex⟩
    rw [hstable.apart x hx x' hx' x.2 (.inr rfl) (.inr hsame.symm)]

end Connect

/-! ### Nothing comes back -/

section Unbranched

variable {l : Layout} {id start : Nat}

/-- A statement plugs into one statement at most. It has one outgoing connector, or none if it is a
parameter, and what it plugs into is a target of one of them. -/
lemma IsUnbranched.next_unique (h : l.IsUnbranched) {next next' : Nat}
    (hnext : l.PlugsInto id next) (hnext' : l.PlugsInto id next') : next = next' := by
  obtain ⟨s, hs, hmem⟩ := hnext
  obtain ⟨s', hs', hmem'⟩ := hnext'
  obtain rfl := Option.some.inj (hs.symm.trans hs')
  have hlength : (s.outgoing.filterMap Connector.target).length ≤ 1 :=
    (List.length_filterMap_le _ _).trans (by rw [h.outgoing id s hs]; split <;> omega)
  obtain ⟨i, hi⟩ := List.mem_iff_getElem?.1 hmem
  obtain ⟨j, hj⟩ := List.mem_iff_getElem?.1 hmem'
  have hplace : ∀ {i x}, (s.outgoing.filterMap Connector.target)[i]? = some x → i = 0 :=
    fun hi => by
      have hlt := (List.getElem?_eq_some_iff.1 hi).1
      omega
  rw [hplace hi] at hi
  rw [hplace hj] at hj
  exact Option.some.inj (hi.symm.trans hj)

/-- A statement of the flow has one connector that leads on, or could. -/
lemma IsUnbranched.exists_target (h : l.IsUnbranched) {s : Statement} (hs : l.get? id = some s)
    (hp : s.kind.isParameter = false) :
    ∃ target, s.outgoing.map Connector.target = [target] := by
  have hlength := h.outgoing id s hs
  rw [hp, if_neg (by simp)] at hlength
  obtain ⟨c, hc⟩ := List.length_eq_one_iff.1 hlength
  exact ⟨c.target, by rw [hc, List.map_singleton]⟩

/-- What a statement plugs into is the target of its one connector. -/
lemma filterMap_target_of_map {s : Statement} {target : Option Nat}
    (h : s.outgoing.map Connector.target = [target]) :
    s.outgoing.filterMap Connector.target = target.toList := by
  rw [← Function.id_comp Connector.target, ← List.filterMap_map, h]
  cases target <;> rfl

/-- A statement plugs into the target of its one connector. -/
lemma plugsInto_iff {s : Statement} (hs : l.get? id = some s) {target : Option Nat}
    (h : s.outgoing.map Connector.target = [target]) {next : Nat} :
    l.PlugsInto id next ↔ target = some next := by
  rw [← Option.mem_toList, ← filterMap_target_of_map h]
  constructor
  · rintro ⟨s', hs', hnext⟩
    obtain rfl := Option.some.inj (hs.symm.trans hs')
    exact hnext
  · exact fun hnext => ⟨s, hs, hnext⟩

/-- Nothing plugs into the start. -/
lemma IsUnbranched.not_plugsInto_start (h : l.IsUnbranched) (hstart : l.start? = some start) :
    ¬ l.PlugsInto id start := by
  intro hplugs
  obtain ⟨t, ht, hnot⟩ := h.target id start hplugs
  obtain ⟨-, s, hs, his⟩ := start?_eq_some_iff.1 hstart
  obtain rfl := Option.some.inj (hs.symm.trans ht)
  exact absurd his (by simp [hnot])

/-- **No way back.** Along the plugs from the start no statement is come to twice.

**Proof sketch.** Two places of a path with the same statement are both the start, or both have
before them the one statement that plugs into it. -/
theorem IsUnbranched.nodup_of_isChain (h : l.IsUnbranched) (hstart : l.start? = some start)
    {path : List Nat} (hhead : path.head? = some start) (hpath : path.IsChain l.PlugsInto) :
    path.Nodup := by
  have hzero : path[0]? = some start := by rw [← List.head?_eq_getElem?, hhead]
  have hbefore : ∀ {i x : Nat}, path[i + 1]? = some x →
      ∃ y, path[i]? = some y ∧ l.PlugsInto y x := by
    intro i x hx
    obtain ⟨hlt, rfl⟩ := List.getElem?_eq_some_iff.1 hx
    exact ⟨_, List.getElem?_eq_getElem (Nat.lt_of_succ_lt hlt), hpath.getElem i hlt⟩
  have hplace : ∀ {i j x : Nat}, path[i]? = some x → path[j]? = some x → i = j := by
    intro i
    induction i with
    | zero =>
      intro j x hi hj
      obtain rfl := Option.some.inj (hzero.symm.trans hi)
      cases j with
      | zero => rfl
      | succ j =>
        obtain ⟨y, -, hy⟩ := hbefore hj
        exact absurd hy (h.not_plugsInto_start hstart)
    | succ i ih =>
      intro j x hi hj
      obtain ⟨y, hyi, hy⟩ := hbefore hi
      cases j with
      | zero =>
        obtain rfl := Option.some.inj (hzero.symm.trans hj)
        exact absurd hy (h.not_plugsInto_start hstart)
      | succ j =>
        obtain ⟨z, hzj, hz⟩ := hbefore hj
        obtain rfl := h.source _ _ _ hy hz
        rw [ih hyi hzj]
  refine List.nodup_iff_getElem?_ne_getElem?.2 fun i j hij hj heq => ?_
  exact absurd (hplace (heq.trans (List.getElem?_eq_getElem hj)) (List.getElem?_eq_getElem hj))
    (Nat.ne_of_lt hij)

end Unbranched

/-! ### The file behind the start -/

/-- **Single file.** Statements of the flow from a first one on, each plugging into the next. The
last has an outgoing connector that leads to a parameter, the ending, or nowhere. -/
structure IsFile (l : Layout) (first : Nat) (ids : List Nat) (ending : Option Nat) : Prop where
  head : ids.head? = some first
  flow : ∀ id ∈ ids, l.IsFlow id
  linked : ids.IsChain l.PlugsInto
  last : ∀ id ∈ ids.getLast?, ∃ s, l.get? id = some s ∧
    s.outgoing.map Connector.target = [ending]
  parameter : ∀ id ∈ ending, ∃ t, l.get? id = some t ∧ t.kind.isParameter = true

section File

variable {l : Layout} {first : Nat} {ids : List Nat} {ending : Option Nat}

/-- What is at the end of a file is plugged in behind it. -/
lemma IsFile.isChain_append (h : l.IsFile first ids ending) :
    (ids ++ ending.toList).IsChain l.PlugsInto := by
  refine h.linked.append (by cases ending <;> simp) fun id hid next hnext => ?_
  obtain ⟨s, hs, htarget⟩ := h.last id hid
  exact (plugsInto_iff hs htarget).2 (Option.mem_toList.1 (List.mem_of_head? hnext))

/-- Nothing comes behind the end of a file. A file without a parameter ends with a statement whose
connector leads nowhere, and a parameter has no outgoing connector at all. -/
lemma IsFile.not_plugsInto (h : l.IsFile first ids ending) (hl : l.IsUnbranched) {id next : Nat}
    (hid : id ∈ (ids ++ ending.toList).getLast?) : ¬ l.PlugsInto id next := by
  intro hnext
  cases ending with
  | none =>
    rw [Option.toList_none, List.append_nil] at hid
    obtain ⟨s, hs, htarget⟩ := h.last id hid
    exact absurd ((plugsInto_iff hs htarget).1 hnext) (by simp)
  | some p =>
    obtain rfl : p = id := by simpa using hid
    obtain ⟨t, ht, hparam⟩ := h.parameter p rfl
    obtain ⟨s, hs, hmem⟩ := hnext
    obtain rfl := Option.some.inj (hs.symm.trans ht)
    have hnone : s.outgoing = [] := by
      have hlength := hl.outgoing p s hs
      rwa [hparam, if_pos rfl, List.length_eq_zero_iff] at hlength
    rw [hnone] at hmem
    exact absurd hmem (by simp)

/-- **One way on.** Whatever leads along the plugs from the first statement of a file stays in the
file and at its end. -/
theorem IsFile.prefix_of_isChain (h : l.IsFile first ids ending) (hl : l.IsUnbranched)
    {path : List Nat} (hhead : path.head? = some first) (hpath : path.IsChain l.PlugsInto) :
    path <+: ids ++ ending.toList := by
  have hsame : ∀ i x : Nat, path[i]? = some x → (ids ++ ending.toList)[i]? = some x := by
    intro i
    induction i with
    | zero =>
      intro x hx
      rw [← List.head?_eq_getElem?] at hx ⊢
      rw [List.head?_append, h.head, ← hx, hhead, Option.some_or]
    | succ i ih =>
      intro x hx
      obtain ⟨hlt, rfl⟩ := List.getElem?_eq_some_iff.1 hx
      have hbefore := ih _ (List.getElem?_eq_getElem (Nat.lt_of_succ_lt hlt))
      have hplugs := hpath.getElem i hlt
      by_cases hi : i + 1 < (ids ++ ending.toList).length
      · have hplugs' := h.isChain_append.getElem i hi
        rw [(List.getElem?_eq_some_iff.1 hbefore).2] at hplugs'
        rw [List.getElem?_eq_getElem hi, hl.next_unique hplugs hplugs']
      · -- the file ends here, so nothing can come behind
        have hlast : (ids ++ ending.toList).length - 1 = i := by
          have := (List.getElem?_eq_some_iff.1 hbefore).1
          omega
        refine absurd hplugs (h.not_plugsInto hl ?_)
        rw [List.getLast?_eq_getElem?, hlast]
        exact hbefore
  refine List.prefix_iff_getElem?.2 fun i hi => ?_
  exact hsame i _ (List.getElem?_eq_getElem hi)

/-- **One way to come.** One statement plugs into a statement of a file behind the first, and it is
in the file. -/
theorem IsFile.exists_before (h : l.IsFile first ids ending) (hl : l.IsUnbranched) {id : Nat}
    (hid : id ∈ ids) (hne : id ≠ first) :
    ∃ before ∈ ids, ∀ other, l.PlugsInto other id ↔ other = before := by
  obtain ⟨i, hi, rfl⟩ := List.mem_iff_getElem.1 hid
  cases i with
  | zero =>
    have hhead := h.head
    rw [List.head?_eq_getElem?, List.getElem?_eq_getElem hi] at hhead
    exact absurd (Option.some.inj hhead) hne
  | succ i =>
    have hplugs := h.linked.getElem i hi
    refine ⟨ids[i], List.getElem_mem _, fun other => ⟨fun hother => ?_, ?_⟩⟩
    · exact hl.source _ _ _ hother hplugs
    · rintro rfl
      exact hplugs

end File

/-! ### The chain of an unbranched page -/

/-- **On the way.** What was seen of a chain, the last first, and what is to be visited are a path
from the start. Where the path ends nothing comes behind it. -/
structure IsOnWay (l : Layout) (start : Nat) (seen todo : List Nat) : Prop where
  one : todo.length ≤ 1
  head : (seen.reverse ++ todo).head? = some start
  path : (seen.reverse ++ todo).IsChain l.PlugsInto
  flow : ∀ id ∈ seen, l.IsFlow id
  last : todo = [] → ∀ id ∈ seen.head?, ∃ s, l.get? id = some s ∧
    s.outgoing.map Connector.target = [none]

namespace IsOnWay

variable {l : Layout} {start id : Nat} {seen todo : List Nat}

/-- At first there is only the start. -/
lemma first (l : Layout) (start : Nat) : l.IsOnWay start [] [start] :=
  ⟨Nat.le_refl _, rfl, .singleton _, by simp, by simp⟩

/-- After what is to be visited next there is nothing to be visited. -/
lemma todo_eq_nil (h : l.IsOnWay start seen (id :: todo)) : todo = [] :=
  List.length_eq_zero_iff.1 (by simpa using h.one)

/-- What is to be visited was not seen before, for no path leads back. -/
lemma not_mem_seen (h : l.IsOnWay start seen (id :: todo)) (hl : l.IsUnbranched)
    (hstart : l.start? = some start) : id ∉ seen := by
  obtain rfl := h.todo_eq_nil
  have hnodup := hl.nodup_of_isChain hstart h.head h.path
  rw [List.nodup_append_comm, List.singleton_append, List.nodup_cons] at hnodup
  simpa using hnodup.1

/-- Where the path ends with a loose end, it is a file. -/
lemma isFile (h : l.IsOnWay start seen []) : l.IsFile start seen.reverse none := by
  obtain ⟨-, hhead, hpath, hflow, hlast⟩ := h
  rw [List.append_nil] at hhead hpath
  refine ⟨hhead, by simpa using hflow, hpath, ?_, by simp⟩
  rw [List.getLast?_reverse]
  exact hlast rfl

/-- Where a parameter is to be visited, what was seen is a file with this ending. The way so far
begins at the start, which is part of the flow, so that the parameter is not the first; and the
statement before it is led to it by its only target. -/
lemma isFile_of_parameter (h : l.IsOnWay start seen (id :: todo)) (hl : l.IsUnbranched)
    (hstart : l.start? = some start)
    (hparameter : ∀ s, l.get? id = some s → s.kind.isParameter = true) :
    l.IsFile start seen.reverse (some id) := by
  obtain rfl := h.todo_eq_nil
  obtain ⟨-, hhead, hpath, hflow, -⟩ := h
  cases seen with
  | nil =>
    -- the start is no parameter
    obtain rfl : id = start := by simpa using hhead
    obtain ⟨s, hs, hp⟩ := isFlow_start hstart
    exact absurd (hparameter s hs) (by simp [hp])
  | cons last seen =>
    have hplugs : l.PlugsInto last id := by
      rw [List.isChain_append] at hpath
      exact hpath.2.2 last (by simp) id rfl
    obtain ⟨t, ht, -⟩ := hl.target last id hplugs
    obtain ⟨s, hs, hp⟩ := hflow last List.mem_cons_self
    obtain ⟨target, htarget⟩ := hl.exists_target hs hp
    obtain rfl := (plugsInto_iff hs htarget).1 hplugs
    refine ⟨?_, by simpa [or_comm] using hflow, hpath.left_of_append, ?_, ?_⟩
    · simpa using hhead
    · intro i hi
      obtain rfl : last = i := by simpa using hi
      exact ⟨s, hs, htarget⟩
    · intro i hi
      obtain rfl := Option.some.inj hi
      exact ⟨t, ht, hparameter t ht⟩

/-- Behind a statement that is visited comes what it leads to. -/
lemma visit (h : l.IsOnWay start seen [id]) {s : Statement} (hs : l.get? id = some s)
    (hp : s.kind.isParameter = false) {target : Option Nat}
    (htarget : s.outgoing.map Connector.target = [target]) :
    l.IsOnWay start (id :: seen) target.toList := by
  obtain ⟨-, hhead, hpath, hflow, -⟩ := h
  refine ⟨by cases target <;> simp, ?_, ?_, List.forall_mem_cons.2 ⟨⟨s, hs, hp⟩, hflow⟩, ?_⟩
  · rw [List.reverse_cons, List.head?_append, hhead, Option.some_or]
  · rw [List.reverse_cons]
    refine hpath.append (by cases target <;> simp) fun last hlast next hnext => ?_
    obtain rfl : id = last := by simpa using hlast
    exact (plugsInto_iff hs htarget).2 (Option.mem_toList.1 (List.mem_of_head? hnext))
  · rintro hnone last hlast
    obtain rfl : id = last := by simpa using hlast
    obtain rfl : target = none := by simpa using hnone
    exact ⟨s, hs, htarget⟩

/-- **Going on.** What was seen and the chain of what is to be visited are a single file.

**Proof sketch.** Induction along the chain. A statement that is skipped was not seen before, so it
is a parameter. -/
theorem exists_isFile (hl : l.IsUnbranched) (hstart : l.start? = some start)
    (seen todo : List Nat) : l.IsOnWay start seen todo →
      ∃ ending, l.IsFile start (seen.reverse ++ l.chain seen todo) ending := by
  induction seen, todo using chain_induction l with
  | nil seen =>
    intro h
    rw [chain, List.append_nil]
    exact ⟨none, h.isFile⟩
  | skip seen id todo hskip ih =>
    intro h
    have hnew := h.not_mem_seen hl hstart
    rw [chain_skip _ hskip, h.todo_eq_nil, chain, List.append_nil]
    exact ⟨some id, h.isFile_of_parameter hl hstart fun s hs => (hskip s hs).resolve_right hnew⟩
  | new seen id todo s hs hp hnew ih =>
    intro h
    obtain rfl := h.todo_eq_nil
    obtain ⟨target, htarget⟩ := hl.exists_target hs hp
    rw [filterMap_target_of_map htarget, List.append_nil] at ih
    rw [chain_new _ hs hp hnew, filterMap_target_of_map htarget, List.append_nil,
      List.append_cons, ← List.reverse_cons]
    exact ih (h.visit hs hp htarget)

end IsOnWay

/-- **The file behind the start.** The chain of an unbranched page is a single file. -/
theorem IsUnbranched.exists_isFile {l : Layout} {start : Nat} (h : l.IsUnbranched)
    (hstart : l.start? = some start) : ∃ ending, l.IsFile start (l.chain [] [start]) ending :=
  IsOnWay.exists_isFile h hstart [] [start] (.first l start)

end Layout

end StickerBot
