import StickerBot.Proofs.Chain
set_option autoImplicit false

/-!
# How a program begins, and how far its chain may go

A program begins at the one statement that is a start. The limit on chains ends a walk that has
gone too far; it is out of reach on a page with no more statements than the limit, for every step
that leads on goes to a statement that was not written before.

## Main results

* `Layout.start?_eq_some_iff` — where a program begins.
* `generate_of_start?`, `generate_of_start?_eq_none` — what is written from a start, and why nothing
  is written without one.
* `generate_isOk` — a page within the limit has a program.
-/

namespace StickerBot

variable {l : Layout}

/-! ### The start -/

/-- What counts once in a list is in one place. Otherwise the earlier place would count in the front
of the list and the later one in its back, and together they would be two. -/
lemma eq_of_countP_le_one {α : Type} {p : α → Bool} {xs : List α} (h : xs.countP p ≤ 1) {i j : Nat}
    {x y : α} (hi : xs[i]? = some x) (hx : p x = true) (hj : xs[j]? = some y) (hy : p y = true) :
    i = j := by
  have hnot : ∀ {i j : Nat} {x y : α}, xs[i]? = some x → p x = true → xs[j]? = some y →
      p y = true → ¬ i < j := by
    intro i j x y hi hx hj hy hlt
    have hfront : 0 < (xs.take j).countP p :=
      List.countP_pos_iff.2 ⟨x, List.mem_of_getElem? ((List.getElem?_take_of_lt hlt).trans hi), hx⟩
    have hback : 0 < (xs.drop j).countP p := by
      have hfirst : (xs.drop j)[0]? = some y := by rw [List.getElem?_drop]; exact hj
      exact List.countP_pos_iff.2 ⟨y, List.mem_of_getElem? hfirst, hy⟩
    have hsplit : xs.countP p = (xs.take j).countP p + (xs.drop j).countP p := by
      rw [← List.countP_append, List.take_append_drop]
    omega
  rcases Nat.lt_trichotomy i j with hlt | heq | hlt
  · exact absurd hlt (hnot hi hx hj hy)
  · exact heq
  · exact absurd hlt (hnot hj hy hi hx)

namespace Layout

/-- Two statements that begin the only program are the same. -/
lemma start_unique (hcount : l.startCount = 1) {i j : Nat} {s t : Statement}
    (hi : l.get? i = some s) (hs : s.kind.isStart = true) (hj : l.get? j = some t)
    (ht : t.kind.isStart = true) : i = j :=
  eq_of_countP_le_one (Nat.le_of_eq hcount) hi hs hj ht

/-- Where there is one start it is found. -/
lemma exists_start? (hcount : l.startCount = 1) : ∃ start, l.start? = some start := by
  have hpos : 0 < l.startCount := by omega
  obtain ⟨s, hs, hstart⟩ := List.countP_pos_iff.1 hpos
  have hsome : (l.statements.findIdx? fun s => s.kind.isStart).isSome = true := by
    rw [List.findIdx?_isSome]
    exact List.any_eq_true.2 ⟨s, hs, hstart⟩
  simpa [start?, hasStart, hcount] using Option.isSome_iff_exists.1 hsome

/-- **The start** of a program is the one statement that begins it. If there is exactly one start it
is the first one that is found, and if there are more the page has no start at all. -/
theorem start?_eq_some_iff {start : Nat} : l.start? = some start ↔
    l.startCount = 1 ∧ ∃ s, l.get? start = some s ∧ s.kind.isStart = true := by
  have hfound : ∀ {i}, l.start? = some i →
      l.startCount = 1 ∧ ∃ s, l.get? i = some s ∧ s.kind.isStart = true := by
    intro i h
    unfold start? hasStart at h
    split at h
    · rename_i hone
      obtain ⟨hlt, hstart, -⟩ := List.findIdx?_eq_some_iff_getElem.1 h
      exact ⟨of_decide_eq_true hone, l.statements[i], List.getElem?_eq_getElem hlt, hstart⟩
    · exact absurd h (by simp)
  refine ⟨hfound, ?_⟩
  rintro ⟨hcount, s, hs, hstart⟩
  obtain ⟨i, hi⟩ := exists_start? hcount
  obtain ⟨-, t, ht, hfirst⟩ := hfound hi
  rw [hi, start_unique hcount ht hfirst hs hstart]

end Layout

/-- A layout with one start has the program that the walk from it writes. -/
theorem generate_of_start? {start : Nat} (h : l.start? = some start) (options : GenerateOptions) :
    generate l options = match walk [.visit start 0] l.clearMarks (.start options) with
      | (l, .ok c) => (l, .ok c.finish)
      | (l, .error e) => (l, .error e) := by
  have hcount := (Layout.start?_eq_some_iff.1 h).1
  unfold generate
  rw [hcount, h]
  rfl

/-- A layout without a start, or with more than one, has no program. -/
theorem generate_of_start?_eq_none (h : l.start? = none) (options : GenerateOptions) :
    generate l options = (l, .error
      (if l.startCount ≤ 1 then .missingStart else .duplicateStart l.startCount)) := by
  unfold generate
  rw [h]
  match hcount : l.startCount with
  | 0 => rfl
  | 1 => rfl
  | count + 2 => rfl

/-- A program is written by a walk from the start. -/
lemma generate_eq_ok {l' : Layout} {options : GenerateOptions} {g : Generated}
    (h : generate l options = (l', .ok g)) :
    ∃ start c, l.start? = some start ∧ g = c.finish ∧
      walk [.visit start 0] l.clearMarks (.start options) = (l', .ok c) := by
  cases hstart : l.start? with
  | none =>
    rw [generate_of_start?_eq_none hstart] at h
    exact absurd (Prod.mk.inj h).2 (by simp)
  | some start =>
    rw [generate_of_start? hstart] at h
    rcases hwalk : walk [.visit start 0] l.clearMarks (.start options) with ⟨l₁, e | c⟩
    · simp [hwalk] at h
    · rw [hwalk] at h
      obtain ⟨rfl, hg⟩ := Prod.mk.inj h
      exact ⟨start, c, rfl, (Except.ok.inj hg).symm, hwalk⟩

/-! ### Chains within the limit -/

/-- Writing a statement does not change the options. One case for each kind of statement: the
remarks, the instructions and the blocks are kept in other fields. -/
@[simp] lemma options_emitStatement (id : Nat) (l : Layout) (c : Context) :
    (emitStatement id l c).2.options = c.options := by
  have hremarks : ∀ name, (emitRemarks id name c).options = c.options := fun name => by
    unfold emitRemarks
    split <;> rfl
  unfold emitStatement
  cases l.get? id with
  | none => rfl
  | some s =>
    obtain ⟨kind, name, marker, connectors, compiled, dangling⟩ := s
    cases kind with
    | start => rfl
    | parameter v => rfl
    | action a => exact hremarks name
    | wait => exact hremarks name
    | loopBegin => exact hremarks name
    | loopEnd =>
      simp only [emitLoopEnd, Context.closeBlock]
      cases c.openBlocks <;> rfl

/-- **Within the limit.** A walk comes to its end if no task is farther from the start than the
limit allows for all statements without a mark to come after it.

**Proof sketch.** Induction along the walk. A task that leads one step on has taken one of the
statements without a mark. -/
theorem walk_isOk (tasks : List WalkTask) (l : Layout) (c : Context)
    (h : ∀ id depth, .visit id depth ∈ tasks → depth + l.uncompiled ≤ c.options.maxChainDepth) :
    ∃ c', (walk tasks l c).2 = .ok c' := by
  induction tasks, l, c using walk_induction with
  | done l c =>
    rw [walk]
    exact ⟨c, rfl⟩
  | lost l c id rest hid ih =>
    rw [walk, hid]
    exact ih fun i depth hi => h i depth (.tail _ hi)
  | dangle l c id rest s hid ih =>
    rw [walk, hid]
    refine ih fun i depth hi => ?_
    have hfewer := l.uncompiled_markDangling_le id
    have hbound := h i depth (.tail _ hi)
    exact Nat.le_trans (Nat.add_le_add_left hfewer depth) hbound
  | deep l c id depth rest hdeep =>
    have hbound := h id depth (.head _)
    omega
  | skip l c id depth rest hdepth hskip ih =>
    rw [walk_skip rest hdepth hskip]
    exact ih fun i depth hi => h i depth (.tail _ hi)
  | new l c id depth rest s hdepth hid hp hcompiled ih =>
    have hfewer : (emitStatement id (l.markCompiled id) c).1.uncompiled < l.uncompiled :=
      Nat.lt_of_le_of_lt (uncompiled_emitStatement_le id (l.markCompiled id) c)
        (Layout.uncompiled_markCompiled_lt hid hcompiled)
    rw [walk_new rest hdepth hid hp hcompiled]
    refine ih fun i d hi => ?_
    rw [options_emitStatement]
    rcases List.mem_append.1 hi with hbranch | hrest
    · have hbound := h id depth (.head _)
      obtain ⟨connector, -, htask⟩ := List.mem_map.1 hbranch
      have hd : d = depth + 1 := by
        split at htask
        · exact (WalkTask.visit.inj htask).2.symm
        · exact absurd htask (by simp)
      omega
    · have hbound := h i d (.tail _ hrest)
      omega

/-- **Pages within the limit** have a program: one start, and no more statements than the limit. -/
theorem generate_isOk (hcount : l.startCount = 1) {options : GenerateOptions}
    (hsize : l.size ≤ options.maxChainDepth) : ∃ g, (generate l options).2 = .ok g := by
  obtain ⟨start, hstart⟩ := Layout.exists_start? hcount
  have huncompiled : l.clearMarks.uncompiled ≤ options.maxChainDepth :=
    Nat.le_trans List.countP_le_length (by simpa [Layout.clearMarks, Layout.size] using hsize)
  obtain ⟨c, hc⟩ := walk_isOk [.visit start 0] l.clearMarks (.start options) fun id depth hmem => by
    obtain ⟨-, rfl⟩ : id = start ∧ depth = 0 := by simpa using hmem
    rw [Nat.zero_add]
    exact huncompiled
  rw [generate_of_start? hstart]
  rcases hwalk : walk [.visit start 0] l.clearMarks (.start options) with ⟨l', r⟩
  rw [hwalk] at hc
  obtain rfl : r = .ok c := hc
  exact ⟨c.finish, rfl⟩

end StickerBot
