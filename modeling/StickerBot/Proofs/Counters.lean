import StickerBot.Proofs.Results
import StickerBot.Proofs.StraightWalk
set_option autoImplicit false

/-!
# Counters of open loops

A loop whose passes are counted has a variable of its own, named for how many loops are open around
it. Loops that count nothing are open as well, so a name may be left out; but all loops that are
open at the same time were opened at different depths, and what is written next is deeper than all
of them. So no loop ever counts with the variable of a loop around it.

## Main definitions

* `Instruction.counted?` — the variable that an instruction counts with.
* `Context.counters` — the variables of the loops that are open.
* `CountedByDepth` — each of them is named for the depth at which its loop was opened.
* `Context.Counts` — code is added that counts with the variable of the present depth.
* `WalkState.CountsApart` — what is written next counts with a variable of its own.

## Main results

* `emitStatement_counts` — what a statement writes, and what loop it leaves open.
* `CountedByDepth.walk` — counters are named for their depths all along a walk.
* `generate_of_reach` — what is generated comes of wherever the walk stands.
* `counters_distinct` — counters are names, they differ, and a walk keeps them apart.
-/

namespace StickerBot

/-- **Counting.** The variable that an instruction gives a value, adds to or compares. -/
def Instruction.counted? : Instruction → Option String
  | .assign x _ | .increment x _ | .loop (.below x _) => some x
  | _ => none

/-! ### Counters by depth -/

/-- The variables of the loops that are open, the innermost first. -/
def Context.counters (c : Context) : List String := c.openBlocks.filterMap OpenBlock.counter

/-- **By depth.** The variable of each open loop is that of the number of loops around it. -/
def CountedByDepth : List OpenBlock → Prop
  | [] => True
  | b :: bs => (∀ x ∈ b.counter, x = Context.counterAt bs.length) ∧ CountedByDepth bs

namespace CountedByDepth

variable {bs : List OpenBlock}

/-- Closing the innermost loop leaves the others counted by depth. -/
lemma tail (h : CountedByDepth bs) : CountedByDepth bs.tail := by
  cases bs with
  | nil => exact h
  | cons b bs => exact h.2

/-- A counter is that of a depth which is already behind. -/
lemma exists_depth (h : CountedByDepth bs) {x : String}
    (hx : x ∈ bs.filterMap OpenBlock.counter) : ∃ d < bs.length, x = Context.counterAt d := by
  induction bs with
  | nil => simp at hx
  | cons b bs ih =>
    obtain ⟨b', hb', hcounter⟩ := List.mem_filterMap.1 hx
    rcases List.mem_cons.1 hb' with rfl | hb'
    · exact ⟨bs.length, Nat.lt_succ_self _, h.1 x hcounter⟩
    · obtain ⟨d, hd, hxd⟩ := ih h.2 (List.mem_filterMap.2 ⟨b', hb', hcounter⟩)
      exact ⟨d, Nat.lt_succ_of_lt hd, hxd⟩

/-- The counter of the present depth is not in use. -/
lemma not_mem (h : CountedByDepth bs) :
    Context.counterAt bs.length ∉ bs.filterMap OpenBlock.counter := by
  intro hmem
  obtain ⟨d, hd, heq⟩ := h.exists_depth hmem
  exact Nat.ne_of_gt hd (Context.counterAt_injective heq)

/-- No two open loops have the same counter. -/
lemma nodup (h : CountedByDepth bs) : (bs.filterMap OpenBlock.counter).Nodup := by
  induction bs with
  | nil => exact List.nodup_nil
  | cons b bs ih =>
    obtain ⟨hb, hbs⟩ := h
    cases hcounter : b.counter with
    | none => rw [List.filterMap_cons_none hcounter]; exact ih hbs
    | some x =>
      rw [List.filterMap_cons_some hcounter, hb x hcounter]
      exact List.nodup_cons.2 ⟨hbs.not_mem, ih hbs⟩

end CountedByDepth

/-! ### What a statement counts with -/

/-- The variables that code counts with. -/
def countedIn (code : List Instruction) : List String := code.filterMap Instruction.counted?

/-- The three instructions that count passes up to a limit. -/
def countingCode (counter : String) (limit : Int32) : List Instruction :=
  [.assign counter 0, .whileBelow counter limit, .increment counter 1]

/-- The code of a wait counts with its variable only, and it does so if there is a limit. -/
lemma counted_waitCode (v : ParameterValue) (counter : String) :
    (∀ x ∈ countedIn (waitCode v counter), x = counter) ∧
      ∀ limit ∈ v.limit?, (countingCode counter limit).Sublist (waitCode v counter) := by
  unfold waitCode countingCode
  cases v.limit? <;>
    simp [countedIn, Instruction.counted?, Instruction.native, Instruction.whileNotRaised,
      Instruction.whileBelow]

/-- The beginning of a repeat counts with the variable that is kept with the open loop. -/
lemma counted_repeatCode (v : ParameterValue) (counter : String) :
    (∀ x ∈ countedIn (repeatCode v counter), x = counter) ∧
      (∀ x, x ∈ repeatCounter v counter ↔ x ∈ countedIn (repeatCode v counter)) ∧
      ∀ limit ∈ v.limit?, (countingCode counter limit).Sublist (repeatCode v counter) := by
  unfold repeatCounter repeatCode countingCode
  cases v.limit? with
  | none => simp [countedIn, Instruction.counted?, Instruction.whileNotRaised]
  | some limit =>
    simp [countedIn, Instruction.counted?, Instruction.whileBelow, eq_comm (a := counter)]

/-- **Counting statements.** What is added to a context counts with the variable of the present
depth and no other. -/
structure Context.Counts (c c' : Context) (code : List Instruction) : Prop where
  instructions : c'.instructions = c.instructions ++ code
  counted : ∀ x ∈ countedIn code, x = c.counterName
  /-- The loops are those from before, or all but the innermost, or there is one more, which is
  kept with the variable that its code counts with. -/
  openBlocks : c'.openBlocks = c.openBlocks ∨ c'.openBlocks = c.openBlocks.tail ∨
    ∃ b : OpenBlock, c'.openBlocks = b :: c.openBlocks ∧ ∀ x, x ∈ b.counter ↔ x ∈ countedIn code

namespace Context

variable {code : List Instruction}

/-- Nothing is added. -/
lemma counts_self (c : Context) : c.Counts c [] :=
  ⟨(List.append_nil _).symm, by simp [countedIn], .inl rfl⟩

/-- Code is added. -/
lemma counts_emitAll (c : Context) (h : ∀ x ∈ countedIn code, x = c.counterName) :
    c.Counts (c.emitAll code) code := ⟨rfl, h, .inl rfl⟩

/-- Code is added that opens a loop. -/
lemma counts_openBlock (c : Context) (h : ∀ x ∈ countedIn code, x = c.counterName) {b : OpenBlock}
    (hb : ∀ x, x ∈ b.counter ↔ x ∈ countedIn code) :
    c.Counts ((c.emitAll code).openBlock b) code := ⟨rfl, h, .inr (.inr ⟨b, rfl, hb⟩)⟩

end Context

/-- Remarks before a statement count nothing. -/
lemma exists_counts_of_remarks {id : Nat} {name : String} {c c' : Context}
    {code : List Instruction} (h : (emitRemarks id name c).Counts c' code) :
    ∃ remarks, c.Counts c' (remarks ++ code) := by
  obtain ⟨hblocks, -, hinstructions⟩ := emitRemarks_spec id name c
  obtain ⟨hcode, hcounted, hopen⟩ := h
  have hremarks : countedIn ((if c.options.debug = true then
      [.trace c.nextTrace, .print name] else []) ++ code) = countedIn code := by
    split <;> rfl
  refine ⟨if c.options.debug then [.trace c.nextTrace, .print name] else [], ?_, ?_, ?_⟩
  · rw [hcode, hinstructions, List.append_assoc]
  · rw [hremarks]
    rwa [Context.counterName, Context.depth, hblocks] at hcounted
  · rw [hremarks, ← hblocks]
    exact hopen

/-- **Counted.** A statement is a wait or a repeat with a limit. -/
def Layout.IsCounted (l : Layout) (id : Nat) (limit : Int32) : Prop :=
  ∃ s, l.get? id = some s ∧ (s.kind = .wait ∨ s.kind = .loopBegin) ∧
    limit ∈ (readParameter id l).1.limit?

/-- **A statement** counts with the variable of the present depth, and a counted one does count.

**Proof sketch.** One case for each kind. A wait and a repeat with a limit write an initialization,
a test and an increment of the counter of their depth; the remarks before them count nothing. -/
theorem emitStatement_counts (id : Nat) (l : Layout) (c : Context) :
    ∃ code, c.Counts (emitStatement id l c).2 code ∧
      ∀ limit, l.IsCounted id limit → (countingCode c.counterName limit).Sublist code := by
  cases hid : l.get? id with
  | none =>
    refine ⟨[], ?_, fun limit h => ?_⟩
    · rw [emitStatement, hid]
      exact c.counts_self
    · obtain ⟨s, hs, -⟩ := h
      exact absurd (hid.symm.trans hs) (by simp)
  | some s =>
    have hcounted : ∀ limit, l.IsCounted id limit →
        (s.kind = .wait ∨ s.kind = .loopBegin) ∧ limit ∈ (readParameter id l).1.limit? := by
      rintro limit ⟨t, ht, hkind, hlimit⟩
      obtain rfl := Option.some.inj (hid.symm.trans ht)
      exact ⟨hkind, hlimit⟩
    have hother : s.kind ≠ .wait → s.kind ≠ .loopBegin → ∀ limit (code : List Instruction),
        l.IsCounted id limit → (countingCode c.counterName limit).Sublist code :=
      fun hwait hbegin limit _ h => absurd (hcounted limit h).1 (not_or.2 ⟨hwait, hbegin⟩)
    have hname : (emitRemarks id s.name c).counterName = c.counterName := by
      rw [Context.counterName, Context.depth, (emitRemarks_spec id s.name c).1, Context.counterName,
        Context.depth]
    unfold emitStatement
    rw [hid]
    dsimp only
    cases hk : s.kind with
    | start => exact ⟨[], c.counts_self, fun limit => hother (by simp [hk]) (by simp [hk]) limit _⟩
    | parameter v =>
      exact ⟨[], c.counts_self, fun limit => hother (by simp [hk]) (by simp [hk]) limit _⟩
    | action a =>
      have hact : ∀ x ∈ countedIn [.native a []], x = (emitRemarks id s.name c).counterName :=
        fun x hx => absurd hx List.not_mem_nil
      obtain ⟨remarks, h⟩ := exists_counts_of_remarks (Context.counts_emitAll _ hact)
      exact ⟨_, h, fun limit => hother (by simp [hk]) (by simp [hk]) limit _⟩
    | wait =>
      obtain ⟨hwait, hcounting⟩ := counted_waitCode (readParameter id l).1
        (emitRemarks id s.name c).counterName
      obtain ⟨remarks, h⟩ := exists_counts_of_remarks (Context.counts_emitAll _ hwait)
      refine ⟨_, h, fun limit hlimit => ?_⟩
      rw [← hname]
      exact (hcounting limit (hcounted limit hlimit).2).trans (List.sublist_append_right _ _)
    | loopBegin =>
      obtain ⟨hrepeat, hblock, hcounting⟩ := counted_repeatCode (readParameter id l).1
        (emitRemarks id s.name c).counterName
      obtain ⟨remarks, h⟩ := exists_counts_of_remarks
        (Context.counts_openBlock _ hrepeat (b := ⟨id, _⟩) hblock)
      refine ⟨_, h, fun limit hlimit => ?_⟩
      rw [← hname]
      exact (hcounting limit (hcounted limit hlimit).2).trans (List.sublist_append_right _ _)
    | loopEnd =>
      obtain ⟨hblocks, -, hinstructions⟩ := emitLoopEnd_spec id s.name c
      refine ⟨_, ⟨hinstructions, ?_, .inr (.inl hblocks)⟩,
        fun limit => hother (by simp [hk]) (by simp [hk]) limit _⟩
      split <;> simp [countedIn, Instruction.counted?]

/-! ### All along a walk -/

/-- Marks do not change what is counted. -/
lemma Layout.Marks.isCounted {l₀ l : Layout} {seen : List Nat} (h : l₀.Marks l seen) {id : Nat}
    {limit : Int32} (hcounted : l₀.IsCounted id limit) : l.IsCounted id limit := by
  obtain ⟨s₀, hs₀, hkind₀, hlimit⟩ := hcounted
  obtain ⟨s, hs, hkind, -⟩ := h.exists_get? hs₀
  exact ⟨s, hs, hkind ▸ hkind₀, (h.readParameter id).1 ▸ hlimit⟩

namespace WalkState

/-- The next task writes a statement. -/
def Writes (w : WalkState) (id : Nat) : Prop :=
  ∃ depth rest s, w.tasks = .visit id depth :: rest ∧ w.layout.get? id = some s ∧
    s.kind.isParameter = false ∧ s.isCompiled = false

/-- **Counting apart.** No two open loops have the same counter, and what is written next counts
with a variable that none of them has. Every wait or repeat of the page with a limit does count. -/
structure CountsApart (l : Layout) (w : WalkState) : Prop where
  nodup : w.context.counters.Nodup
  not_mem : w.context.counterName ∉ w.context.counters
  step : ∀ w', WalkStep w w' → ∃ code, w.context.Counts w'.context code ∧
    ∀ id limit, w.Writes id → l.IsCounted id limit →
      (countingCode w.context.counterName limit).Sublist code

end WalkState

/-- **A step** of a walk counts with the variable of the present depth. Only the step that visits a
new statement writes at all; the others leave the context as it was, or report. -/
theorem WalkStep.counts {l : Layout} {seen : List Nat} {w w' : WalkState} (h : WalkStep w w')
    (hm : l.Marks w.layout seen) :
    ∃ code, w.context.Counts w'.context code ∧ ∀ id limit, w.Writes id → l.IsCounted id limit →
      (countingCode w.context.counterName limit).Sublist code := by
  cases h with
  | lost hid =>
    refine ⟨[], Context.counts_self _, ?_⟩
    rintro id limit ⟨_, _, _, htasks, -⟩
    simp at htasks
  | dangle hid =>
    refine ⟨[], ⟨(List.append_nil _).symm, by simp [countedIn], .inl rfl⟩, ?_⟩
    rintro id limit ⟨_, _, _, htasks, -⟩
    simp at htasks
  | skip hdepth hskip =>
    refine ⟨[], Context.counts_self _, ?_⟩
    rintro i limit ⟨_, _, s, htasks, hs, hp, hnew⟩
    obtain ⟨rfl, -⟩ := WalkTask.visit.inj (List.cons.inj htasks).1
    exact absurd (hskip s hs) (by simp [hp, hnew])
  | @new id depth rest l' c s hdepth hid hp hnew =>
    obtain ⟨code, hcounts, hcounting⟩ := emitStatement_counts id (l'.markCompiled id) c
    refine ⟨code, hcounts, ?_⟩
    rintro i limit ⟨_, _, _, htasks, -⟩ hcounted
    refine hcounting limit ?_
    obtain ⟨rfl, -⟩ := WalkTask.visit.inj (List.cons.inj htasks).1
    exact (hm.markCompiled id).isCounted hcounted

/-- Counting keeps counters named for their depths. -/
lemma CountedByDepth.of_counts {c c' : Context} {code : List Instruction}
    (h : CountedByDepth c.openBlocks) (hcounts : c.Counts c' code) :
    CountedByDepth c'.openBlocks := by
  rcases hcounts.openBlocks with hsame | htail | ⟨b, hopen, hb⟩
  · rwa [hsame]
  · rw [htail]
    exact h.tail
  · rw [hopen]
    exact ⟨fun x hx => hcounts.counted x ((hb x).1 hx), h⟩

/-- A step of a walk changes nothing of the page but its marks. -/
lemma WalkStep.exists_marks {l : Layout} {seen : List Nat} {w w' : WalkState} (h : WalkStep w w')
    (hm : l.Marks w.layout seen) : ∃ seen', l.Marks w'.layout seen' := by
  cases h with
  | lost _ => exact ⟨seen, hm⟩
  | dangle _ => exact ⟨seen, hm.markDangling _⟩
  | skip _ _ => exact ⟨seen, hm⟩
  | new _ hid _ _ => exact ⟨_, hm.emitStatement hid _⟩

/-- **All along a walk** counters are named for the depths of their loops. -/
theorem CountedByDepth.walk {l : Layout} {options : GenerateOptions} {start : Nat} {w : WalkState}
    (h : Relation.ReflTransGen WalkStep (.first l options start) w) :
    CountedByDepth w.context.openBlocks ∧ ∃ seen, l.Marks w.layout seen := by
  induction h with
  | refl => exact ⟨trivial, [], .clearMarks l⟩
  | tail _ hstep ih =>
    obtain ⟨hdepth, seen, hm⟩ := ih
    obtain ⟨code, hcounts, -⟩ := hstep.counts hm
    exact ⟨hdepth.of_counts hcounts, hstep.exists_marks hm⟩

/-- **The run.** Wherever the walk from the start of a page stands, what is generated comes of
it. -/
lemma generate_of_reach {l : Layout} {options : GenerateOptions} {start : Nat} {w : WalkState}
    (hstart : l.start? = some start)
    (h : Relation.ReflTransGen WalkStep (.first l options start) w) :
    generate l options = (w.outcome.1, w.outcome.2.map Context.finish) := by
  have hsame : (WalkState.first l options start).outcome = w.outcome := by
    induction h with
    | refl => rfl
    | tail _ hstep ih => exact ih.trans hstep.outcome_eq
  rw [generate_of_start? hstart, ← hsame, WalkState.outcome, WalkState.first]
  rcases walk [.visit start 0] l.clearMarks (.start options) with ⟨l', e | c⟩ <;> rfl

/-- **Counters are distinct names.** Different depths have different counters, and each of them is
read as one name. So wherever the walk stands that generates a program, the loops that are open
there have different counters, and what is written there counts with a variable that none of them
has.

**Proof sketch.** The counter of an open loop is that of the number of loops around it, and all of
these numbers are below the present depth. -/
theorem counters_distinct :
    (∀ d e, d ≠ e → Context.counterAt d ≠ Context.counterAt e) ∧
    (∀ d, IsName (Context.counterAt d) ∧ (Listing.lex (Context.counterAt d)).errors = [] ∧
      (Listing.lex (Context.counterAt d)).tokens.map Listing.Token.kind =
        [.identifier (Context.counterAt d), .endOfInput]) ∧
    ∀ l options start, l.start? = some start →
      ∀ w, Relation.ReflTransGen WalkStep (.first l options start) w →
        generate l options = (w.outcome.1, w.outcome.2.map Context.finish) ∧ w.CountsApart l := by
  refine ⟨fun d e hne heq => hne (Context.counterAt_injective heq), fun d => ?_,
    fun l options start hstart w h => ⟨generate_of_reach hstart h, ?_⟩⟩
  · have hname := isName_counterAt d
    have hnothing : Listing.Stops Listing.continuesWord [] := fun c hc => by simp at hc
    have htakes := Listing.takes_name hname hnothing
    rw [List.append_nil] at htakes
    exact ⟨hname, htakes.lex.2, htakes.lex.1⟩
  · obtain ⟨hdepth, seen, hm⟩ := CountedByDepth.walk h
    exact ⟨hdepth.nodup, hdepth.not_mem, fun w' hstep => hstep.counts hm⟩

/-- A page with a counted wait in a repeat until a tap, in a counted repeat. -/
def nestedPage : Layout :=
  ⟨[stickerTo .start "Begin" (some 1) none,
    stickerTo .loopBegin "Begin Repeat" (some 2) (some 4),
    stickerTo .loopBegin "Begin Repeat" (some 3) (some 5),
    stickerTo .wait "Wait" none (some 6),
    stickerTo (.parameter (.count 2)) "2" none none,
    stickerTo (.parameter .tap) "Tap" none none,
    stickerTo (.parameter (.count 4)) "4" none none]⟩

/-- The wait of the page counts apart from the repeat around both loops. The walk is followed for
three statements, up to the one before which both repeats are open, and the theorem says how the
wait that is written next counts. -/
theorem counters_distinct_nestedPage :
    Context.counterAt 25 ≠ Context.counterAt 26 ∧
    nestedPage.start? = some 0 ∧
    ∃ w w', Relation.ReflTransGen WalkStep (.first nestedPage {} 0) w ∧ WalkStep w w' ∧
      w.context.counters = ["a"] ∧ w.context.counterName = "c" ∧ w.Writes 3 ∧
      nestedPage.IsCounted 3 4 ∧ w.context.counters.Nodup ∧ "c" ∉ w.context.counters ∧
      ∃ code, w.context.Counts w'.context code ∧ (countingCode "c" 4).Sublist code := by
  obtain ⟨hdiffer, -, hwalk⟩ := counters_distinct
  have hstart : nestedPage.start? = some 0 := by decide
  have hreach : Relation.ReflTransGen WalkStep (.first nestedPage {} 0) _ :=
    .head (.new (by decide) rfl rfl rfl) (.head (.new (by decide) rfl rfl rfl)
      (.head (.new (by decide) rfl rfl rfl) .refl))
  obtain ⟨-, happart⟩ := hwalk _ _ _ hstart _ hreach
  refine ⟨hdiffer 25 26 (by decide), hstart, _, _, hreach, .new (by decide) rfl rfl rfl, ?_, ?_,
    ⟨3, [], _, rfl, rfl, rfl, rfl⟩, ⟨_, rfl, .inl rfl, rfl⟩, happart.nodup, happart.not_mem, ?_⟩
  · rfl
  · rfl
  · obtain ⟨code, hcounts, hcounting⟩ := happart.step _ (.new (by decide) rfl rfl rfl)
    exact ⟨code, hcounts, hcounting 3 4 ⟨3, [], _, rfl, rfl, rfl, rfl⟩ ⟨_, rfl, .inl rfl, rfl⟩⟩

end StickerBot
