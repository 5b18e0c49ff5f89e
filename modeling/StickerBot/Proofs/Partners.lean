import StickerBot.Proofs.Blocks
import StickerBot.Proofs.Links
import StickerBot.Proofs.Restarting
import StickerBot.Proofs.StructuredRun
set_option autoImplicit false

/-!
# Partners of braces

Two scans read the braces of a program: one links each brace with its partner, with a stack of open
headers, and one only counts the braces that have none. They agree on every sequence of
instructions. A header and a closing brace are linked exactly if what stands strictly between them
is balanced, and only braces without such a partner keep a run from going on.

## Main definitions

* `Pairs` — a loop begins at one place and ends at another one.
* `unlinked` — the braces of a kind that have no link.
* `WellLinked` — what is promised of the links of a program.
* `Machine.Flows` — all that an instruction can do to the place of its process.

## Main results

* `closes_iff_pairs` — a closing brace closes a header exactly if they are a pair.
* `Program.wellLinked_linkBlocks` — the links of a program are right, and agree with its balance.
* `Machine.flows_execute` — what an instruction does to the place of its process.
* `braces_partnered` — the links are right, and only a brace without a partner stops a run.
-/

namespace StickerBot

/-! ### Pairs -/

/-- The instructions strictly between two places. -/
def between (is : List Instruction) (first last : Nat) : List Instruction :=
  (is.take last).drop (first + 1)

/-- **Pairs.** At one place there is a header, at a later one a closing brace, and what stands
strictly between them is balanced. -/
structure Pairs (is : List Instruction) (header closing : Nat) : Prop where
  order : header < closing
  opens : ∃ c, is[header]? = some (.loop c)
  closes : is[closing]? = some .close
  balanced : (Program.ofInstructions (between is header closing)).balance.isBalanced = true

/-- The braces of a kind that have no link, from the first to the last. -/
def unlinked (is : List Instruction) (links : List (Option Nat)) (kind : Instruction → Bool) :
    List Nat :=
  (List.range is.length).filter fun i => is[i]?.any kind && links[i]?.join.isNone

/-- **Well linked.** Exactly the pairs are linked, each of the two places with the other. Inside of
a pair there are only links to the inside. The headers without a link are as many as the balance
counts, and so are the closing braces. -/
structure Program.WellLinked (p : Program) (links : List (Option Nat)) : Prop where
  length : links.length = p.instructions.length
  linked : ∀ i j, links[i]?.join = some j ↔ Pairs p.instructions i j ∨ Pairs p.instructions j i
  inside : ∀ header closing, Pairs p.instructions header closing → ∀ i j, header < i →
    i < closing → links[i]?.join = some j → header < j ∧ j < closing
  unclosed : (unlinked p.instructions links Instruction.isLoop).length = p.balance.unclosed
  strayCloses : (unlinked p.instructions links Instruction.isClose).length = p.balance.strayCloses

variable {is : List Instruction}

/-- What stands between two places if the last one moves on. -/
lemma between_succ {first last : Nat} {i : Instruction} (hi : is[last]? = some i)
    (hlt : first < last) : between is first (last + 1) = between is first last ++ [i] := by
  have hlast : last < is.length := (List.getElem?_eq_some_iff.1 hi).1
  have hfirst : first + 1 ≤ (is.take last).length := by
    rw [List.length_take_of_le (Nat.le_of_lt hlast)]
    exact hlt
  rw [between, List.take_add_one, hi, Option.toList_some, List.drop_append_of_le_length hfirst]
  rfl

/-- **Behind a header.** All along what follows a header the balance counts the headers that are
open inside of its loop, as long as the loop was not closed; once it was, it counts a stray brace.

**Proof sketch.** Induction along the instructions. A closing brace takes the innermost of the
headers that are open inside. If there is none it closes the loop, and this is where the balance of
what follows the header counts its first stray brace. -/
lemma openAt_behind {header : Nat} {c : Condition} (hc : is[header]? = some (.loop c)) :
    ∀ place, header < place → place ≤ is.length →
      let b := (between is header place).foldl BlockBalance.add .zero
      (b.strayCloses = 0 ∧ ∃ inner, openAt is place = inner ++ header :: openAt is header ∧
          inner.length = b.unclosed) ∨
        0 < b.strayCloses ∧ ∃ closing < place, Closes is closing header := by
  intro place hlt
  induction place, hlt using Nat.le_induction with
  | base =>
    intro hle
    have hnil : between is header (header + 1) = [] :=
      List.drop_eq_nil_of_le (List.length_take_le _ _)
    rw [hnil]
    exact .inl ⟨rfl, [], openAt_succ hc, rfl⟩
  | succ place hlt ih =>
    intro hle
    have hi : is[place]? = some is[place] := List.getElem?_eq_getElem hle
    have hold := ih (Nat.le_of_succ_le hle)
    rw [between_succ hi hlt, List.foldl_append, openAt_succ hi]
    generalize (between is header place).foldl BlockBalance.add .zero = b at hold ⊢
    simp only [List.foldl_cons, List.foldl_nil] at hold ⊢
    rcases hold with ⟨hstray, inner, hopen, hlength⟩ | ⟨hstray, closing, hclosing, hcloses⟩
    · cases hcase : is[place] with
      | loop c' =>
        refine .inl ⟨hstray, place :: inner, ?_, ?_⟩
        · rw [hopen]
          rfl
        · rw [List.length_cons, hlength]
          rfl
      | close =>
        cases inner with
        | nil =>
          have hzero : b.unclosed = 0 := hlength.symm
          have hcloses : Closes is place header := ⟨hi.trans (by rw [hcase]), by simp [hopen]⟩
          exact .inr ⟨by simp [BlockBalance.add, hzero], place, Nat.lt_succ_self _, hcloses⟩
        | cons first inner =>
          have hpos : b.unclosed ≠ 0 := by simp [← hlength]
          refine .inl ⟨?_, inner, ?_, ?_⟩
          · simp [BlockBalance.add, hpos, hstray]
          · rw [hopen]
            rfl
          · simp [BlockBalance.add, ← hlength]
      | _ => exact .inl ⟨hstray, inner, hopen, hlength⟩
    · have hmore := BlockBalance.strayCloses_le_foldl [is[place]] b
      exact .inr ⟨hstray.trans_le hmore, closing, Nat.lt_succ_of_lt hclosing, hcloses⟩

/-- **Pairs** are what closing braces close: the one is found by what is open at a place, the other
by what stands between two places. -/
theorem closes_iff_pairs {header closing : Nat} :
    Closes is closing header ↔ Pairs is header closing := by
  constructor
  · intro h
    obtain ⟨hlt, c, hc⟩ := h.header_spec
    have hle : closing ≤ is.length := Nat.le_of_lt (List.getElem?_eq_some_iff.1 h.1).1
    refine ⟨hlt, ⟨c, hc⟩, h.1, ?_⟩
    rcases openAt_behind hc closing hlt hle with ⟨hstray, inner, hopen, hlength⟩ |
      ⟨-, earlier, hearlier, hcloses⟩
    · have hnone : inner.length = 0 := by
        have hsame := congrArg List.length (h.openAt_eq.symm.trans hopen)
        simp only [List.length_append, List.length_cons] at hsame
        omega
      exact decide_eq_true ⟨hlength.symm.trans hnone, hstray⟩
    · exact absurd hearlier (Nat.not_lt.2 (Nat.le_of_eq (h.closing_unique hcloses)))
  · rintro ⟨hlt, ⟨c, hc⟩, hclose, hbalanced⟩
    have hle : closing ≤ is.length := Nat.le_of_lt (List.getElem?_eq_some_iff.1 hclose).1
    obtain ⟨hunclosed, hstray⟩ := of_decide_eq_true hbalanced
    rcases openAt_behind hc closing hlt hle with ⟨-, inner, hopen, hlength⟩ | ⟨hpos, -⟩
    · obtain rfl : inner = [] := List.length_eq_zero_iff.1 (hlength.trans hunclosed)
      exact ⟨hclose, by rw [hopen]; rfl⟩
    · exact absurd hstray (Nat.ne_of_gt hpos)

/-- **Nesting.** What is closed inside of a loop begins inside of it, and what begins inside of it
is closed there, if it is closed. -/
lemma Closes.nested {header closing header' closing' : Nat} (h : Closes is closing header)
    (h' : Closes is closing' header') :
    (header < closing' → closing' < closing → header < header') ∧
      (header < header' → header' < closing → closing' < closing) := by
  have hopen : ∀ {header closing : Nat}, Closes is closing header → ∀ place, header < place →
      place ≤ closing → header ∈ openAt is place := fun hclose place hlt hle => by
    obtain ⟨-, c, hc⟩ := hclose.header_spec
    refine mem_openAt_of_not_closes hc hlt fun earlier hearlier hcloses => ?_
    have hsame := hclose.closing_unique hcloses
    omega
  have houter : ∀ {header closing place : Nat}, Closes is closing header →
      place ∈ openAt is closing → place ≠ header → place < header := fun hclose hmem hne => by
    rw [hclose.openAt_eq] at hmem
    exact (of_mem_openAt ((List.mem_cons.1 hmem).resolve_left hne)).1
  constructor
  · intro hlt hinside
    have hne : header ≠ header' := by
      rintro rfl
      exact absurd (h.closing_unique h') (Nat.ne_of_gt hinside)
    exact houter h' (hopen h closing' hlt (Nat.le_of_lt hinside)) hne
  · intro hlt hinside
    refine Nat.lt_of_not_le fun hle => ?_
    have hbefore := houter h (hopen h' closing hinside hle) (Nat.ne_of_gt hlt)
    omega

/-! ### Links and balance -/

/-- What is open at a place is open there once. -/
lemma nodup_openAt (is : List Instruction) (place : Nat) : (openAt is place).Nodup := by
  induction place with
  | zero => exact List.nodup_nil
  | succ place ih =>
    cases hi : is[place]? with
    | none => rwa [openAt, hi]
    | some i =>
      rw [openAt_succ hi]
      cases i with
      | loop c =>
        refine List.nodup_cons.2 ⟨fun hmem => ?_, ih⟩
        exact absurd (of_mem_openAt hmem).1 (Nat.lt_irrefl _)
      | close => exact ih.sublist (List.tail_sublist _)
      | _ => exact ih

/-- At a place there is a header. -/
lemma any_isLoop_iff {i : Nat} :
    is[i]?.any Instruction.isLoop = true ↔ ∃ c, is[i]? = some (.loop c) := by
  rcases is[i]? with _ | i
  · simp
  · cases i <;> simp [Instruction.isLoop]

/-- At a place there is a closing brace. -/
lemma any_isClose_iff {i : Nat} :
    is[i]?.any Instruction.isClose = true ↔ is[i]? = some .close := by
  rcases is[i]? with _ | i
  · simp
  · cases i <;> simp [Instruction.isClose]

/-- Linking gives every instruction a link or none. -/
lemma length_linkFrom (is : List Instruction) : ∀ place opened (links : List (Option Nat)),
    (linkFrom place opened links is).length = links.length := by
  induction is with
  | nil => exact fun _ _ _ => rfl
  | cons i is ih =>
    intro place opened links
    cases i with
    | close =>
      cases opened with
      | nil => exact ih _ _ _
      | cons header outer => simp [linkFrom, ih]
    | _ => exact ih _ _ _

/-- A place has a link exactly if it is one of a pair. -/
lemma isNone_link_iff (is : List Instruction) (i : Nat) :
    ((linkBlocks is)[i]?).join.isNone = true ↔ ∀ j, ¬ Closes is i j ∧ ¬ Closes is j i := by
  simp only [Option.isNone_iff_eq_none, Option.eq_none_iff_forall_ne_some, ne_eq,
    partner?_linkBlocks_iff, not_or]

/-- The headers without a link are those that are never closed. -/
lemma mem_unlinked_isLoop {i : Nat} :
    i ∈ unlinked is (linkBlocks is) Instruction.isLoop ↔ i ∈ unclosed is := by
  rw [unlinked, List.mem_filter, List.mem_range, Bool.and_eq_true, isNone_link_iff,
    any_isLoop_iff, mem_unclosed_iff]
  constructor
  · rintro ⟨-, hloop, hnone⟩
    exact ⟨hloop, fun closing => (hnone closing).2⟩
  · rintro ⟨⟨c, hc⟩, hnot⟩
    refine ⟨(List.getElem?_eq_some_iff.1 hc).1, ⟨c, hc⟩, fun j => ⟨fun hj => ?_, hnot j⟩⟩
    exact absurd (hc.symm.trans hj.1) (by simp)

/-- The closing braces without a link are those before which nothing is open. -/
lemma unlinked_isClose (i : Nat) :
    (is[i]?.any Instruction.isClose && ((linkBlocks is)[i]?).join.isNone) =
      decide (is[i]? = some .close ∧ openAt is i = []) := by
  rw [Bool.eq_iff_iff, Bool.and_eq_true, isNone_link_iff, any_isClose_iff, decide_eq_true_iff]
  refine and_congr_right fun hclose => ⟨fun hnone => ?_, fun hnil j => ⟨fun hj => ?_, fun hj => ?_⟩⟩
  · cases hopen : openAt is i with
    | nil => rfl
    | cons header outer => exact absurd ⟨hclose, by rw [hopen]; rfl⟩ (hnone header).1
  · simp [hj.openAt_eq] at hnil
  · obtain ⟨-, c, hc⟩ := hj.header_spec
    exact absurd (hclose.symm.trans hc) (by simp)

/-- **The links of a program** are right: they join the pairs and nothing else, and the braces that
they leave alone are those that the balance counts. -/
theorem Program.wellLinked_linkBlocks (p : Program) : p.WellLinked (linkBlocks p.instructions) := by
  constructor
  · rw [linkBlocks, length_linkFrom, List.length_replicate]
  · intro i j
    rw [partner?_linkBlocks_iff, closes_iff_pairs, closes_iff_pairs, or_comm]
  · intro header closing hpair i j hlt hinside hlink
    have hpair := closes_iff_pairs.2 hpair
    rcases (partner?_linkBlocks_iff _ i j).1 hlink with hclose | hclose
    · exact ⟨(hpair.nested hclose).1 hlt hinside, hclose.header_spec.1.trans hinside⟩
    · exact ⟨hlt.trans hclose.header_spec.1, (hpair.nested hclose).2 hlt hinside⟩
  · have hperm : (unlinked p.instructions (linkBlocks p.instructions) Instruction.isLoop).Perm
        (StickerBot.unclosed p.instructions) :=
      (List.perm_ext_iff_of_nodup (List.nodup_range.filter _) (nodup_openAt _ _)).2
        fun _ => mem_unlinked_isLoop
    rw [unclosed_balance, hperm.length_eq]
  · rw [strayCloses_balance_eq, unlinked, ← List.countP_eq_length_filter]
    exact List.countP_congr fun i _ => by rw [unlinked_isClose]

/-! ### Runs that get stuck -/

namespace Machine

variable {σ : Type} {m : Machine σ} {p : Process}

/-- **Flow.** All that an instruction can do to the place of its process. -/
inductive Flows (m : Machine σ) (p : Process) : Instruction → Except Fault Flow → Prop where
  /-- The process goes on at the next instruction. -/
  | next {i : Instruction} (hi : ∀ units, i ≠ .wait units) : Flows m p i (.ok .next)
  /-- It goes on there after a wait. -/
  | wait (units : UInt32) : Flows m p (.wait units) (.ok (.wait (m.config.waitMs units)))
  /-- It leaves a loop. -/
  | leave (c : Condition) {closing : Nat} (hpartner : m.partner? p.pc = some closing) :
    Flows m p (.loop c) (.ok (.jump (closing + 1)))
  /-- It goes back to the header of a loop. -/
  | back {header : Nat} (hpartner : m.partner? p.pc = some header) :
    Flows m p .close (.ok (.jump header))
  /-- It gets stuck at a brace without a partner. -/
  | stuck {i : Instruction} (hi : i.isLoop = true ∨ i.isClose = true)
    (hpartner : m.partner? p.pc = none) : Flows m p i (.error (.unresolvableJump p.pc))
  /-- Another fault ends it. -/
  | fault {i : Instruction} {f : Fault} (hf : ∀ place, f ≠ .unresolvableJump place) :
    Flows m p i (.error f)

/-- A condition may be faulty, but nothing gets stuck at it. -/
lemma holds_flow (m : Machine σ) (p : Process) (c : Condition) :
    (m.holds p c).machine.jumps = m.jumps ∧
      ∀ f, (m.holds p c).value = .error f → ∀ place, f ≠ .unresolvableJump place := by
  cases c with
  | below x limit => exact ⟨rfl, by simp [holds]⟩
  | sensorNotRaised sensor =>
    simp only [holds]
    split
    · exact ⟨rfl, by simp [answer]⟩
    · split
      · exact ⟨rfl, by simp⟩
      · exact ⟨rfl, by simp [answer]⟩

/-- **An instruction** does one of these to the place of its process.

**Proof sketch.** One case for each instruction: braces go to their partners or get stuck without
one, a wait and a fault are named as such, and all others go on to the next place. -/
theorem flows_execute (a : Actuator σ) (m : Machine σ) (p : Process) (i : Instruction) :
    m.Flows p i (m.execute a p i).value := by
  cases i with
  | call name arguments =>
    simp only [execute, callNative]
    split
    · exact .fault (by simp)
    · split <;> exact .next (by simp)
  | wait units => exact .wait units
  | loop c =>
    obtain ⟨hjumps, hfault⟩ := m.holds_flow p c
    rcases hholds : m.holds p c with ⟨f | _ | _, m', signals⟩ <;> rw [hholds] at hjumps hfault <;>
      simp only [execute, hholds]
    · exact .fault (hfault f rfl)
    · have hpartner : m'.partner? p.pc = m.partner? p.pc := by rw [partner?, hjumps]; rfl
      rw [hpartner]
      cases hclosing : m.partner? p.pc with
      | some closing => exact .leave c hclosing
      | none => exact .stuck (.inl rfl) hclosing
    · exact .next (by simp)
  | close =>
    simp only [execute]
    cases hheader : m.partner? p.pc with
    | some header => exact .back hheader
    | none => exact .stuck (.inr rfl) hheader
  | _ => exact .next (by simp)

/-- A step gets stuck only at a brace without a partner. A step that comes to this fault has
executed an instruction, and of all the ways in which an instruction ends only one is this fault. -/
lemma of_step_stuck {a : Actuator σ} {place : Nat}
    (h : (m.step a).value = .faulted (.unresolvableJump place)) :
    m.process.map Process.pc = some place ∧ m.partner? place = none ∧
      ∃ i, m.instruction? place = some i ∧ (i.isLoop = true ∨ i.isClose = true) := by
  have hadvances := m.advances_step a
  generalize m.step a = e at hadvances h
  cases hadvances with
  | idle hidle => exact absurd h (by simp [answer])
  | ended hs hp hi => exact absurd h (by simp)
  | @concluded p i hs hp hi =>
    have hflow := m.flows_execute a p i
    rw [conclude] at h
    generalize m.execute a p i = e at h hflow
    rcases he : e.value with f | _ | _ | _ <;> rw [he] at h hflow
    · obtain rfl : f = .unresolvableJump place := StepOutcome.faulted.inj h
      cases hflow with
      | stuck hbrace hpartner => exact ⟨by rw [hp]; rfl, hpartner, i, hi, hbrace⟩
      | fault hf => exact absurd rfl (hf place)
    all_goals exact absurd h (by simp)

end Machine

/-- In a balanced program every brace has a link. -/
lemma Program.WellLinked.unlinked_eq_nil {p : Program} {links : List (Option Nat)}
    (h : p.WellLinked links) (hbalanced : p.balance.isBalanced = true) :
    unlinked p.instructions links Instruction.isLoop = [] ∧
      unlinked p.instructions links Instruction.isClose = [] := by
  obtain ⟨hunclosed, hstray⟩ := of_decide_eq_true hbalanced
  exact ⟨List.length_eq_zero_iff.1 (h.unclosed.trans hunclosed),
    List.length_eq_zero_iff.1 (h.strayCloses.trans hstray)⟩

/-- **Braces find their partners.** In any program two places are linked exactly if there is a
header at the one and a closing brace at the other behind it, and what stands strictly between them
is balanced; that is linked within itself only. So a brace has no link only if it has no such
partner. The headers without a link are as many as the balance of the program counts, and so are
the closing braces. Hence a run of the program, after whatever was done with the machine before,
gets stuck only if the program is not balanced, and only at a brace without a link.

**Proof sketch.** What is open at a place is known from the links. As long as a loop is not closed,
what is open behind its header is what the balance counts from there on, and then the header and
what is open before it. -/
theorem braces_partnered (p : Program) :
    p.WellLinked (linkBlocks p.instructions) ∧
      ∀ {σ : Type} (a : Actuator σ) (config : MachineConfig) (robot : σ) (ops : List Operation)
        (m : Machine σ), m = (Machine.start config robot).operateAll a ops → m.program = some p →
        ∀ place, (m.step a).value = .faulted (.unresolvableJump place) →
          p.balance.isBalanced = false ∧ m.process.map Process.pc = some place ∧
            (place ∈ unlinked p.instructions (linkBlocks p.instructions) Instruction.isLoop ∨
              place ∈ unlinked p.instructions (linkBlocks p.instructions) Instruction.isClose) := by
  have hlinked := p.wellLinked_linkBlocks
  refine ⟨hlinked, ?_⟩
  rintro σ a config robot ops m rfl hp place hstuck
  have hjumps := ((Machine.linked_start config robot).operateAll a ops).jumps p hp
  obtain ⟨hpc, hpartner, i, hi, hbrace⟩ := Machine.of_step_stuck hstuck
  rw [Machine.partner?, hjumps] at hpartner
  rw [Machine.instruction?, hp, Option.bind_some] at hi
  have hplace : place < p.instructions.length := (List.getElem?_eq_some_iff.1 hi).1
  have hmem : ∀ {kind : Instruction → Bool}, kind i = true →
      place ∈ unlinked p.instructions (linkBlocks p.instructions) kind := fun hkind => by
    refine List.mem_filter.2 ⟨List.mem_range.2 hplace, ?_⟩
    rw [hi, hpartner]
    simpa using hkind
  have hunlinked := hbrace.imp hmem hmem
  refine ⟨Bool.eq_false_iff.2 fun hbalanced => ?_, hpc, hunlinked⟩
  obtain ⟨hloops, hcloses⟩ := hlinked.unlinked_eq_nil hbalanced
  rw [hloops, hcloses] at hunlinked
  exact hunlinked.elim List.not_mem_nil List.not_mem_nil

/-- A program with a brace too many and one too few: a loop around another one, a closing brace that
closes nothing, and a header that nothing closes. -/
def crookedProgram : Program :=
  .ofInstructions
    [.loop (.below "a" 1), .loop (.below "b" 0), .close, .increment "a" 1, .close, .close,
      .loop (.sensorNotRaised "getTouchSensor"), .wait 5]

/-- A machine that has left the outer loop of the program. -/
def crookedMachine : Machine Unit :=
  (Machine.start {} ()).operateAll .still
    ([.load crookedProgram, .start] ++ List.replicate 5 .step)

/-- The two loops are linked, and a run gets stuck behind them. -/
theorem braces_partnered_crooked :
    linkBlocks crookedProgram.instructions =
        [some 4, some 2, some 1, none, some 0, none, none, none] ∧
      crookedProgram.WellLinked (linkBlocks crookedProgram.instructions) ∧
      crookedProgram.balance = ⟨1, 1⟩ ∧
      (crookedMachine.step .still).value = .faulted (.unresolvableJump 5) ∧
      crookedMachine.process.map Process.pc = some 5 := by
  obtain ⟨hlinked, hruns⟩ := braces_partnered crookedProgram
  have hstuck : (crookedMachine.step .still).value = .faulted (.unresolvableJump 5) := by decide
  have hprogram : crookedMachine.program = some crookedProgram := by decide
  obtain ⟨-, hpc, -⟩ := hruns .still {} () _ crookedMachine rfl hprogram 5 hstuck
  exact ⟨by decide, hlinked, by decide, hstuck, hpc⟩

end StickerBot
