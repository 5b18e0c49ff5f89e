import StickerBot.Proofs.Coverage
import StickerBot.Proofs.Remarks
import StickerBot.Proofs.SafeRun
set_option autoImplicit false

/-!
# A run tells at which sticker it is

Whoever watches a run of a program with remarks knows from which sticker each call of the robot
comes. Right before a call stand a trace point and a text, and no jump leads between them: jumps
lead to headers and behind closing braces only.

## Main definitions

* `Layout.Calls` — what a statement of a program calls the robot for.
* `Announces` — the last trace of the process that lives has named a statement.
* `Layout.Tells`, `Layout.TellsAll` — a call was announced, and a trace names a statement.
* `Program.Announces` — every call of a program stands behind the trace of its statement.
* `Machine.Hears` — what is announced is what the process comes to next.
* `Machine.Commanded` — all that an operation that loads nothing comes to.

## Main results

* `Layout.announces_of_generate` — in a generated program every call stands behind its trace.
* `Machine.hears_operate` — operations that load nothing tell what they should.
* `generated_announced` — every call of a run of a generated program was announced.
-/

namespace StickerBot

/-! ### What statements call for -/

namespace Layout

/-- A statement belongs to the program that was written. -/
def HasCompiled (l : Layout) (id : Nat) : Prop := ∃ s, l.get? id = some s ∧ s.isCompiled = true

/-- **Calls.** A statement of a program calls the robot: an action for what it is, without
arguments; a wait for a wait, with its limit or the number that announces a wait for a tap. -/
def Calls (l : Layout) (id : Nat) (b : NativeAction) (arguments : List Int32) : Prop :=
  ∃ s, l.get? id = some s ∧ s.isCompiled = true ∧
    (s.kind = .action b ∧ arguments = [] ∨
      s.kind = .wait ∧ b = .wait ∧
        arguments = [((readParameter id l).1.limit?).getD tapAnnounce])

end Layout

/-! ### Calls in programs -/

/-- **Behind a trace.** Right before a place stands a trace point, or one with a text. -/
inductive BehindTrace (is : List Instruction) (point : UInt32) : Nat → Prop where
  | trace {place : Nat} (h : is[place]? = some (.trace point)) : BehindTrace is point (place + 1)
  | print {place : Nat} {text : String} (h : is[place]? = some (.trace point))
    (htext : is[place + 1]? = some (.print text)) : BehindTrace is point (place + 2)

/-- At the beginning nothing was traced. -/
lemma not_behindTrace_zero {is : List Instruction} {point : UInt32} :
    ¬ BehindTrace is point 0 := nofun

/-- What is behind a trace is behind the trace point itself, or behind a text that is. -/
lemma BehindTrace.of_succ {is : List Instruction} {point : UInt32} {place : Nat}
    (h : BehindTrace is point (place + 1)) : is[place]? = some (.trace point) ∨
      (∃ text, is[place]? = some (.print text)) ∧ BehindTrace is point place := by
  cases h with
  | trace h => exact .inl h
  | print h htext => exact .inr ⟨⟨_, htext⟩, .trace h⟩

/-- **Announcing programs.** Every trace point of a program is that of a statement, and every call
stands behind the trace of a statement that calls so. -/
structure Program.Announces (p : Program) (l : Layout) : Prop where
  trace : ∀ (place : Nat) (point : UInt32), p.instructions[place]? = some (.trace point) →
    ∃ id, p.traceMap.get? point = some id ∧ l.HasCompiled id
  call : ∀ (place : Nat) (name : String) (arguments : List Int32),
    p.instructions[place]? = some (.call name arguments) →
      ∃ point id b, BehindTrace p.instructions point place ∧ p.traceMap.get? point = some id ∧
        name = b.name ∧ l.Calls id b arguments

/-- A place in the instructions of pieces is one in the instructions of a piece. And what stands
elsewhere in that piece is found in the code at the same distance, which is how the remarks before a
call are found. -/
lemma exists_piece_of_getElem? {ps : List Piece} {place : Nat} {i : Instruction}
    (h : (ps.flatMap Piece.code)[place]? = some i) :
    ∃ p ∈ ps, ∃ first offset, place = first + offset ∧ p.code[offset]? = some i ∧
      ∀ k j, p.code[k]? = some j → (ps.flatMap Piece.code)[first + k]? = some j := by
  induction ps generalizing place with
  | nil => simp at h
  | cons p ps ih =>
    rw [List.flatMap_cons] at h ⊢
    rcases Nat.lt_or_ge place p.code.length with hlt | hge
    · rw [List.getElem?_append_left hlt] at h
      refine ⟨p, List.mem_cons_self, 0, place, (Nat.zero_add _).symm, h, fun k j hj => ?_⟩
      rw [Nat.zero_add, List.getElem?_append_left (List.getElem?_eq_some_iff.1 hj).1, hj]
    · rw [List.getElem?_append_right hge] at h
      obtain ⟨q, hq, first, offset, hplace, hi, hall⟩ := ih h
      refine ⟨q, List.mem_cons_of_mem _ hq, p.code.length + first, offset, by omega, hi,
        fun k j hj => ?_⟩
      rw [List.getElem?_append_right (by omega), ← hall k j hj]
      congr 1
      omega

namespace Layout

variable {l l' : Layout}

/-- The code of a piece is that of its statement. -/
lemma exists_pen_of_mem_pieces (l : Layout) (debug : Bool) (ids : List Nat) :
    ∀ pen, ∀ p ∈ l.pieces debug pen ids, ∃ pen', p.code = l.code debug pen' p.statement := by
  induction ids with
  | nil => exact fun _ _ h => absurd h List.not_mem_nil
  | cons id ids ih =>
    intro pen p hp
    rcases List.mem_cons.1 hp with rfl | hp
    · exact ⟨pen, rfl⟩
    · exact ih _ p hp

/-- A letter calls the robot at its beginning, if at all. This is a call of its action, or for a
wait the call that announces how long it takes. Repeats and their ends call nothing. -/
lemma call_code {depth offset : Nat} {x : Brace Sticker ParameterValue} {name : String}
    {arguments : List Int32} (h : (x.code depth)[offset]? = some (.call name arguments)) :
    offset = 0 ∧
      ((∃ b, x = .plain (.act b) ∧ name = b.name ∧ arguments = []) ∨
        ∃ v, x = .plain (.wait v) ∧ name = NativeAction.wait.name ∧
          arguments = [v.limit?.getD tapAnnounce]) := by
  have hmem := List.mem_of_getElem? h
  cases x with
  | plain s =>
    cases s with
    | act b =>
      obtain ⟨rfl, rfl, rfl⟩ : offset = 0 ∧ b.name = name ∧ [] = arguments := by
        cases offset <;> simp_all [Brace.code, Instruction.native]
      exact ⟨rfl, .inl ⟨b, rfl, rfl, rfl⟩⟩
    | wait v =>
      -- behind the announcement there are no calls
      cases offset with
      | zero =>
        refine ⟨rfl, .inr ⟨v, rfl, ?_⟩⟩
        unfold Brace.code waitCode at h
        cases hv : v.limit? <;> simp_all [Instruction.native]
      | succ offset =>
        have hrest := List.mem_of_getElem? (List.getElem?_tail.trans h)
        unfold Brace.code waitCode at hrest
        cases hv : v.limit? <;>
          simp [hv, Instruction.whileNotRaised, Instruction.whileBelow] at hrest
  | opening v =>
    unfold Brace.code repeatCode at hmem
    cases hv : v.limit? <;>
      simp [hv, Instruction.whileNotRaised, Instruction.whileBelow] at hmem
  | closing => cases depth <;> simp [Brace.code] at hmem

/-- **A call in a piece** stands behind the trace of the piece. Two instructions come before any
call in it: the trace point, and the text that names the statement. A piece without these remarks
has no call either. -/
lemma call_piece {pen : Pen} {id offset : Nat} {name : String} {arguments : List Int32}
    (h : (l.code true pen id)[offset]? = some (.call name arguments)) :
    ∃ text, offset = 2 ∧ (l.code true pen id)[0]? = some (.trace pen.point) ∧
      (l.code true pen id)[1]? = some (.print text) ∧
      ∃ b s, name = b.name ∧ l.get? id = some s ∧
        (s.kind = .action b ∧ arguments = [] ∨
          s.kind = .wait ∧ b = .wait ∧
            arguments = [((readParameter id l).1.limit?).getD tapAnnounce]) := by
  unfold code at h ⊢
  cases hs : l.get? id with
  | none => simp [hs] at h
  | some s =>
    cases hx : l.step? id with
    | none => simp [hs, hx] at h
    | some x =>
      simp only [hs, hx, Bool.true_and] at h ⊢
      cases hremarked : x.isRemarked with
      | false =>
        -- without remarks there is no call
        simp only [hremarked, Bool.false_eq_true, if_false, List.nil_append] at h
        obtain ⟨-, ⟨b, rfl, -⟩ | ⟨v, rfl, -⟩⟩ := call_code h <;>
          exact absurd hremarked (by simp [Brace.isRemarked])
      | true =>
        simp only [hremarked, if_true] at h ⊢
        obtain ⟨offset, rfl⟩ : ∃ k, offset = k + 2 := by
          rcases offset with _ | _ | k
          · simp at h
          · simp at h
          · exact ⟨k, rfl⟩
        have hletter : (x.code pen.opened.length)[offset]? = some (.call name arguments) := h
        obtain ⟨rfl, hcall⟩ := call_code hletter
        refine ⟨s.name, rfl, rfl, rfl, ?_⟩
        unfold step? at hx
        rw [hs, Option.bind_some] at hx
        rcases hcall with ⟨b, rfl, rfl, rfl⟩ | ⟨v, rfl, rfl, rfl⟩
        · refine ⟨b, s, rfl, rfl, .inl ⟨?_, rfl⟩⟩
          cases hk : s.kind <;> simp_all
        · refine ⟨.wait, s, rfl, rfl, .inr ?_⟩
          cases hk : s.kind <;> simp_all

/-- **Generated programs** announce their calls.

**Proof sketch.** Every instruction lies in a piece of the code. Its trace point is mapped to the
statement of the piece, which the walk has marked, and a call in the piece is the one that the kind
of this statement asks for. -/
theorem announces_of_generate {depth : Nat} {g : Generated}
    (hg : generate l ⟨true, depth⟩ = (l', .ok g)) (hsize : l.size ≤ UInt32.size) :
    g.program.Announces l' := by
  have htraced := traced_of_generate hg hsize
  obtain ⟨c, rfl, hwalked⟩ := exists_walked hg
  obtain ⟨start, hstart⟩ := hwalked.start
  have hcovered := hwalked.covered hstart
  -- a trace point in a piece is that of the statement of the piece
  have hpoint : ∀ p ∈ l.written true, ∀ point, .trace point ∈ p.code →
      c.finish.program.traceMap.get? point = some p.statement := by
    intro p hp point hmem
    refine Table.get?_of_mem_entries _ ?_
    rw [htraced.entries]
    refine List.mem_flatMap.2 ⟨p, hp, List.mem_map.2 ⟨point, ?_, rfl⟩⟩
    exact List.mem_filterMap.2 ⟨_, hmem, rfl⟩
  have hcompiled : ∀ p ∈ l.written true, l'.HasCompiled p.statement := by
    intro p hp
    obtain ⟨s, hs, -, hs'⟩ := (hcovered.all p.statement).1 (List.mem_map.2 ⟨p, hp, rfl⟩)
    exact ⟨s, hs, hs'⟩
  constructor
  · intro place point h
    rw [htraced.code] at h
    obtain ⟨p, hp, first, offset, -, hi, -⟩ := exists_piece_of_getElem? h
    exact ⟨p.statement, hpoint p hp point (List.mem_of_getElem? hi), hcompiled p hp⟩
  · intro place name arguments h
    rw [htraced.code] at h ⊢
    obtain ⟨p, hp, first, offset, rfl, hi, hall⟩ := exists_piece_of_getElem? h
    obtain ⟨pen, hpen⟩ := exists_pen_of_mem_pieces l true _ .start p hp
    rw [hpen] at hi hall
    obtain ⟨text, rfl, htrace, hprint, b, s, hname, hs, hcall⟩ := call_piece hi
    refine ⟨pen.point, p.statement, b, .print (hall 0 _ htrace) (hall 1 _ hprint),
      hpoint p hp pen.point (hpen ▸ List.mem_of_getElem? htrace), hname, ?_⟩
    -- the walk has changed marks alone
    obtain ⟨s', hs', hmark⟩ := hcompiled p hp
    have hkind := hwalked.marks.map_get? Statement.kind (fun _ => rfl) p.statement
    rw [hs, hs', Option.map_some, Option.map_some, Option.some.injEq] at hkind
    refine ⟨s', hs', hmark, ?_⟩
    rw [hkind, (hwalked.marks.readParameter p.statement).1]
    exact hcall

end Layout

/-! ### What was announced -/

/-- Whether a signal leaves announced what was announced: it is no trace, and no process starts
or stops with it. -/
def Signal.isAside : Signal → Bool
  | .event (.trace _ _ _) | .event (.processStarted _) | .event (.processStopped _) => false
  | _ => true

/-- **Announced.** The last trace of the process that lives has named this statement: since then no
process has started or stopped. -/
def Announces (earlier : List Signal) (id : Nat) : Prop :=
  ∃ before info point between,
    earlier = before ++ .event (.trace info point (some id)) :: between ∧
      ∀ s ∈ between, s.isAside = true

/-- What is said aside leaves announced what was announced. -/
lemma Announces.append {earlier signals : List Signal} {id : Nat} (h : Announces earlier id)
    (hsignals : ∀ s ∈ signals, s.isAside = true) : Announces (earlier ++ signals) id := by
  obtain ⟨before, info, point, between, rfl, hbetween⟩ := h
  refine ⟨before, info, point, between ++ signals, by simp, ?_⟩
  exact List.forall_mem_append.2 ⟨hbetween, hsignals⟩

/-- **Telling.** A call of the robot was announced by a trace that has named a statement which
calls so, and a trace names a statement of the program. -/
def Layout.Tells (l : Layout) (earlier : List Signal) : Signal → Prop
  | .robot (.perform b arguments) => ∃ id, Announces earlier id ∧ l.Calls id b arguments
  | .event (.trace _ _ statement) => ∃ id, statement = some id ∧ l.HasCompiled id
  | _ => True

/-- **Telling all.** Signals after earlier ones tell what they should, each after those before. -/
def Layout.TellsAll (l : Layout) : List Signal → List Signal → Prop
  | _, [] => True
  | earlier, s :: signals => l.Tells earlier s ∧ l.TellsAll (earlier ++ [s]) signals

namespace Layout.TellsAll

variable {l : Layout} {earlier signals later : List Signal}

/-- Signals after signals. -/
lemma append (h : l.TellsAll earlier signals) (h' : l.TellsAll (earlier ++ signals) later) :
    l.TellsAll earlier (signals ++ later) := by
  induction signals generalizing earlier with
  | nil => rwa [List.append_nil] at h'
  | cons s signals ih =>
    refine ⟨h.1, ih h.2 ?_⟩
    rwa [List.append_assoc, List.singleton_append]

/-- Each signal tells what it should after those before it. -/
lemma tells {s : Signal} (h : l.TellsAll earlier (signals ++ s :: later)) :
    l.Tells (earlier ++ signals) s := by
  induction signals generalizing earlier with
  | nil => simpa using h.1
  | cons x signals ih => simpa using ih h.2

/-- Signals that are no calls and no traces tell nothing wrong. -/
lemma of_forall (h : ∀ s ∈ signals, ∀ earlier, l.Tells earlier s) :
    l.TellsAll earlier signals := by
  induction signals generalizing earlier with
  | nil => trivial
  | cons s signals ih =>
    obtain ⟨hs, hsignals⟩ := List.forall_mem_cons.1 h
    exact ⟨hs earlier, ih hsignals⟩

end Layout.TellsAll

/-! ### The invariant -/

namespace Machine

variable {σ : Type}

/-- **Hearing.** The machine has loaded a program, or none, and if its process is behind a trace,
but at no header, then the statement of the trace is announced. -/
structure Hears (p : Program) (earlier : List Signal) (m : Machine σ) : Prop where
  program : ∀ q, m.program = some q → q = p ∧ m.jumps = linkBlocks p.instructions
  announced : ∀ r, m.process = some r → ∀ point, BehindTrace p.instructions point r.pc →
    (∀ c, p.instructions[r.pc]? ≠ some (.loop c)) →
      ∃ id, p.traceMap.get? point = some id ∧ Announces earlier id

/-- **Telling effects.** The machine hears what was announced, and what was seen tells what it
should. -/
structure TellingEffect (l : Layout) (p : Program) (earlier : List Signal) {α : Type}
    (e : Effect σ α) : Prop where
  machine : e.machine.Hears p (earlier ++ e.signals)
  signals : l.TellsAll earlier e.signals

section Step

variable {l : Layout} {p : Program} {earlier : List Signal} {m m' : Machine σ} {r : Process}

/-- Without a process nothing need be announced. -/
lemma Hears.of_none (h : m.Hears p earlier) (hprogram : m'.program = m.program)
    (hjumps : m'.jumps = m.jumps) (hprocess : m'.process = none) (later : List Signal) :
    m'.Hears p later :=
  ⟨fun q hq => by rw [hjumps]; exact h.program q (hprogram.symm.trans hq),
    fun r hr => by simp [hprocess] at hr⟩

/-- Where a process goes on that is not behind a trace, or is at a header, nothing need be
announced. -/
lemma Hears.land (h : m.Hears p earlier) (hprogram : m'.program = m.program)
    (hjumps : m'.jumps = m.jumps) {place : Nat}
    (hprocess : m'.process.map Process.pc = some place)
    (hplace : ∀ point, BehindTrace p.instructions point place →
      ∃ c, p.instructions[place]? = some (.loop c)) (later : List Signal) : m'.Hears p later := by
  refine ⟨fun q hq => by rw [hjumps]; exact h.program q (hprogram.symm.trans hq), ?_⟩
  intro r hr point hbehind hheader
  obtain rfl : r.pc = place := by simpa [hr] using hprocess
  obtain ⟨c, hc⟩ := hplace point hbehind
  exact absurd hc (hheader c)

/-- Behind an instruction that is no remark nothing is traced. -/
lemma not_behindTrace_succ {is : List Instruction} {place : Nat} {i : Instruction}
    (hi : is[place]? = some i) (hremark : i.isRemark = false) (point : UInt32) :
    ¬ BehindTrace is point (place + 1) := by
  intro h
  rcases h.of_succ with h | ⟨⟨text, h⟩, -⟩ <;>
    · obtain rfl := Option.some.inj (hi.symm.trans h)
      simp [Instruction.isRemark] at hremark

/-- Going on behind an instruction that is no remark. -/
lemma Hears.next (h : m.Hears p earlier) (m' : Machine σ) (hprogram : m'.program = m.program)
    (hjumps : m'.jumps = m.jumps) {r' : Process} (hprocess : m'.process = some r')
    {place : Nat} {i : Instruction} (hi : p.instructions[place]? = some i)
    (hremark : i.isRemark = false) (later : List Signal) :
    (m'.goto (place + 1)).Hears p later := by
  have hplace : (m'.goto (place + 1)).process.map Process.pc = some (place + 1) := by
    simp [goto, hprocess]
  have hland := @land _ _ _ _ (m'.goto (place + 1)) h hprogram hjumps _ hplace
  exact hland (fun point hbehind => absurd hbehind (not_behindTrace_succ hi hremark point)) later

/-- The instructions of a machine are those of its program. -/
lemma Hears.instruction_spec (h : m.Hears p earlier) {place : Nat} {i : Instruction}
    (hi : m.instruction? place = some i) :
    m.program = some p ∧ p.instructions[place]? = some i ∧
      m.jumps = linkBlocks p.instructions := by
  obtain ⟨q, hq, hget⟩ := Option.bind_eq_some_iff.1 hi
  obtain ⟨rfl, hjumps⟩ := h.program q hq
  exact ⟨hq, hget, hjumps⟩

/-- What is seen when a process ends by a fault tells nothing wrong. -/
lemma tellingEffect_fault (h : m.Hears p earlier) (m' : Machine σ)
    (hprogram : m'.program = m.program) (hjumps : m'.jumps = m.jumps) {signals : List Signal}
    (hsignals : l.TellsAll earlier signals) (f : Fault) :
    TellingEffect l p earlier (conclude r ⟨.error f, m', signals⟩) := by
  have hnone : ∀ later, (m'.endProcess r).machine.Hears p later := h.of_none hprogram hjumps rfl
  exact ⟨hnone _, hsignals.append (.of_forall (by simp [endProcess, Layout.Tells]))⟩

/-- What a condition asks is no call and no trace. -/
lemma holds_spec (m : Machine σ) (r : Process) (c : Condition) :
    (∃ tapped, (m.holds r c).machine = { m with tapped := tapped }) ∧
      ∀ s ∈ (m.holds r c).signals, ∀ earlier, l.Tells earlier s := by
  cases c with
  | below x limit =>
    refine ⟨⟨m.tapped, rfl⟩, ?_⟩
    simp only [holds, read]
    split <;> simp [Layout.Tells]
  | sensorNotRaised sensor =>
    simp only [holds]
    split
    · exact ⟨⟨m.tapped, rfl⟩, by simp [answer]⟩
    · split
      · exact ⟨⟨false, rfl⟩, by simp [Layout.Tells]⟩
      · exact ⟨⟨m.tapped, rfl⟩, by simp [answer]⟩

/-- A loop is gone through, or left behind its closing brace, or ends the process. In each of these
cases the process comes to a place behind an instruction that is no remark, so nothing has to be
announced there. -/
lemma tellingEffect_loop (h : m.Hears p earlier) (hr : m.process = some r) (a : Actuator σ)
    {c : Condition} (hi : m.instruction? r.pc = some (.loop c)) :
    TellingEffect l p earlier (conclude r (m.execute a r (.loop c))) := by
  obtain ⟨-, hget, hjumps⟩ := h.instruction_spec hi
  obtain ⟨⟨tapped, hm⟩, hsignals⟩ := holds_spec (l := l) m r c
  have hnext : ∀ {place i}, p.instructions[place]? = some i → i.isRemark = false →
      ∀ later, ({ m with tapped := tapped }.goto (place + 1)).Hears p later :=
    fun hi hremark => h.next { m with tapped := tapped } rfl rfl hr hi hremark
  have hfault : ∀ {signals}, l.TellsAll earlier signals → ∀ f,
      TellingEffect l p earlier (conclude r ⟨.error f, { m with tapped := tapped }, signals⟩) :=
    fun hsignals => tellingEffect_fault h { m with tapped := tapped } rfl rfl hsignals
  rw [execute]
  rcases hholds : m.holds r c with ⟨f | _ | _, m', signals⟩ <;>
    rw [hholds] at hm hsignals <;> obtain rfl : m' = { m with tapped := tapped } := hm
  · exact hfault (.of_forall hsignals) f
  · dsimp only
    cases hpartner : { m with tapped := tapped }.partner? r.pc with
    | none => exact hfault (.of_forall hsignals) _
    | some closing =>
      have hlink : ((linkBlocks p.instructions)[r.pc]?).join = some closing := by
        rw [← hjumps]
        exact hpartner
      have hclose : Closes p.instructions closing r.pc :=
        ((partner?_linkBlocks_iff _ r.pc closing).1 hlink).resolve_left fun hnot =>
          absurd (hget.symm.trans hnot.1) (by simp)
      exact ⟨hnext hclose.1 rfl _, .of_forall hsignals⟩
  · exact ⟨hnext hget rfl _, .of_forall hsignals⟩

/-- A call is announced right before. The two instructions before it are the trace point and the
text of the same statement, and the machine has told them when it executed them; no aside between
them counts. -/
lemma tellingEffect_call (h : m.Hears p earlier) (hr : m.process = some r) (a : Actuator σ)
    {name : String} {arguments : List Int32}
    (hget : p.instructions[r.pc]? = some (.call name arguments)) (hp : p.Announces l) :
    TellingEffect l p earlier (conclude r (m.callNative a r name arguments)) := by
  obtain ⟨point, id, b, hbehind, hid, rfl, hcalls⟩ := hp.call _ _ _ hget
  obtain ⟨id', hid', hannounced⟩ := h.announced r hr point hbehind (by simp [hget])
  obtain rfl : id = id' := Option.some.inj (hid.symm.trans hid')
  have hnext : ∀ (robot : σ) (tapped : Bool) (later : List Signal),
      ({ m with robot := robot, tapped := tapped }.goto (r.pc + 1)).Hears p later :=
    fun robot tapped => h.next { m with robot := robot, tapped := tapped } rfl rfl hr hget rfl
  unfold callNative
  rw [NativeAction.ofName?_name]
  dsimp only
  split
  · exact ⟨hnext m.robot false _, .of_forall (by simp [Layout.Tells])⟩
  · refine ⟨hnext _ m.tapped _, ?_⟩
    have hcall : l.TellsAll earlier
        [.event (.print (m.info r) (Instruction.call b.name arguments).render),
          .robot (.perform b arguments)] :=
      ⟨trivial, ⟨id, hannounced.append (by simp [Signal.isAside]), hcalls⟩, trivial⟩
    rw [conclude_next]
    dsimp only
    split
    · exact hcall
    · have hreport : ∀ info text earlier, l.TellsAll earlier [.event (.error info text)] :=
        fun _ _ _ => .of_forall (by simp [Layout.Tells])
      exact hcall.append (hreport _ _ _)

/-- **Instructions.** What an instruction of an announcing program shows tells what it should.

**Proof sketch.** A process comes behind a trace from the trace itself, which has announced its
statement then, or from a text behind it. Jumps lead elsewhere: to a header, or behind a closing
brace. So where a call is executed its statement is announced. -/
lemma tellingEffect_conclude (hp : p.Announces l) (h : m.Hears p earlier)
    (hr : m.process = some r) (a : Actuator σ) {i : Instruction}
    (hi : m.instruction? r.pc = some i) :
    TellingEffect l p earlier (conclude r (m.execute a r i)) := by
  obtain ⟨hprogram, hget, hjumps⟩ := h.instruction_spec hi
  cases i with
  | call name arguments => exact tellingEffect_call h hr a hget hp
  | wait units => exact ⟨h.next m rfl rfl hr hget rfl _, trivial⟩
  | assign x n => exact ⟨h.next (m.write r x n) rfl rfl rfl hget rfl _, trivial⟩
  | increment x n =>
    refine ⟨h.next (m.write r x _) rfl rfl rfl hget rfl _, .of_forall ?_⟩
    simp only [execute, conclude_next, read]
    split <;> simp [Layout.Tells]
  | loop c => exact tellingEffect_loop h hr a hi
  | close =>
    rw [execute]
    cases hpartner : m.partner? r.pc with
    | none => exact tellingEffect_fault h m rfl rfl (.of_forall (by simp)) _
    | some header =>
      have hlink : ((linkBlocks p.instructions)[r.pc]?).join = some header := by
        rw [← hjumps]
        exact hpartner
      have hheader : ∃ c, p.instructions[header]? = some (.loop c) := by
        rcases (partner?_linkBlocks_iff _ r.pc header).1 hlink with hclose | hclose
        · exact hclose.header_spec.2
        · obtain ⟨-, c, hc⟩ := hclose.header_spec
          exact absurd (hget.symm.trans hc) (by simp)
      have hplace : (m.goto header).process.map Process.pc = some header := by simp [goto, hr]
      have hland : ∀ later, (m.goto header).Hears p later :=
        h.land rfl rfl hplace fun _ _ => hheader
      exact ⟨hland _, trivial⟩
  | trace point =>
    obtain ⟨id, hid, hcompiled⟩ := hp.trace _ _ hget
    have hstatement : (m.program.bind fun q => q.traceMap.get? point) = some id := by
      rw [hprogram, Option.bind_some, hid]
    rw [execute, hstatement, conclude_next]
    refine ⟨⟨h.program, fun r' hr' other hbehind _ => ?_⟩, ⟨id, rfl, hcompiled⟩, trivial⟩
    obtain rfl : { r with pc := r.pc + 1 } = r' := by simpa [goto, hr] using hr'
    -- the process stands behind this trace and no other
    have hother : other = point := by
      rcases hbehind.of_succ with hbehind | ⟨⟨text, hbehind⟩, -⟩
      · simpa using hbehind.symm.trans hget
      · exact absurd (hbehind.symm.trans hget) (by simp)
    subst hother
    exact ⟨id, hid, earlier, _, other, [], rfl, by simp⟩
  | print text =>
    rw [execute, conclude_next]
    refine ⟨⟨h.program, fun r' hr' point hbehind _ => ?_⟩, trivial, trivial⟩
    obtain rfl : { r with pc := r.pc + 1 } = r' := by simpa [goto, hr] using hr'
    rcases hbehind.of_succ with hbehind | ⟨-, hbehind⟩
    · exact absurd (hbehind.symm.trans hget) (by simp)
    · obtain ⟨id, hid, hannounced⟩ := h.announced r hr point hbehind (by simp [hget])
      exact ⟨id, hid, hannounced.append (by simp [Signal.isAside])⟩

/-- **Steps.** What a step of an announcing program shows tells what it should. -/
theorem tellingEffect_step (hp : p.Announces l) (h : m.Hears p earlier) (a : Actuator σ) :
    TellingEffect l p earlier (m.step a) := by
  have hadvances := m.advances_step a
  generalize m.step a = e at hadvances
  cases hadvances with
  | idle hidle => exact ⟨by simpa [answer] using h, trivial⟩
  | @ended r hs hr hi =>
    have hnone : ∀ later, (m.endProcess r).machine.Hears p later := h.of_none rfl rfl rfl
    exact ⟨hnone _, .of_forall (by simp [endProcess, Layout.Tells])⟩
  | concluded hs hr hi => exact tellingEffect_conclude hp h hr a hi

end Step

/-! ### Operations -/

/-- **Commands.** What a command that loads nothing can do: it keeps or clears the program; it ends
the process or begins one, or keeps it where it is and says nothing but asides; and it calls the
robot for no action and traces nothing. -/
structure Commanded (m : Machine σ) {α : Type} (e : Effect σ α) : Prop where
  program : ∀ q, e.machine.program = some q → m.program = some q ∧ e.machine.jumps = m.jumps
  process : (∀ r, e.machine.process = some r → r.pc = 0) ∨
    e.machine.process.map Process.pc = m.process.map Process.pc ∧
      ∀ s ∈ e.signals, s.isAside = true
  signals : ∀ s ∈ e.signals, ∀ (l : Layout) (earlier : List Signal), l.Tells earlier s

section Operate

variable {m : Machine σ} (a : Actuator σ)

/-- What keeps the process where it is and shows nothing. -/
lemma commanded_quiet {α : Type} {e : Effect σ α} (hprogram : e.machine.program = m.program)
    (hjumps : e.machine.jumps = m.jumps)
    (hprocess : e.machine.process.map Process.pc = m.process.map Process.pc)
    (hsignals : e.signals = []) : Commanded m e :=
  ⟨fun _ hq => ⟨hprogram.symm.trans hq, hjumps⟩, .inr ⟨hprocess, by simp [hsignals]⟩,
    by simp [hsignals]⟩

/-- Stopping ends the process. -/
lemma commanded_stop (m : Machine σ) :
    Commanded m (m.stop a) ∧ (m.stop a).machine.process = none := by
  unfold stop
  split
  · refine ⟨⟨fun _ hq => ⟨hq, rfl⟩, .inl ?_, ?_⟩, rfl⟩
    · simp [Effect.after, endProcess]
    · simp [Effect.after, endProcess, Layout.Tells]
  · rename_i hr
    exact ⟨commanded_quiet rfl rfl rfl rfl, hr⟩

/-- Launching begins a process at the first instruction. -/
lemma commanded_launch (m : Machine σ) : Commanded m (m.launch a) := by
  refine ⟨fun _ hq => ⟨hq, rfl⟩, .inl ?_, ?_⟩
  · rintro r hr
    obtain rfl : Process.start m.nextPid = r := Option.some.inj hr
    rfl
  · unfold launch
    cases a.isConnected m.robot <;> simp [Layout.Tells]

/-- Stopping and beginning a process. -/
lemma commanded_restart (m : Machine σ) : Commanded m (m.restart a) := by
  obtain ⟨hstop, -⟩ := commanded_stop a m
  have hlaunch := commanded_launch a (m.stop a).machine
  unfold restart
  split
  · exact commanded_quiet rfl rfl rfl rfl
  · refine ⟨fun q hq => ?_, .inl ?_, List.forall_mem_append.2 ⟨hstop.signals, hlaunch.signals⟩⟩
    · obtain ⟨hq', hjumps⟩ := hlaunch.program q hq
      exact ⟨(hstop.program q hq').1, hjumps.trans (hstop.program q hq').2⟩
    · rintro r hr
      obtain rfl : Process.start _ = r := Option.some.inj hr
      rfl

/-- Ending the process and then the connection. -/
lemma commanded_shutdown (m : Machine σ) : Commanded m (m.shutdown a) := by
  obtain ⟨hstop, hnone⟩ := commanded_stop a m
  unfold shutdown
  dsimp only
  split
  · refine ⟨hstop.program, .inl (by simp [hnone]), ?_⟩
    exact List.forall_mem_append.2 ⟨hstop.signals, by simp [Layout.Tells]⟩
  · exact hstop

/-- **Commands** do what commands can.

**Proof sketch.** One case for each command. Only a start and a restart begin a process, and none of
them executes an instruction, so that no robot is moved by a command. -/
theorem commanded_operate (m : Machine σ) {op : Operation} (hop : op.loads = false)
    (hstep : op ≠ .step) : Commanded m (m.operate a op) := by
  cases op with
  | load p => exact absurd hop (by simp [Operation.loads])
  | loadListing text => exact absurd hop (by simp [Operation.loads])
  | step => exact absurd rfl hstep
  | tap => exact commanded_quiet rfl rfl rfl rfl
  | start =>
    have hlaunch := commanded_launch a m
    simp only [operate, startProcess]
    split
    · exact commanded_quiet rfl rfl rfl rfl
    · split
      · exact commanded_quiet rfl rfl rfl rfl
      · exact ⟨hlaunch.program, hlaunch.process, hlaunch.signals⟩
  | restart =>
    have hrestart := commanded_restart a m
    exact ⟨hrestart.program, hrestart.process, hrestart.signals⟩
  | pause remaining =>
    simp only [operate, pause]
    split
    · exact commanded_quiet rfl rfl rfl rfl
    · exact commanded_quiet rfl rfl (by cases m.process <;> rfl) rfl
  | resume =>
    simp only [operate, resume]
    split
    · exact commanded_quiet rfl rfl rfl rfl
    · exact commanded_quiet rfl rfl (by cases m.process <;> rfl) rfl
  | stop =>
    obtain ⟨hstop, -⟩ := commanded_stop a m
    exact ⟨hstop.program, hstop.process, hstop.signals⟩
  | clear =>
    obtain ⟨hstop, hnone⟩ := commanded_stop a m
    refine ⟨by simp [operate, clear, Effect.withValue], .inl ?_, hstop.signals⟩
    simp [operate, clear, Effect.withValue, hnone]
  | connect address =>
    refine ⟨fun _ hq => ⟨hq, rfl⟩, .inr ⟨rfl, ?_⟩, ?_⟩
    · simp [operate, connect, Effect.withValue, Signal.isAside]
    · simp [operate, connect, Effect.withValue, Layout.Tells]
  | shutdown =>
    have hshutdown := commanded_shutdown a m
    exact ⟨hshutdown.program, hshutdown.process, hshutdown.signals⟩

variable {l : Layout} {p : Program} {earlier : List Signal}

/-- A command tells what it should. -/
lemma Commanded.telling {α : Type} {e : Effect σ α} (h : m.Hears p earlier)
    (he : Commanded m e) : TellingEffect l p earlier e := by
  refine ⟨⟨fun q hq => ?_, fun r hr point hbehind hheader => ?_⟩,
    .of_forall fun s hs earlier => he.signals s hs l earlier⟩
  · obtain ⟨hq', hjumps⟩ := he.program q hq
    rw [hjumps]
    exact h.program q hq'
  · rcases he.process with hzero | ⟨hpc, haside⟩
    · rw [hzero r hr] at hbehind
      exact absurd hbehind not_behindTrace_zero
    · rw [hr, Option.map_some] at hpc
      obtain ⟨r', hr', hpc⟩ := Option.map_eq_some_iff.1 hpc.symm
      rw [← hpc] at hbehind hheader
      obtain ⟨id, hid, hannounced⟩ := h.announced r' hr' point hbehind hheader
      exact ⟨id, hid, hannounced.append haside⟩

/-- **Operations.** What an operation that loads nothing shows tells what it should. -/
theorem hears_operate (hp : p.Announces l) (h : m.Hears p earlier) {op : Operation}
    (hop : op.loads = false) : TellingEffect l p earlier (m.operate a op) := by
  by_cases hstep : op = .step
  · subst hstep
    have htelling := tellingEffect_step hp h a
    exact ⟨htelling.machine, htelling.signals⟩
  · exact (commanded_operate a m hop hstep).telling h

/-- **Runs.** What is seen of operations that load nothing tells what it should. -/
theorem tellsAll_seen (hp : p.Announces l) (ops : List Operation) :
    ∀ {m : Machine σ} {earlier : List Signal}, m.Hears p earlier →
      (∀ op ∈ ops, op.loads = false) →
        l.TellsAll earlier (m.seen a ops) := by
  induction ops with
  | nil => exact fun _ _ => trivial
  | cons op ops ih =>
    intro m earlier h hops
    obtain ⟨hop, hops⟩ := List.forall_mem_cons.1 hops
    have htelling := hears_operate a hp h hop
    rw [seen, record, List.flatMap_cons]
    exact htelling.signals.append (ih htelling.machine hops)

/-- After loading there is no process. -/
lemma hears_load (m : Machine σ) (p : Program) : (m.load a p).machine.Hears p [] := by
  refine ⟨fun q hq => ?_, fun r hr => ?_⟩
  · obtain rfl : p = q := Option.some.inj hq
    exact ⟨rfl, rfl⟩
  · exact absurd ((commanded_stop a m).2.symm.trans hr) (by simp)

end Operate

end Machine

/-! ### Generated programs -/

/-- **Announced calls.** In a run of a program that was generated with remarks, whatever is done
with the machine after the program was loaded but loading another one, every trace names a
statement of the program, and every call of the robot was announced: the last trace of its process
has named a statement of the program that calls for exactly this.

**Proof sketch.** Right before a call stand the trace and the text of its statement. Jumps lead to
headers and behind closing braces, so a process comes to a call from the trace. -/
theorem generated_announced {l l' : Layout} {depth : Nat} {g : Generated}
    (hg : generate l ⟨true, depth⟩ = (l', .ok g)) (hsize : l.size ≤ UInt32.size) {σ : Type}
    (a : Actuator σ) (m : Machine σ) (ops : List Operation)
    (hops : ∀ op ∈ ops, op.loads = false) :
    (∀ info point statement,
      .event (.trace info point statement) ∈ (m.load a g.program).machine.seen a ops →
        ∃ id, statement = some id ∧ l'.HasCompiled id) ∧
    ∀ earlier b arguments later,
      (m.load a g.program).machine.seen a ops = earlier ++ .robot (.perform b arguments) :: later →
        ∃ id, Announces earlier id ∧ l'.Calls id b arguments := by
  have hp := Layout.announces_of_generate hg hsize
  have hall := Machine.tellsAll_seen a hp ops (Machine.hears_load a m g.program) hops
  constructor
  · intro info point statement hmem
    obtain ⟨before, after, hseen⟩ := List.append_of_mem hmem
    rw [hseen] at hall
    exact hall.tells
  · intro earlier b arguments later hseen
    rw [hseen] at hall
    exact hall.tells

/-- The page that repeats until a tap, with its marks: the first end of a repeat is of the program
as well. -/
def tapMarked : Layout :=
  (((((((tapPage.markCompiled 0).markCompiled 1).markCompiled 2).markCompiled 6).markCompiled
    3).markCompiled 7).markCompiled 4).markCompiled 5

/-- A machine is started and takes its first seven steps. -/
def sevenSteps : List Operation := .start :: List.replicate 7 .step

/-- The wait of the page that repeats until a tap is announced. The signals of its first seven steps
are computed, and the last of them is the call to which the theorem is applied. -/
theorem generated_announced_tapPage :
    generate tapPage ⟨true, 256⟩ = (tapMarked, .ok tapRemarks) ∧ tapPage.size ≤ UInt32.size ∧
      (∀ op ∈ sevenSteps, op.loads = false) ∧
      ∃ earlier id, ((Machine.start {} ()).load .still tapRemarks.program).machine.seen .still
          sevenSteps = earlier ++ [.robot (.perform .wait [2])] ∧
        Announces earlier id ∧ tapMarked.Calls id .wait [2] := by
  have hg : generate tapPage ⟨true, 256⟩ = (tapMarked, .ok tapRemarks) := by cbv
  have hsize : tapPage.size ≤ UInt32.size := by decide
  have hops : ∀ op ∈ sevenSteps, op.loads = false := by decide
  obtain ⟨-, hcalls⟩ := generated_announced hg hsize .still (.start {} ()) sevenSteps hops
  have hseen : ((Machine.start {} ()).load .still tapRemarks.program).machine.seen .still
      sevenSteps =
        [.event (.processStarted ⟨1, 0, .running⟩), .event (.trace ⟨1, 0, .running⟩ 0 (some 2)),
          .event (.print ⟨1, 1, .running⟩ "Begin Repeat"), .poll false,
          .event (.trace ⟨1, 4, .running⟩ 1 (some 3)), .event (.print ⟨1, 5, .running⟩ "Wait"),
          .event (.print ⟨1, 6, .running⟩ "doWait(2)")] ++ [.robot (.perform .wait [2])] := by
    cbv
  obtain ⟨id, hid⟩ := hcalls _ _ _ _ hseen
  exact ⟨hg, hsize, hops, _, id, hseen, hid⟩

end StickerBot
