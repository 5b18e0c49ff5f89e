import StickerBot.Proofs.GeneratedRun
import StickerBot.Proofs.SafeCode
set_option autoImplicit false

/-!
# Generated programs run without faults

What is written for a page can always be run, whatever the page looks like and whatever is done
with the machine meanwhile: every variable has a value when it is read, all that is called is
known, and every closing brace has its header. One thing only can go wrong, and the page is to
blame for it: a repeat that is never closed cannot be left. It was warned about when the program
was written.

## Main definitions

* `Fault.isOversight` — faults of a program that was written carelessly.
* `Generated.BlamesHeader` — the header of a repeat that is never closed, and that is warned about.
* `Entry.Harmless` — nothing went wrong but what the page is to blame for.

## Main results

* `mem_warnings_finish` — every repeat that is never closed is warned about.
* `generated_harmless` — all runs of a generated program are harmless.
-/

namespace StickerBot

/-! ### Messages of faults -/

namespace Fault

/-- **Oversights.** Faults of a program that was written carelessly: it reads a variable that has
no value, or calls what is unknown, or asks what is no sensor. -/
def isOversight : Fault → Bool
  | .undefinedVariable _ | .unknownNative _ _ | .notASensor _ => true
  | .unresolvableJump _ | .nativeStatus _ _ => false

/-- The first character of a text is that of its first part. -/
lemma head?_toList_append {s : String} {c : Char} (h : s.toList.head? = some c) (t : String) :
    (s ++ t).toList.head? = some c := by
  rw [String.toList_append, List.head?_append, h, Option.some_or]

/-- The first characters of the messages about oversights. -/
lemma head?_message_of_isOversight {f : Fault} (h : f.isOversight = true) :
    ∃ c ∈ ['v', 'u', '\''], f.message.toList.head? = some c := by
  cases f with
  | undefinedVariable x =>
    exact ⟨'v', by decide, head?_toList_append (head?_toList_append (by decide) _) _⟩
  | unknownNative x place =>
    have hhead : "unknown native call '".toList.head? = some 'u' := by decide
    exact ⟨'u', by decide,
      head?_toList_append (head?_toList_append (head?_toList_append hhead _) _) _⟩
  | notASensor x =>
    exact ⟨'\'', by decide, head?_toList_append (head?_toList_append (by decide) _) _⟩
  | unresolvableJump place => exact absurd h (by simp [isOversight])
  | nativeStatus x n => exact absurd h (by simp [isOversight])

/-- The messages of allowed faults begin with other characters. -/
lemma Allowed.head?_message {is : List Instruction} {f : Fault} (h : f.Allowed is) :
    ∃ c ∉ ['v', 'u', '\''], f.message.toList.head? = some c := by
  cases h with
  | status b n =>
    have hname : ∃ c ∉ ['v', 'u', '\''], b.name.toList.head? = some c := by
      cases b <;> exact ⟨_, by decide, rfl⟩
    obtain ⟨c, hc, hhead⟩ := hname
    exact ⟨c, hc, head?_toList_append (head?_toList_append hhead _) _⟩
  | jump hopen => exact ⟨'n', by decide, head?_toList_append (by decide) _⟩

/-- No allowed fault reads like an oversight. -/
lemma Allowed.message_ne {is : List Instruction} {f oversight : Fault} (h : f.Allowed is)
    (ho : oversight.isOversight = true) : oversight.message ≠ f.message := by
  obtain ⟨c, hc, hhead⟩ := head?_message_of_isOversight ho
  obtain ⟨c', hc', hhead'⟩ := h.head?_message
  intro heq
  rw [heq, hhead'] at hhead
  exact hc' (Option.some.inj hhead ▸ hc)

end Fault

/-! ### Warnings about repeats that are never closed -/

/-- A warning that is pushed with others is stored. Unlike errors, warnings are stored without a
bound, so that none is lost among the others. -/
lemma DiagnosticLog.mem_warnings_pushAll {d : Diagnostic} (ds : List Diagnostic)
    (hd : d.severity = .warning) :
    ∀ l : DiagnosticLog, d ∈ l.warnings ∨ d ∈ ds → d ∈ (l.pushAll ds).warnings := by
  induction ds with
  | nil => exact fun l h => h.resolve_right List.not_mem_nil
  | cons e ds ih =>
    intro l h
    refine ih (l.push e) ?_
    unfold push
    rcases h with h | h
    · cases e.severity with
      | error => exact .inl h
      | warning => exact .inl (List.mem_append_left _ h)
    · rcases List.mem_cons.1 h with rfl | h
      · rw [hd]
        exact .inl (List.mem_append_right _ List.mem_cons_self)
      · exact .inr h

/-- **Warnings.** Every repeat that is open at the end of a generation is warned about. -/
lemma mem_warnings_finish {c : Context} {b : OpenBlock} (h : b ∈ c.openBlocks) :
    unclosedLoop b ∈ c.finish.diagnostics.warnings := by
  have hopen := DiagnosticLog.mem_warnings_pushAll (c.openBlocks.reverse.map unclosedLoop)
    (d := unclosedLoop b) rfl c.diagnostics
    (.inr (List.mem_map.2 ⟨b, List.mem_reverse.2 h, rfl⟩))
  unfold Context.finish
  dsimp only
  split
  · exact List.mem_append_left _ hopen
  · exact hopen

/-! ### Runs -/

variable {σ : Type}

/-- **To blame.** At a place a loop begins that belongs to a repeat of the page: the place is in
the piece of the repeat. Nothing closes the repeat, and the generation has warned about it. -/
structure Generated.BlamesHeader (g : Generated) (l : Layout) (ps : List Piece)
    (place id : Nat) : Prop where
  repeats : l.HeadsRepeat ps place id
  header : ∃ c, g.program.instructions[place]? = some (.loop c)
  warning : ∃ d ∈ g.diagnostics.warnings, d.code = .unclosedLoop ∧ d.statement = some id

/-- **Harmless.** No oversight is reported. What is reported as an error is the status of an action
or a jump from a header that is to blame, and the latter alone may end the process. -/
structure Entry.Harmless (e : Entry) (g : Generated) (l : Layout) (ps : List Piece) : Prop where
  oversight : ∀ f : Fault, f.isOversight = true → ∀ info, .event (.error info f.message) ∉ e.signals
  reported : ∀ info text, .event (.error info text) ∈ e.signals →
    (∃ (b : NativeAction) (n : Int32), text = (Fault.nativeStatus b.name n).message) ∨
      ∃ place id, g.BlamesHeader l ps place id ∧ text = (Fault.unresolvableJump place).message
  faulted : ∀ f, e.outcome = some (.faulted f) →
    ∃ place id, g.BlamesHeader l ps place id ∧ f = .unresolvableJump place

/-- What is written for a page is sound code, and every header that is not closed is that of a
repeat that is warned about. -/
lemma Layout.Walked.soundCode {l l' : Layout} {options : GenerateOptions} {c : Context}
    (h : l.Walked options l' c) : SoundCode c.instructions ∧
      ∀ place ∈ unclosed c.instructions, ∃ id,
        c.finish.BlamesHeader l (l.written options.debug) place id := by
  obtain ⟨hcode, hopened⟩ := l.soundPieces_written options.debug
  rw [← h.code] at hcode hopened
  refine ⟨hcode, fun place hplace => ?_⟩
  obtain ⟨id, hid, hrepeats⟩ := exists_of_mem_forall₂ hopened hplace
  rw [← h.pen.opened] at hid
  obtain ⟨b, hb, rfl⟩ := List.mem_map.1 hid
  exact ⟨b.statement, hrepeats, (mem_unclosed_iff.1 hplace).1,
    unclosedLoop b, mem_warnings_finish hb, rfl, rfl⟩

/-- Entries that are sound are harmless if all headers that are not closed are to blame. -/
lemma Entry.Sound.harmless {is : List Instruction} {e : Entry} (h : e.Sound is) {g : Generated}
    {l : Layout} {ps : List Piece}
    (hblame : ∀ place ∈ unclosed is, ∃ id, g.BlamesHeader l ps place id) : e.Harmless g l ps := by
  constructor
  · intro f hf info hmem
    obtain ⟨f', hallowed, hmessage⟩ := h.signals _ hmem info _ rfl
    exact hallowed.message_ne hf hmessage
  · intro info text hmem
    obtain ⟨f, hallowed, rfl⟩ := h.signals _ hmem info text rfl
    cases hallowed with
    | status b n => exact .inl ⟨b, n, rfl⟩
    | jump hopen =>
      obtain ⟨id, hid⟩ := hblame _ hopen
      exact .inr ⟨_, id, hid, rfl⟩
  · intro f hf
    obtain ⟨place, hopen, rfl⟩ := h.outcome _ hf f rfl
    obtain ⟨id, hid⟩ := hblame place hopen
    exact ⟨place, id, hid, rfl⟩

/-- **Harmless runs.** Whatever is done with a machine after the program of a page was loaded, but
loading another one, is harmless: whatever the robot answers, whenever the sensor is tapped, and
whether or not the program was written with remarks. If the program is runnable then nothing ends
a process but its end or a command.

**Proof sketch.** The pieces of a page are sound code, and sound code keeps a machine guarded. The
headers that nothing closes are those of the repeats still open at the end of the generation, of
which there are none in a runnable program. -/
theorem generated_harmless {l l' : Layout} {options : GenerateOptions} {g : Generated}
    (hg : generate l options = (l', .ok g)) (a : Actuator σ) (m : Machine σ)
    (ops : List Operation) (hops : ∀ op ∈ ops, op.loads = false) :
    g.program.instructions = (l.written options.debug).flatMap Piece.code ∧
      (∀ e ∈ (m.load a g.program).machine.record a ops,
        e.Harmless g l (l.written options.debug)) ∧
      (g.program.isRunnable = true → ∀ e ∈ (m.load a g.program).machine.record a ops,
        ∀ f, e.outcome ≠ some (.faulted f)) := by
  obtain ⟨c, rfl, hwalked⟩ := exists_walked hg
  obtain ⟨hcode, hblame⟩ := hwalked.soundCode
  have hsound : ∀ e ∈ (m.load a c.finish.program).machine.record a ops, e.Sound c.instructions :=
    Machine.guarded_record a hcode ops (Machine.guarded_load a m c.finish.program) hops
  refine ⟨hwalked.code, fun e he => (hsound e he).harmless hblame, fun hrun e he f hf => ?_⟩
  obtain ⟨place, hopen, -⟩ := (hsound e he).outcome _ hf f rfl
  have hbalance : c.program.balance.unclosed = 0 := by
    have hbalanced : c.program.balance.isBalanced = true := (Bool.and_eq_true_iff.1 hrun).2
    exact (of_decide_eq_true hbalanced).1
  rw [unclosed_balance, List.length_eq_zero_iff] at hbalance
  change place ∈ unclosed c.program.instructions at hopen
  rw [hbalance] at hopen
  exact absurd hopen List.not_mem_nil

/-- A page on which a dance is repeated until a tap, without an end of the repeat. -/
def openPage : Layout :=
  ⟨[stickerTo .start "Begin" (some 1) none,
    stickerTo .loopBegin "Begin Repeat" (some 2) (some 3),
    stickerTo (.action .dance) "Dance" none none,
    stickerTo (.parameter .tap) "Tap" none none]⟩

/-- The page with its marks. -/
def openMarked : Layout :=
  ((((openPage.markCompiled 0).markCompiled 1).markCompiled 3).markCompiled 2).markDangling 2

/-- What is written for the page: its program, and warnings about the repeat and the dance. -/
def openCode : Generated where
  program := .ofInstructions [.whileNotRaised .touchSensor, .wait 100, .native .dance []]
  diagnostics := .ofList [danglingBranch 2 "Dance", unclosedLoop ⟨1, none⟩]

/-- A machine is started, takes its first step after a tap, and is started again. -/
def tapFirst : List Operation := [.start, .tap, .step, .start, .step, .pause none, .resume, .step]

/-- The run of a page with a repeat that is never closed is harmless. -/
theorem generated_harmless_openPage :
    generate openPage {} = (openMarked, .ok openCode) ∧
      (∀ op ∈ tapFirst, op.loads = false) ∧
      ∀ e ∈ ((Machine.start {} ()).load .still openCode.program).machine.record .still tapFirst,
        e.Harmless openCode openPage (openPage.written false) := by
  have hg : generate openPage {} = (openMarked, .ok openCode) := by cbv
  have hops : ∀ op ∈ tapFirst, op.loads = false := by decide
  exact ⟨hg, hops, (generated_harmless hg .still (.start {} ()) tapFirst hops).2.1⟩

-- the repeat cannot be left when the sensor was tapped; the second process goes on
example : (((Machine.start {} ()).load .still openCode.program).machine.record .still
    tapFirst).map Entry.outcome =
      [none, none, some (.faulted (.unresolvableJump 0)), none, some .continue, none, none,
        some (.wait 100)] := by
  decide

end StickerBot
