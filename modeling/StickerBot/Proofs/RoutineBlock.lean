import Mathlib.Tactic.Set
import StickerBot.Proofs.Routine
set_option autoImplicit false

/-!
# Blocks that perform routines

A repeat of a routine is a loop of a program, counted by a variable of its own or left on a tap.
The block of a routine does what the routine tells: the counters of nested loops have different
names, and what a loop holds leaves the counters of the loops around it alone.

## Main definitions

* `waitBlock`, `repeatBlock`, `Nest.block` — the block of a routine at a depth of nesting.
* `Tells`, `Shows`, `Follows` — a run, a block at a place, and a block wherever it stands do what is
  told.

## Main results

* `Context.counterAt_injective` — counters of different depths have different names.
* `follows_block` — the block of a routine follows the script of the routine.
-/

namespace StickerBot

/-! ### Counters -/

/-- **Counters differ.** Each depth has a counter name of its own. The first depths have different
letters, the others have numbers behind a letter, which are as different as the depths, and a name
of the one kind is shorter than any of the other. -/
theorem Context.counterAt_injective : Function.Injective Context.counterAt := by
  have hletters : ∀ d < 26, ∀ e < 26,
      Char.ofNat ('a'.toNat + d) = Char.ofNat ('a'.toNat + e) → d = e := by decide
  intro d e h
  have h := congrArg String.toList h
  unfold counterAt at h
  by_cases hd : d < 26 <;> by_cases he : e < 26 <;>
    simp only [hd, he, if_true, if_false, Char.toString_eq_singleton, String.toList_singleton,
      String.toList_append] at h
  · exact hletters d hd e he (List.singleton_inj.1 h)
  · simp at h
  · simp at h
  · have hdigits := List.append_cancel_left h
    rw [Nat.toString_eq_repr, Nat.toString_eq_repr, Nat.toList_repr, Nat.toList_repr] at hdigits
    have hvalue := congrArg (fun cs => Nat.ofDigitChars 10 cs 0) hdigits
    simpa only [Nat.ofDigitChars_ten_toDigits] using hvalue

/-! ### The block of a routine -/

/-- A loop of so many passes, each of which waits, counts and then does something. -/
def countedLoop (counter : String) (limit : Int32) (units : UInt32) (body : Block) : Block :=
  .plain (.assign counter 0)
    (.loop (.below counter limit)
      (.plain (.wait units) (.plain (.increment counter 1) body)) .empty)

/-- A loop that goes round until the sensor is tapped, and in each pass waits and then does
something. -/
def tapLoop (body : Block) : Block :=
  .loop (.sensorNotRaised NativeAction.touchSensor.name) (.plain (.wait sensorPoll) body) .empty

/-- The block of a wait. -/
def waitBlock (v : ParameterValue) (counter : String) : Block :=
  match v.limit? with
  | some limit =>
    .plain (.call NativeAction.wait.name [limit])
      (.plain (.wait waitTick) (countedLoop counter limit waitTick .empty))
  | none =>
    .plain (.call NativeAction.wait.name [tapAnnounce]) (.plain (.wait tapSettle) (tapLoop .empty))

/-- The block of a repeat. -/
def repeatBlock (v : ParameterValue) (counter : String) (body : Block) : Block :=
  match v.limit? with
  | some limit => countedLoop counter limit repeatSettle body
  | none => tapLoop body

/-- The block of a sticker inside so many repeats. -/
def Sticker.block (depth : Nat) : Sticker → Block
  | .act a => .plain (.call a.name []) .empty
  | .wait v => waitBlock v (Context.counterAt depth)

/-- **The block of a routine** inside so many repeats. -/
def Nest.block : (depth : Nat) → Routine → Block
  | _, .empty => .empty
  | depth, .plain s rest => (s.block depth).append (rest.block depth)
  | depth, .loop v body rest =>
    (repeatBlock v (Context.counterAt depth) (body.block (depth + 1))).append (rest.block depth)

variable {σ : Type}

/-! ### Blocks one after the other -/

namespace Nest

/-- The instructions of a block behind another stand behind the instructions of the first. -/
@[simp] lemma instructions_append (b b' : Block) :
    (b.append b').instructions = b.instructions ++ b'.instructions := by
  simp [instructions]

/-- A block that is put before another one runs before it. By induction on the first block. The
places behind a part of it are those of the rest, which is why the place is not fixed in the
induction. -/
lemma run_append (w : Setting σ) (b b' : Block) :
    ∀ place steps s, run w place (b.append b') steps s =
      (run w place b steps s).andThen fun left s => run w (place + b.length) b' left s := by
  induction b with
  | empty => intro place steps s; simp [append]
  | plain i rest ih =>
    intro place steps s
    cases steps with
    | zero => simp [append]
    | succ steps =>
      rw [append, run_plain_succ, run_plain_succ]
      rcases w.perform place s i with f | ⟨moment, s'⟩
      · rfl
      · simp only [ih, Passage.andThen_after, length_plain]
        rw [show place + (rest.length + 1) = place + 1 + rest.length by omega]
  | loop c body rest _ ih =>
    intro place steps s
    rw [append, run, run, Passage.andThen_assoc]
    congr 1
    funext left s
    rw [ih, length_loop]
    congr 1
    funext left s
    rw [show place + body.length + 2 + rest.length = place + (body.length + rest.length + 2) by
      omega]

end Nest

/-! ### Doing what is told -/

/-- The counters of the loops around a depth have the same values in two scenes. -/
def Scene.Keeps (s : Scene σ) (depth : Nat) (s' : Scene σ) : Prop :=
  ∀ e < depth, s'.values.get? (Context.counterAt e) = s.values.get? (Context.counterAt e)

/-- A scene keeps its own counters. -/
lemma Scene.Keeps.refl (s : Scene σ) (depth : Nat) : s.Keeps depth s := fun _ _ => rfl

/-- What is kept from one scene to the next, and from there to a third, is kept from the first to
the third. -/
lemma Scene.Keeps.trans {s s' s'' : Scene σ} {depth : Nat} (h : s.Keeps depth s')
    (h' : s'.Keeps depth s'') : s.Keeps depth s'' :=
  fun e he => (h' e he).trans (h e he)

/-- What is kept at a depth is kept at lesser depths. -/
lemma Scene.Keeps.mono {s s' : Scene σ} {depth depth' : Nat} (h : s.Keeps depth' s')
    (hd : depth ≤ depth') : s.Keeps depth s' :=
  fun e he => h e (Nat.lt_of_lt_of_le he hd)

/-- Counting at a depth keeps the counters of the loops around it. -/
lemma Scene.keeps_assign (s : Scene σ) (depth : Nat) (n : Int32) :
    s.Keeps depth (s.assign (Context.counterAt depth) n) := by
  intro e he
  refine Table.get?_insert_of_ne _ _ fun h => ?_
  exact Nat.ne_of_lt he (Context.counterAt_injective h)

/-- **Telling.** A run, given so many steps, does what is told and then ends in a scene of some
kind; or, if this was given up, does at least as much before it ends, and takes as many steps as
there was patience. -/
def Tells (run : (steps : Nat) → Passage σ) (patience : Nat) (t : Telling)
    (behind : Scene σ → Prop) : Prop :=
  match t with
  | (ds, some asked) => ∃ k ms s', deedsOf ms = ds ∧ s'.asked = asked ∧ behind s' ∧
      ∀ left, run (k + left) = ⟨ms, .done s' left⟩
  | (ds, none) => ∃ k ms s', deedsOf ms = ds ∧ patience ≤ k ∧ run k = ⟨ms, .cut s'⟩

/-- **Showing.** A block at a place, run in a scene, does what is told. -/
def Shows (w : Setting σ) (patience place : Nat) (b : Block) (s : Scene σ) (t : Telling)
    (behind : Scene σ → Prop) : Prop :=
  Tells (fun steps => b.run w place steps s) patience t behind

/-- **Following.** A block at a depth does what a script tells, wherever and whenever it runs. -/
def Follows (w : Setting σ) (patience depth : Nat) (b : Block) (x : Script) : Prop :=
  ∀ place s, Shows w patience place b s (x s.asked) (s.Keeps depth)

section Telling

variable {x x' : Nat → Passage σ} {patience : Nat} {t : Telling} {behind : Scene σ → Prop}

/-- A run that takes as many steps as there was patience takes as many as there was less, and a
scene of some kind is also of any more general kind. -/
lemma Tells.mono {patience' : Nat} {behind' : Scene σ → Prop} (h : Tells x patience' t behind')
    (hp : patience ≤ patience') (hs : ∀ s', behind' s' → behind s') :
    Tells x patience t behind := by
  rcases t with ⟨ds, _ | asked⟩
  · obtain ⟨k, ms, s', hms, hk, hx⟩ := h
    exact ⟨k, ms, s', hms, Nat.le_trans hp hk, hx⟩
  · obtain ⟨k, ms, s', hms, hasked, hs', hx⟩ := h
    exact ⟨k, ms, s', hms, hasked, hs s' hs', hx⟩

/-- Deeds done in a step and those told after it. The step is one more than there was patience
for. -/
lemma Tells.cons {moment : Moment} (hx : ∀ steps, x (steps + 1) = (x' steps).after [moment])
    (h : Tells x' patience t behind) :
    Tells x (patience + 1) (moment.deeds ++ t.1, t.2) behind := by
  rcases t with ⟨ds, _ | asked⟩
  · obtain ⟨k, ms, s', rfl, hk, hx'⟩ := h
    refine ⟨k + 1, moment :: ms, s', rfl, Nat.succ_le_succ hk, ?_⟩
    rw [hx, hx']
    rfl
  · obtain ⟨k, ms, s', rfl, hasked, hs', hx'⟩ := h
    refine ⟨k + 1, moment :: ms, s', rfl, hasked, hs', fun left => ?_⟩
    rw [show k + 1 + left = k + left + 1 by omega, hx, hx']
    rfl

/-- What is told in a run and in the run after it. If the first one is given up its deeds are all
that is told. Otherwise the second one follows, from where the first one has ended and with the
questions it has asked. -/
lemma Tells.andThen {next : Nat → Scene σ → Passage σ} {y : Script} {inside : Scene σ → Prop}
    (h : Tells x patience t inside)
    (hn : ∀ s₁, inside s₁ → Tells (fun left => next left s₁) patience (y s₁.asked) behind) :
    Tells (fun steps => (x steps).andThen next) patience (t.andThen y) behind := by
  rcases t with ⟨ds, _ | asked⟩
  · obtain ⟨k, ms, s', hms, hk, hx⟩ := h
    exact ⟨k, ms, s', hms, hk, by simp [hx]⟩
  · obtain ⟨k, ms, s₁, rfl, rfl, hs₁, hx⟩ := h
    have hnext := hn s₁ hs₁
    simp only [Telling.andThen]
    rcases hy : y s₁.asked with ⟨ds', _ | asked'⟩ <;> rw [hy] at hnext
    · obtain ⟨k', ms', s', rfl, hk', hrun⟩ := hnext
      refine ⟨k + k', ms ++ ms', s', by simp, Nat.le_add_left_of_le hk', ?_⟩
      simp [hx, hrun, Passage.after]
    · obtain ⟨k', ms', s', rfl, hasked, hs', hrun⟩ := hnext
      refine ⟨k + k', ms ++ ms', s', by simp, hasked, hs', fun left => ?_⟩
      simp [Nat.add_assoc, hx, hrun, Passage.after]

end Telling

section Showing

variable {w : Setting σ} {patience depth place : Nat} {s s₁ : Scene σ}
  {behind : Scene σ → Prop}

/-- The empty block shows that nothing is done, in no step; the scene stays what it was. -/
lemma shows_empty (h : behind s) : Shows w patience place .empty s ([], some s.asked) behind :=
  ⟨0, [], s, rfl, rfl, h, fun left => by simp⟩

/-- The empty block follows the script without deeds. -/
lemma follows_empty : Follows w patience depth .empty .nothing :=
  fun _ s => shows_empty (.refl s depth)

/-- A block that leaves alone the counters around a depth leaves alone those around a lesser
depth. -/
lemma Follows.shallower {b : Block} {x : Script} (h : Follows w patience (depth + 1) b x) :
    Follows w patience depth b x :=
  fun place s => (h place s).mono (Nat.le_refl patience) fun _ hs => hs.mono (Nat.le_succ depth)

/-- A plain instruction, and what is told after it. -/
lemma Shows.plain {i : Plain} {rest : Block} {moment : Moment} {t : Telling}
    (hperform : w.perform place s i = .ok (moment, s₁))
    (h : Shows w patience (place + 1) rest s₁ t behind) :
    Shows w patience place (.plain i rest) s (moment.deeds ++ t.1, t.2) behind := by
  have hrun : ∀ steps, Nest.run w place (.plain i rest) (steps + 1) s =
      (rest.run w (place + 1) steps s₁).after [moment] := by
    intro steps
    rw [Nest.run_plain_succ, hperform]
  exact (h.cons hrun).mono (Nat.le_succ patience) fun _ => id

/-- The last question of a loop, and what is told after the loop. -/
lemma Shows.loop_done {c : Condition} {body rest : Block} {moment : Moment} {t : Telling}
    (hask : w.ask place s c = .ok (moment, false, s₁))
    (h : Shows w patience (place + body.length + 2) rest s₁ t behind) :
    Shows w patience place (.loop c body rest) s (moment.deeds ++ t.1, t.2) behind := by
  have hrun : ∀ steps, Nest.run w place (.loop c body rest) (steps + 1) s =
      (rest.run w (place + body.length + 2) steps s₁).after [moment] := by
    intro steps
    rw [Nest.run_loop_succ, hask]
  exact (h.cons hrun).mono (Nat.le_succ patience) fun _ => id

/-- One pass of a loop, and what is told in and after it. The pass takes a step, which is one
more than there was patience for. -/
lemma Shows.loop_pass {c : Condition} {body rest : Block} {moment : Moment} {t : Telling}
    {y : Script} {inside : Scene σ → Prop} (hask : w.ask place s c = .ok (moment, true, s₁))
    (hbody : Shows w patience (place + 1) body s₁ t inside)
    (hagain : ∀ s₂, inside s₂ →
      Shows w patience place (.loop c body rest) s₂ (y s₂.asked) behind) :
    Shows w (patience + 1) place (.loop c body rest) s
      (moment.deeds ++ (t.andThen y).1, (t.andThen y).2) behind := by
  have hrun : ∀ steps, Nest.run w place (.loop c body rest) (steps + 1) s =
      ((body.run w (place + 1) steps s₁).andThen
        (Nest.again w place (.loop c body rest))).after [moment] := by
    intro steps
    rw [Nest.run_loop_succ, hask]
  -- the closing brace is a step as well, in which nothing is done
  have hnext : ∀ s₂, inside s₂ → Tells (fun left => Nest.again w place (.loop c body rest) left s₂)
      patience (y s₂.asked) behind := by
    intro s₂ hs₂
    have hclose : ∀ left, Nest.again w place (.loop c body rest) (left + 1) s₂ =
        (Nest.run w place (.loop c body rest) left s₂).after [⟨[], .continue⟩] := fun _ => rfl
    have hclosed : Tells (fun left => Nest.again w place (.loop c body rest) left s₂)
        (patience + 1) (Moment.deeds ⟨[], .continue⟩ ++ (y s₂.asked).1, (y s₂.asked).2) behind :=
      (hagain s₂ hs₂).cons hclose
    exact hclosed.mono (Nat.le_succ patience) fun _ => id
  exact (hbody.andThen hnext).cons hrun

/-- A block after another one, and a script after another one. -/
lemma Follows.append {b b' : Block} {x y : Script} (hb : Follows w patience depth b x)
    (hb' : Follows w patience depth b' y) :
    Follows w patience depth (b.append b') (x.andThen y) := by
  intro place s
  have hnext : ∀ s₁, s.Keeps depth s₁ → Tells (fun left => b'.run w (place + b.length) left s₁)
      patience (y s₁.asked) (s.Keeps depth) := fun s₁ hs₁ =>
    (hb' (place + b.length) s₁).mono (Nat.le_refl patience) fun _ => hs₁.trans
  simpa only [Shows, Nest.run_append, Script.andThen] using (hb place s).andThen hnext

/-! ### Instructions and loops -/

/-- A call of an action is a deed, or a question to the sensor. Its status is only reported. The
text of the call and a status that is not zero are told as events, which are no deeds; so a call
that fails is a deed like one that does not. -/
lemma follows_call (a : NativeAction) (arguments : List Int32) {rest : Block} {x : Script}
    (h : Follows w patience depth rest x) :
    Follows w patience depth (.plain (.call a.name arguments) rest)
      ((if a.isSensor then Script.poll w.answers
        else .does (.call (.perform a arguments))).andThen x) := by
  intro place s
  cases ha : a.isSensor with
  | true =>
    have hperform : w.perform place s (.call a.name arguments) =
        .ok (⟨[.event (.print (w.info place) (Instruction.call a.name arguments).render),
          .poll (w.answers s.asked)], .continue⟩, s.afterQuestion) := by
      simp [Setting.perform, Setting.call, ha]
    exact Shows.plain hperform (h (place + 1) s.afterQuestion)
  | false =>
    rcases hact : w.actuator.perform a arguments s.robot with ⟨status, robot⟩
    set failure := if status = 0 then [] else [w.reportFault place (.nativeStatus a.name status)]
      with hfailure
    have hperform : w.perform place s (.call a.name arguments) =
        .ok (⟨.event (.print (w.info place) (Instruction.call a.name arguments).render) ::
          .robot (.perform a arguments) :: failure, .continue⟩, { s with robot := robot }) := by
      simp [Setting.perform, Setting.call, ha, hact, hfailure]
    have hdeeds : Moment.deeds
        ⟨.event (.print (w.info place) (Instruction.call a.name arguments).render) ::
          .robot (.perform a arguments) :: failure, .continue⟩ =
        [.call (.perform a arguments)] := by
      rw [hfailure]
      split <;> rfl
    have hshows := Shows.plain hperform (h (place + 1) _)
    rw [hdeeds] at hshows
    exact hshows

/-- A wait is a deed. -/
lemma follows_wait (units : UInt32) {rest : Block} {x : Script}
    (h : Follows w patience depth rest x) :
    Follows w patience depth (.plain (.wait units) rest)
      ((Script.pause w.config units).andThen x) := by
  intro place s
  have hperform : w.perform place s (.wait units) =
      .ok (⟨[], .wait (w.config.waitMs units)⟩, s) := rfl
  exact Shows.plain hperform (h (place + 1) s)

/-- A loop on a tap follows its body until there is a tap.

**Proof sketch.** Induction on the patience that is left. Each pass takes at least one step, so
a loop that was given up has taken as many steps as there was patience. -/
lemma follows_tapLoop {body : Block} {x : Script} (h : Follows w patience depth body x) :
    Follows w patience depth (tapLoop body)
      (((Script.pause w.config 100).andThen x).untilTap w.answers patience) := by
  suffices hleft : ∀ left ≤ patience, ∀ place s, Shows w left place (tapLoop body) s
      (((Script.pause w.config 100).andThen x).untilTap w.answers left s.asked)
      (s.Keeps depth) from
    hleft patience (Nat.le_refl _)
  intro left
  induction left with
  | zero =>
    intro _ place s
    exact ⟨0, [], s, rfl, Nat.le_refl _, Nest.run_loop_zero ..⟩
  | succ left ih =>
    intro hle place s
    have hask : w.ask place s (.sensorNotRaised NativeAction.touchSensor.name) =
        .ok (⟨[.poll (w.answers s.asked)], .continue⟩, !w.answers s.asked, s.afterQuestion) := by
      simp [Setting.ask, NativeAction.isSensor]
    have hpass := (follows_wait sensorPoll h) (place + 1) s.afterQuestion
    cases hanswer : w.answers s.asked <;> rw [hanswer] at hask
    · rw [Script.untilTap_of_untapped hanswer]
      exact Shows.loop_pass hask (hpass.mono (Nat.le_of_succ_le hle) fun _ => id) fun s₂ hs₂ =>
        (ih (Nat.le_of_succ_le hle) place s₂).mono (Nat.le_refl left) fun _ => hs₂.trans
    · rw [Script.untilTap_of_tapped hanswer]
      exact Shows.loop_done hask (shows_empty (.refl s depth))

/-- Words with a sign are in the order of their numbers. -/
lemma ofNat_lt_ofNat_iff {i n : Nat} (hi : i < 2 ^ 31) (hn : n < 2 ^ 31) :
    Int32.ofNat i < Int32.ofNat n ↔ i < n := by
  rw [Int32.lt_iff_toInt_lt, Int32.toInt_ofNat_of_lt hi, Int32.toInt_ofNat_of_lt hn, Int.ofNat_lt]

/-- A counter below a limit is counted up by one. -/
lemma addSaturating_one {i : Nat} (hi : i + 1 < 2 ^ 31) :
    Machine.addSaturating (Int32.ofNat i) 1 = Int32.ofNat (i + 1) := by
  have hsum : (Int32.ofNat i).toInt + (1 : Int32).toInt = (i + 1 : Nat) := by
    rw [Int32.toInt_ofNat_of_lt (Nat.lt_of_succ_lt hi)]
    rfl
  have hlow := Int32.toInt_minValue
  have hhigh := Int32.toInt_maxValue_add_one
  unfold Machine.addSaturating
  simp only [hsum]
  rw [if_neg (by omega), if_neg (by omega)]
  rfl

/-- A counted loop follows its body as often as its limit says.

**Proof sketch.** Induction on the passes that are left: the counter tells how many there were.
The body counts only at greater depths, so it leaves the counter as it is. -/
lemma follows_countedLoop {body : Block} {x : Script} {n : Nat} (hn : n < 2 ^ 31)
    (units : UInt32) (h : Follows w patience (depth + 1) body x) :
    Follows w patience depth
      (countedLoop (Context.counterAt depth) (Int32.ofNat n) units body)
      (((Script.pause w.config units).andThen x).times n) := by
  set counter := Context.counterAt depth with hcounter
  suffices hleft : ∀ left i, i + left = n → ∀ place s,
      s.values.get? counter = some (Int32.ofNat i) →
      Shows w patience place
        (.loop (.below counter (Int32.ofNat n))
          (.plain (.wait units) (.plain (.increment counter 1) body)) .empty) s
        (((Script.pause w.config units).andThen x).times left s.asked) (s.Keeps depth) by
    intro place s
    have hperform : w.perform place s (.assign counter 0) =
        .ok (⟨[], .continue⟩, s.assign counter 0) := rfl
    exact Shows.plain hperform
      ((hleft n 0 (Nat.zero_add n) (place + 1) _ (Table.get?_insert_self ..)).mono
        (Nat.le_refl patience) fun _ => (s.keeps_assign depth 0).trans)
  intro left
  induction left with
  | zero =>
    intro i hi place s hvalue
    have hask : w.ask place s (.below counter (Int32.ofNat n)) =
        .ok (⟨[], .continue⟩, false, s) := by
      have hlast : ¬ Int32.ofNat i < Int32.ofNat n := by
        rw [ofNat_lt_ofNat_iff (by omega) hn]
        omega
      simp [Setting.ask, Setting.value, hvalue, hlast]
    exact Shows.loop_done hask (shows_empty (.refl s depth))
  | succ left ih =>
    intro i hi place s hvalue
    have hask : w.ask place s (.below counter (Int32.ofNat n)) =
        .ok (⟨[], .continue⟩, true, s) := by
      have hmore : Int32.ofNat i < Int32.ofNat n := by
        rw [ofNat_lt_ofNat_iff (by omega) hn]
        omega
      simp [Setting.ask, Setting.value, hvalue, hmore]
    have hwait : w.perform (place + 1) s (.wait units) =
        .ok (⟨[], .wait (w.config.waitMs units)⟩, s) := rfl
    have hcount : w.perform (place + 1 + 1) s (.increment counter 1) =
        .ok (⟨[], .continue⟩, s.assign counter (Int32.ofNat (i + 1))) := by
      simp [Setting.perform, Setting.value, hvalue,
        addSaturating_one (show i + 1 < 2 ^ 31 by omega)]
    have hbody := Shows.plain hwait
      (Shows.plain hcount (h (place + 1 + 1 + 1) (s.assign counter (Int32.ofNat (i + 1)))))
    refine (Shows.loop_pass hask hbody fun s₂ hs₂ => ?_).mono (Nat.le_succ patience) fun _ => id
    have hvalue₂ : s₂.values.get? counter = some (Int32.ofNat (i + 1)) := by
      rw [hcounter, hs₂ depth (Nat.lt_succ_self depth)]
      exact Table.get?_insert_self ..
    have hkeeps := (s.keeps_assign depth (Int32.ofNat (i + 1))).trans
      (hs₂.mono (Nat.le_succ depth))
    exact (ih (i + 1) (by omega) place s₂ hvalue₂).mono (Nat.le_refl patience) fun _ => hkeeps.trans

/-! ### Routines -/

/-- The block of a sticker follows the script of the sticker. An action is a call, a wait for a time
is a counted loop of ticks behind its announcement, and a wait for a tap is a loop that asks the
sensor. -/
lemma follows_sticker (s : Sticker) :
    Follows w patience depth (s.block depth) (s.script w.config w.answers patience) := by
  cases s with
  | act a =>
    have h := follows_call a [] (follows_empty : Follows w patience depth .empty .nothing)
    rwa [Script.andThen_nothing] at h
  | wait v =>
    simp only [Sticker.block, waitBlock, Sticker.script, v.limit?_eq]
    cases hv : v.passes? with
    | some n =>
      have hticks := follows_countedLoop (ParameterValue.passes?_lt hv) waitTick
        (follows_empty : Follows w patience (depth + 1) .empty .nothing)
      rw [Script.andThen_nothing] at hticks
      exact follows_call .wait [Int32.ofNat n] (follows_wait waitTick hticks)
    | none =>
      have hpolls := follows_tapLoop (follows_empty : Follows w patience depth .empty .nothing)
      rw [Script.andThen_nothing] at hpolls
      exact follows_call .wait [tapAnnounce] (follows_wait tapSettle hpolls)

/-- The block of a repeat follows the script of the repeat. -/
lemma follows_repeatBlock (v : ParameterValue) {body : Block} {x : Script}
    (h : Follows w patience (depth + 1) body x) :
    Follows w patience depth (repeatBlock v (Context.counterAt depth) body)
      (v.repeats w.config w.answers patience x) := by
  simp only [repeatBlock, ParameterValue.repeats, v.limit?_eq]
  cases hv : v.passes? with
  | some n => exact follows_countedLoop (ParameterValue.passes?_lt hv) repeatSettle h
  | none => exact follows_tapLoop h.shallower

/-- **Blocks follow scripts.** The block of a routine at any depth follows the script of the
routine. -/
theorem follows_block (r : Routine) : ∀ depth,
    Follows w patience depth (r.block depth) (r.script w.config w.answers patience) := by
  induction r with
  | empty => exact fun depth => follows_empty
  | plain s rest ih => exact fun depth => (follows_sticker s).append (ih depth)
  | loop v body rest ihb ihr =>
    exact fun depth => (follows_repeatBlock v (ihb (depth + 1))).append (ihr depth)

end Showing

end StickerBot
