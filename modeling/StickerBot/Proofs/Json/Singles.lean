import StickerBot.Proofs.Json.RoundTrip
import StickerBot.Wire.Layout
set_option autoImplicit false

/-!
# Singles are written as numbers

The text of a single is a number literal, however its shortest decimal is laid out. Exactly the
singles that are infinite or no number have no text; they are written as null.

## Main definitions

* `Json.Leads` — digits with no zero in front.

## Main results

* `Single.isSome_text?_iff` — the singles that have a text are the finite ones.
* `Rounding.shortest_spec` — the shortest decimal is zero alone only if nothing was found.
* `Single.isNumber_of_text?` — the text of a single is a number literal.
* `Json.isWritten_single` — every single is written.

## Design

That the shortest decimal has no zero in front does not need that it is the shortest, nor that it
is near the number: zero is never in the interval of another number, so the search does not find it.
-/

namespace StickerBot

/-! ### Which singles have a text -/

namespace Single

open Float.Model in
/-- What is unpacked is finite unless the exponent has ones everywhere. Of the other exponents zero
is the one of subnormal numbers and of zero itself, which are finite as well. -/
lemma isFinite_unpack (b : BitVec Format.binary32.numBits) :
    (UnpackedFloat.unpack Format.binary32 b).isFinite = true ↔
      @UnpackedFloat.unpackExponent Format.binary32 b ≠ -1#_ := by
  unfold UnpackedFloat.unpack
  dsimp only
  by_cases hones : @UnpackedFloat.unpackExponent Format.binary32 b = -1#_
  · rw [if_pos hones]
    refine iff_of_false ?_ (not_not_intro hones)
    split <;> exact Bool.false_ne_true
  · rw [if_neg hones]
    refine iff_of_true ?_ hones
    by_cases hzero : @UnpackedFloat.unpackExponent Format.binary32 b = 0#_
    · rw [if_pos hzero]
      by_cases hmantissa : @UnpackedFloat.unpackMantissa Format.binary32 b = 0#_
      · rw [dif_pos hmantissa]
        rfl
      · rw [dif_neg hmantissa]
        rfl
    · rw [if_neg hzero]
      rfl

open Float.Model in
/-- **Finiteness** is seen from the bits: if not, there are ones in the exponent everywhere. -/
lemma isFinite_iff (x : Float32) :
    x.isFinite = true ↔ x.toBits.toNat / 0x800000 % 0x100 ≠ 0xff := by
  have hfield : (@UnpackedFloat.unpackExponent Format.binary32 x.toBits.toBitVec).toNat =
      x.toBits.toNat / 0x800000 % 0x100 := by
    change x.toBits.toNat >>> 23 % 256 = _
    rw [Nat.shiftRight_eq_div_pow]
  have hunpack := isFinite_unpack x.toBits.toBitVec
  rw [Ne, ← BitVec.toNat_inj, hfield] at hunpack
  exact hunpack

/-- **Texts** belong to exactly the finite singles. -/
theorem isSome_text?_iff (x : Float32) : (text? x).isSome = true ↔ x.isFinite = true := by
  have hbits := x.toBits.toNat_lt
  rw [isFinite_iff, text?]
  dsimp only
  split
  · next h => exact iff_of_false Bool.false_ne_true (by omega)
  · next h =>
    refine iff_of_true ?_ (by omega)
    split <;> rfl

end Single

/-! ### Shortest decimals -/

namespace Rounding

variable {r : Rounding}

/-- Zero is not in the interval of a positive number. -/
lemma contains_zero (hbelow : r.below < 4 * r.significand) (e : Int) : r.contains 0 e = false := by
  have hlow : r.compareQuarters 0 e (4 * r.significand - r.below) = .lt := by
    unfold compareQuarters
    dsimp only
    rw [Nat.zero_mul, Nat.zero_mul, Nat.compare_eq_lt]
    have hten : 0 < Nat.pow 10 (-e).toNat := Nat.pow_pos (by decide)
    have htwo : 0 < Nat.pow 2 (r.power - 2).toNat := Nat.pow_pos (by decide)
    exact Nat.mul_pos (Nat.mul_pos (by omega) hten) htwo
  simp [contains, hlow]

/-- The multiple that is found is not zero.

**Proof sketch.** If zero were in the interval of rounding, the lower bound would be too far below
the significand. Each of the other choices is the multiple behind, which is a successor. -/
lemma ne_zero_of_nearestMultiple? (hbelow : r.below < 4 * r.significand) {e : Int} {a : Nat}
    (h : r.nearestMultiple? e = some a) : a ≠ 0 := by
  have hfloor : r.contains (r.floorMultiple e) e = true → r.floorMultiple e ≠ 0 := by
    intro hin hzero
    rw [hzero, contains_zero hbelow e] at hin
    exact absurd hin Bool.false_ne_true
  unfold nearestMultiple? at h
  dsimp only at h
  split at h
  · exact nomatch h
  · next hin _ =>
    obtain rfl := Option.some.inj h
    exact hfloor hin
  · obtain rfl := Option.some.inj h
    exact Nat.succ_ne_zero _
  · next hin _ =>
    split at h
    · obtain rfl := Option.some.inj h
      exact hfloor hin
    · obtain rfl := Option.some.inj h
      exact Nat.succ_ne_zero _
    · split at h
      · obtain rfl := Option.some.inj h
        exact hfloor hin
      · obtain rfl := Option.some.inj h
        exact Nat.succ_ne_zero _

/-- Going to finer grids does not find zero, either. -/
lemma ne_zero_of_search (hbelow : r.below < 4 * r.significand) (n : Nat) : ∀ {e e' : Int} {a : Nat},
    r.search n e = some (a, e') → a ≠ 0 := by
  induction n with
  | zero => exact fun h => nomatch h
  | succ n ih =>
    intro e e' a h
    unfold search at h
    split at h
    · next found hfound =>
      obtain ⟨rfl, rfl⟩ := Prod.mk.inj (Option.some.inj h)
      exact ne_zero_of_nearestMultiple? hbelow hfound
    · exact ih h

/-- Taking zeros off a number does not make it zero. -/
lemma dropZeros_ne_zero (n : Nat) : ∀ {a : Nat} (e : Int), a ≠ 0 → (dropZeros n a e).1 ≠ 0 := by
  induction n with
  | zero => exact fun _ ha => ha
  | succ n ih =>
    intro a e ha
    unfold dropZeros
    split
    · next h => exact ih (e + 1) (by omega)
    · exact ha

/-- **Shortest decimals** are not zero, unless the search came to its end. -/
theorem shortest_spec (hbelow : r.below < 4 * r.significand) :
    r.shortest = (0, 0) ∨ r.shortest.1 ≠ 0 := by
  unfold shortest
  dsimp only
  split
  · next hsearch => exact .inr (dropZeros_ne_zero 40 _ (ne_zero_of_search hbelow 30 hsearch))
  · exact .inl rfl

end Rounding

/-! ### Number literals -/

namespace Json

/-- **Leading digits.** There are some, and no zero is in front. -/
def Leads (ds : List Char) : Prop :=
  ∃ d more, ds = d :: more ∧ NumberPart.sign.next d = some .whole ∧ ∀ c ∈ more, c.isDigit = true

/-- The digits of a number other than zero have no zero in front. -/
lemma leads_toDigits (n : Nat) (hn : n ≠ 0) : Leads (Nat.toDigits 10 n) := by
  induction n using Nat.strongRecOn with
  | ind n ih =>
    by_cases hlt : n < 10
    · rw [Nat.toDigits_of_lt_base hlt]
      exact ⟨n.digitChar, [], rfl, (next_digitChar n hlt).1 hn, fun c hc => nomatch hc⟩
    · obtain ⟨d, more, hds, hd, hmore⟩ := ih (n / 10) (by omega) (by omega)
      rw [Nat.toDigits_of_base_le (by decide) (Nat.not_lt.1 hlt), hds]
      refine ⟨d, more ++ [(n % 10).digitChar], rfl, hd, fun c hc => ?_⟩
      rcases List.mem_append.1 hc with hc | hc
      · exact hmore c hc
      · obtain rfl := List.mem_singleton.1 hc
        have hdigit : ∀ m < 10, m.digitChar.isDigit = true := by decide
        exact hdigit (n % 10) (by omega)

namespace NumberPart

/-- Digits do not lead out of a part that goes on with digits. -/
lemma after_digits {p : NumberPart} (hp : ∀ c : Char, c.isDigit = true → p.next c = some p)
    (ds : List Char) (hds : ∀ c ∈ ds, c.isDigit = true) : p.after ds = some p := by
  induction ds with
  | nil => rfl
  | cons d ds ih =>
    rw [after, hp d (hds d (.head _)), Option.bind_some]
    exact ih fun c hc => hds c (.tail _ hc)

/-- Further digits leave the automaton in the whole part of a number. -/
lemma whole_after (ds : List Char) (hds : ∀ c ∈ ds, c.isDigit = true) :
    NumberPart.whole.after ds = some .whole :=
  after_digits (fun c hc => by simp [next, hc]) ds hds

/-- Further digits leave the automaton in the fraction of a number. -/
lemma fraction_after (ds : List Char) (hds : ∀ c ∈ ds, c.isDigit = true) :
    NumberPart.fraction.after ds = some .fraction :=
  after_digits (fun c hc => by simp [next, hc]) ds hds

/-- Digits after the point. -/
lemma point_after {ds : List Char} (hne : ds ≠ []) (hds : ∀ c ∈ ds, c.isDigit = true) :
    NumberPart.point.after ds = some .fraction := by
  cases ds with
  | nil => exact absurd rfl hne
  | cons d ds =>
    have hd : NumberPart.point.next d = some .fraction := by simp [next, hds d (.head _)]
    rw [after, hd, Option.bind_some]
    exact fraction_after ds fun c hc => hds c (.tail _ hc)

/-- Digits after the sign of an exponent. -/
lemma markSign_after {ds : List Char} (hne : ds ≠ []) (hds : ∀ c ∈ ds, c.isDigit = true) :
    NumberPart.markSign.after ds = some .exponent := by
  cases ds with
  | nil => exact absurd rfl hne
  | cons d ds =>
    have hd : NumberPart.markSign.next d = some .exponent := by simp [next, hds d (.head _)]
    rw [after, hd, Option.bind_some]
    exact after_digits (fun c hc => by simp [next, hc]) ds fun c hc => hds c (.tail _ hc)

end NumberPart

end Json

namespace Single

open Json

section Layout

variable {d : Char} {more : List Char} (hd : NumberPart.sign.next d = some .whole)
  (hmore : ∀ c ∈ more, c.isDigit = true) {p : Int}
include hd hmore

/-- With a small negative power the digits stand behind the point, after some zeros. -/
lemma after_layout_below (hlow : -6 ≤ p) (hhigh : p < 0) :
    NumberPart.sign.after (layout (d :: more) p) = some .fraction := by
  have hdigit : d.isDigit = true := by
    by_contra h
    simp [NumberPart.next, h] at hd
  have hdigits : ∀ c ∈ List.replicate (-p - 1).toNat '0' ++ d :: more, c.isDigit = true := by
    intro c hc
    rcases List.mem_append.1 hc with hc | hc
    · obtain rfl := List.eq_of_mem_replicate hc
      rfl
    · rcases List.mem_cons.1 hc with rfl | hc
      · exact hdigit
      · exact hmore c hc
  rw [layout.eq_def, if_pos ⟨hlow, by omega⟩, if_pos hhigh]
  exact NumberPart.point_after (by simp) hdigits

/-- With a small power the point stands behind some of the digits, or behind zeros after them. The
digits before the point are those up to the power, filled up with zeros; those behind it are the
others, or a single zero if there are none. -/
lemma after_layout_plain (hlow : 0 ≤ p) (hhigh : p ≤ 12) :
    NumberPart.sign.after (layout (d :: more) p) = some .fraction := by
  have hwhole : ∀ c ∈ more.take p.toNat ++
      List.replicate (p.toNat + 1 - (d :: more).length) '0', c.isDigit = true := by
    intro c hc
    rcases List.mem_append.1 hc with hc | hc
    · exact hmore c (List.mem_of_mem_take hc)
    · obtain rfl := List.eq_of_mem_replicate hc
      rfl
  have hrest : ∀ c ∈ if (more.drop p.toNat).isEmpty then ['0'] else more.drop p.toNat,
      c.isDigit = true := by
    intro c hc
    split at hc
    · obtain rfl := List.mem_singleton.1 hc
      rfl
    · exact hmore c (List.mem_of_mem_drop hc)
  have hne : (if (more.drop p.toNat).isEmpty then ['0'] else more.drop p.toNat) ≠ [] := by
    split
    · exact List.cons_ne_nil _ _
    · next h => exact fun hnil => h (by rw [hnil]; rfl)
  rw [layout.eq_def, if_pos ⟨by omega, hhigh⟩, if_neg (by omega)]
  dsimp only
  rw [List.take_succ_cons, List.drop_succ_cons, List.cons_append, List.cons_append,
    NumberPart.after, hd, Option.bind_some, NumberPart.after_append,
    NumberPart.whole_after _ hwhole]
  exact NumberPart.point_after hne hrest

/-- With any other power there is a point behind the first digit, and an exponent. If there is only
one digit the point is left out. The exponent is written with its sign, and then with its decimal
digits, of which there is one at least. -/
lemma after_layout_exponent (h : ¬ (-6 ≤ p ∧ p ≤ 12)) :
    NumberPart.sign.after (layout (d :: more) p) = some .exponent := by
  have hexponent : ∀ c ∈ (toString p.natAbs).toList, c.isDigit = true := by
    intro c hc
    rw [Nat.toString_eq_repr, Nat.toList_repr] at hc
    exact Nat.isDigit_of_mem_toDigits (by decide) (by decide) hc
  have hne : (toString p.natAbs).toList ≠ [] := by
    rw [Nat.toString_eq_repr, Nat.toList_repr]
    exact Nat.toDigits_ne_nil
  have hmark : ∀ q : NumberPart, q.next 'e' = some .mark →
      q.after ((if p < 0 then "e-" else "e+").toList ++ (toString p.natAbs).toList) =
        some .exponent := by
    intro q hq
    have hsigned : ∀ sign, NumberPart.mark.next sign = some .markSign →
        q.after ('e' :: sign :: (toString p.natAbs).toList) = some .exponent := by
      intro sign hsign
      rw [NumberPart.after, hq, Option.bind_some, NumberPart.after, hsign, Option.bind_some]
      exact NumberPart.markSign_after hne hexponent
    split
    · exact hsigned '-' rfl
    · exact hsigned '+' rfl
  rw [layout.eq_def, if_neg h]
  dsimp only
  rw [List.append_assoc, NumberPart.after_append]
  cases more with
  | nil =>
    rw [NumberPart.after, hd, Option.bind_some]
    exact hmark .whole rfl
  | cons c more =>
    have hpoint : NumberPart.whole.next '.' = some .point := rfl
    rw [NumberPart.after, hd, Option.bind_some, NumberPart.after, hpoint, Option.bind_some,
      NumberPart.point_after (List.cons_ne_nil c more) hmore, Option.bind_some]
    exact hmark .fraction rfl

/-- **Layouts** of digits with no zero in front are numbers. -/
theorem exists_after_layout (p : Int) :
    ∃ q, NumberPart.sign.after (layout (d :: more) p) = some q ∧ q.mayEnd = true := by
  by_cases hrange : -6 ≤ p ∧ p ≤ 12
  · by_cases hsign : p < 0
    · exact ⟨.fraction, after_layout_below hd hmore hrange.1 hsign, rfl⟩
    · exact ⟨.fraction, after_layout_plain hd hmore (by omega) hrange.2, rfl⟩
  · exact ⟨.exponent, after_layout_exponent hd hmore hrange, rfl⟩

end Layout

/-- The number of a single other than zero is not below its interval. -/
lemma below_rounding {bits : UInt32} (h : bits.toNat % 0x80000000 ≠ 0) :
    (rounding bits).below < 4 * (rounding bits).significand := by
  unfold rounding
  dsimp only
  split
  · dsimp only
    omega
  · dsimp only
    split <;> omega

/-- **Texts** of singles are numbers.

**Proof sketch.** Zero has a text of its own. All others have the layout of the shortest digits that
round to the single, which begin with a digit that is not zero; and if the search for them came to
its end, the text would be that of zero. -/
theorem isNumber_of_text? {x : Float32} {l : List Char} (h : text? x = some l) : IsNumber l := by
  have hsigned : ∀ (ds : List Char) (q : NumberPart), NumberPart.sign.after ds = some q →
      q.mayEnd = true →
        IsNumber ((if 0x80000000 ≤ x.toBits.toNat then ['-'] else []) ++ ds) := by
    intro ds q hafter hq
    refine ⟨ds, q, ?_, hafter, hq⟩
    split
    · exact .inr rfl
    · exact .inl rfl
  unfold text? at h
  dsimp only at h
  split at h
  · exact nomatch h
  · split at h
    · obtain rfl := Option.some.inj h
      exact hsigned ['0', '.', '0'] .fraction rfl rfl
    · next hzero =>
      obtain rfl := Option.some.inj h
      rcases Rounding.shortest_spec (below_rounding hzero) with hnone | hsome
      · rw [hnone]
        exact hsigned ['0', '.', '0'] .fraction rfl rfl
      · obtain ⟨d, more, hds, hd, hmore⟩ := leads_toDigits _ hsome
        obtain ⟨q, hafter, hq⟩ := exists_after_layout hd hmore
          ((rounding x.toBits).shortest.2 +
            (Nat.toDigits 10 (rounding x.toBits).shortest.1).length - 1)
        rw [← hds] at hafter
        exact hsigned _ q hafter hq

end Single

namespace Json

/-- **Singles** are written. -/
@[simp] theorem isWritten_single (x : Float32) : (Json.single x).IsWritten := by
  unfold single
  split
  · next l hl =>
    rw [IsWritten]
    exact Single.isNumber_of_text? hl
  · simp [IsWritten]

/-- A number that is no integer is read by way of its double. -/
lemma single?_of_double? {l : List Char} {n : Numeral} {x : Float} (hl : Numeral.ofLiteral l = n)
    (hplain : n.isPlain = false) (hdouble : n.double? = some x) :
    (Json.number l).single? = some (Numeral.nearestSingle x) := by
  unfold single?
  dsimp only
  rw [hl, Numeral.single?, Numeral.int?, if_neg (by simp [hplain])]
  dsimp only
  rw [hdouble]
  rfl

/-- A literal with a point and without exponent means a quotient, if its digits fit in 64 bits. -/
lemma single?_of_places {l whole fraction : List Char} {negative : Bool} {w m p : Nat}
    (hl : Numeral.ofLiteral l = ⟨negative, whole, fraction, 0, false⟩)
    (hwhole : Numeral.packWhole 0 whole = (w, 0))
    (hfraction : Numeral.packFraction w 0 fraction = (m, p)) (hp : 0 < p ∧ p ≤ 308) :
    (Json.number l).single? = (let x := m.toUInt64.toFloat / Numeral.powerOfTen p
      some (Numeral.nearestSingle (if negative then -x else x))) := by
  have hplaces : ((0 : Nat) : Int) - p + 0 = -p := by omega
  have hscale : Numeral.scale m.toUInt64.toFloat (-p : Int) =
      some (m.toUInt64.toFloat / Numeral.powerOfTen p) := by
    rw [Numeral.scale, if_neg (by omega), if_neg (by omega), if_pos (by omega), Int.neg_neg,
      Int.toNat_natCast]
  refine single?_of_double? hl rfl ?_
  rw [double?_eq hwhole hfraction, hplaces, hscale]
  rfl

/-- A single survives if its text has a point and no exponent and means it. -/
lemma single?_single_of_places {x : Float32} {l whole fraction : List Char} {negative : Bool}
    {w m p : Nat} (htext : Single.text? x = some l)
    (hl : Numeral.ofLiteral l = ⟨negative, whole, fraction, 0, false⟩)
    (hwhole : Numeral.packWhole 0 whole = (w, 0))
    (hfraction : Numeral.packFraction w 0 fraction = (m, p)) (hp : 0 < p ∧ p ≤ 308)
    (hvalue : (let y := m.toUInt64.toFloat / Numeral.powerOfTen p
      Numeral.nearestSingle (if negative then -y else y)) = x) :
    (Json.single x).single? = some x := by
  have hsingle : Json.single x = .number l := by rw [single, htext]
  rw [hsingle, single?_of_places hl hwhole hfraction hp]
  exact congrArg some hvalue

/-- A single that is not finite is not read back, for it is written as null. -/
theorem single?_single_of_not_isFinite {x : Float32} (h : x.isFinite = false) :
    (Json.single x).single? = none := by
  have htext : Single.text? x = none := by
    rw [← Option.not_isSome_iff_eq_none, Single.isSome_text?_iff, h]
    exact Bool.false_ne_true
  rw [single, htext]
  rfl

end Json

end StickerBot
