set_option autoImplicit false

/-!
# Shortest decimals

A binary floating-point number stands for every real that rounds to it. Among the decimals in
that interval, the shortest is the one with the fewest digits, and among several of the same
length the one nearest to the number itself.

## Main definitions

* `Rounding` — a positive number `m · 2 ^ q` and the interval of reals that round to it.
* `Rounding.shortest` — its shortest decimal, as digits and a power of ten.
* `Single.text?` — the text of a single: its shortest decimal, plain or with an exponent.

## Design

The interval ends half-way to the two neighbours. All comparisons are made between natural
numbers, in quarters of the last binary place. The ends belong to the interval exactly when
the significand is even, since that is where half-way points are rounded to.
-/

namespace StickerBot

/-- **A number and its interval.** The number is `4 · m` quarters of `2 ^ q`. -/
structure Rounding where
  /-- The significand. -/
  significand : Nat
  /-- The power of two of the last place. -/
  power : Int
  /-- How many quarters of a place the interval reaches down. -/
  below : Nat
deriving Repr

namespace Rounding

/-- Compares `a · 10 ^ e` with `b` quarters of the last place. -/
def compareQuarters (r : Rounding) (a : Nat) (e : Int) (b : Nat) : Ordering :=
  let q := r.power - 2
  let left := a * Nat.pow 10 e.toNat * Nat.pow 2 (-q).toNat
  let right := b * Nat.pow 10 (-e).toNat * Nat.pow 2 q.toNat
  compare left right

/-- Whether `a · 10 ^ e` rounds to the number. -/
def contains (r : Rounding) (a : Nat) (e : Int) : Bool :=
  let low := r.compareQuarters a e (4 * r.significand - r.below)
  let high := r.compareQuarters a e (4 * r.significand + 2)
  let even := r.significand % 2 = 0
  (low == .gt || (even && low == .eq)) && (high == .lt || (even && high == .eq))

/-- The greatest multiple of `10 ^ e` that is at most the number, as a multiple. -/
def floorMultiple (r : Rounding) (e : Int) : Nat :=
  (r.significand * Nat.pow 10 (-e).toNat * Nat.pow 2 r.power.toNat) /
    (Nat.pow 10 e.toNat * Nat.pow 2 (-r.power).toNat)

/-- The multiple of `10 ^ e` that is in the interval and nearest to the number, if there is
one. Of two at the same distance the even one. -/
def nearestMultiple? (r : Rounding) (e : Int) : Option Nat :=
  let a := r.floorMultiple e
  match r.contains a e, r.contains (a + 1) e with
  | false, false => none
  | true, false => some a
  | false, true => some (a + 1)
  | true, true =>
    -- the number against the middle of the two candidates, in eighths of a place
    match r.compareQuarters (2 * a + 1) e (8 * r.significand) with
    | .gt => some a
    | .lt => some (a + 1)
    | .eq => if a % 2 = 0 then some a else some (a + 1)

/-- The power of ten of the first digit, found by going down from a power that is too
large. -/
def firstPower (r : Rounding) : Nat → Int → Int
  | 0, e => e
  | n + 1, e => if r.floorMultiple e = 0 then firstPower r n (e - 1) else e

/-- The first grid of multiples that meets the interval, from coarse to fine. -/
def search (r : Rounding) : Nat → Int → Option (Nat × Int)
  | 0, _ => none
  | n + 1, e =>
    match r.nearestMultiple? e with
    | some a => some (a, e)
    | none => search r n (e - 1)

/-- Takes the zeros off the end of a number and adds them to a power of ten. -/
def dropZeros : Nat → Nat → Int → Nat × Int
  | 0, a, e => (a, e)
  | n + 1, a, e => if a % 10 = 0 ∧ a ≠ 0 then dropZeros n (a / 10) (e + 1) else (a, e)

/-- **The shortest decimal.** Digits `a` and a power `e` with `a · 10 ^ e` in the interval. -/
def shortest (r : Rounding) : Nat × Int :=
  let top := r.firstPower 120 50
  match r.search 30 top with
  | some (a, e) => dropZeros 40 a e
  | none => (0, 0)

end Rounding

namespace Single

/-- The number and interval of the magnitude of a finite single other than zero. -/
def rounding (bits : UInt32) : Rounding :=
  let fraction : Nat := bits.toNat % 0x800000
  let field : Nat := bits.toNat / 0x800000 % 0x100
  if field = 0 then ⟨fraction, -149, 2⟩
  else ⟨fraction + 0x800000, (field : Int) - 150, if fraction = 0 ∧ 1 < field then 1 else 2⟩

/-- Decimal digits `ds`, the first of which counts `10 ^ p`, as text. For `p` from -6 to 12
the point is written in place, with a zero after it if nothing else is; otherwise an exponent
follows. -/
def layout (ds : List Char) (p : Int) : List Char :=
  if -6 ≤ p ∧ p ≤ 12 then
    if p < 0 then
      '0' :: '.' :: (List.replicate (-p - 1).toNat '0' ++ ds)
    else
      let n := p.toNat + 1
      let whole := ds.take n ++ List.replicate (n - ds.length) '0'
      let rest := ds.drop n
      whole ++ '.' :: (if rest.isEmpty then ['0'] else rest)
  else
    let mantissa :=
      match ds with
      | [] => []
      | [d] => [d]
      | d :: more => d :: '.' :: more
    let mark := if p < 0 then "e-" else "e+"
    mantissa ++ mark.toList ++ (toString p.natAbs).toList

/-- **Text of a single.** The shortest decimal that reads back to it; nothing for infinities
and what is no number. -/
def text? (x : Float32) : Option (List Char) :=
  let bits := x.toBits
  let sign := if 0x80000000 ≤ bits.toNat then ['-'] else []
  let magnitude := bits.toNat % 0x80000000
  if 0x7f800000 ≤ magnitude then none
  else if magnitude = 0 then some (sign ++ ['0', '.', '0'])
  else
    let (a, e) := (rounding bits).shortest
    let ds := Nat.toDigits 10 a
    some (sign ++ layout ds (e + ds.length - 1))

end Single

end StickerBot
