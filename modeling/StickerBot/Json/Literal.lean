import StickerBot.Json.Basic
set_option autoImplicit false

/-!
# What JSON literals mean

A string literal means a text unless an escape in it names half of a surrogate pair. A number
literal means an integer if it has neither fraction nor exponent, and a double if none of its
digits leads beyond the doubles.

## Main definitions

* `Json.unquote` — the text of a string literal.
* `Json.Numeral` — a number literal taken apart.
* `Json.int?`, `Json.double?`, `Json.single?` — the values of a number document.
* `Json.isSound` — whether all literals of a document mean something.

## Design

A double is built from the leading digits that fit in 64 bits: the others count by their
places only, and the power of ten is applied by one multiplication or division. This is not
always the nearest double, but it is what a document's numbers mean here.
-/

namespace StickerBot.Json

/-- The value of a hexadecimal digit. -/
def hexValue (c : Char) : Nat :=
  if c.isDigit then c.toNat - '0'.toNat
  else if 'a' ≤ c then c.toNat - 'a'.toNat + 10
  else c.toNat - 'A'.toNat + 10

/-- The number that four hexadecimal digits write. -/
def hexNumber (a b c d : Char) : Nat :=
  ((hexValue a * 16 + hexValue b) * 16 + hexValue c) * 16 + hexValue d

/-- The character that a letter after a backslash stands for. -/
def escapedChar : Char → Char
  | 'n' => '\n'
  | 't' => '\t'
  | 'r' => '\r'
  | 'b' => '\x08'
  | 'f' => '\x0c'
  | c => c

/-- Takes the escapes out of a string literal; `read` holds the characters already found, the
last one first. -/
def unquoteFrom (read : List Char) : List Char → Option (List Char)
  | [] => some read.reverse
  | '\\' :: 'u' :: a :: b :: c :: d :: rest =>
    let n := hexNumber a b c d
    if n < 0xD800 ∨ 0xDFFF < n then unquoteFrom (Char.ofNat n :: read) rest
    else if 0xDBFF < n then none
    else
      match rest with
      | '\\' :: 'u' :: a' :: b' :: c' :: d' :: rest' =>
        let m := hexNumber a' b' c' d'
        if 0xDC00 ≤ m ∧ m ≤ 0xDFFF then
          unquoteFrom (Char.ofNat (0x10000 + (n - 0xD800) * 0x400 + (m - 0xDC00)) :: read) rest'
        else none
      | _ => none
  | '\\' :: c :: rest => unquoteFrom (escapedChar c :: read) rest
  | c :: rest => unquoteFrom (c :: read) rest

/-- The text of a string literal, as written between its quotes. -/
def unquote (literal : List Char) : Option String :=
  (unquoteFrom [] literal).map String.ofList

/-- **Numeral.** A number literal taken apart. -/
structure Numeral where
  negative : Bool
  /-- The digits before the point. -/
  whole : List Char
  /-- The digits after the point. -/
  fraction : List Char
  /-- The power of ten after the mark. -/
  exponent : Int
  /-- Whether there is neither point nor mark. -/
  isPlain : Bool
deriving Repr

namespace Numeral

/-- The number that decimal digits write. -/
def digits (ds : List Char) : Nat := Nat.ofDigitChars 10 ds 0

/-- The power of ten after the mark of an exponent. -/
def exponentOf : List Char → Int
  | '-' :: ds => -(digits ds : Int)
  | '+' :: ds => digits ds
  | ds => digits ds

/-- Takes a well-formed number literal apart. -/
def ofLiteral (literal : List Char) : Numeral :=
  let negative := literal.head? = some '-'
  let body := if negative then literal.tail else literal
  let whole := body.takeWhile Char.isDigit
  let afterWhole := body.dropWhile Char.isDigit
  match afterWhole with
  | [] => ⟨negative, whole, [], 0, true⟩
  | '.' :: more =>
    ⟨negative, whole, more.takeWhile Char.isDigit,
      exponentOf (more.dropWhile Char.isDigit).tail, false⟩
  | _ :: more => ⟨negative, whole, [], exponentOf more, false⟩

/-- One more digit at the end of a number, if the number still fits in 64 bits. -/
@[irreducible]
def extend? (n : Nat) (d : Char) : Option Nat :=
  let m := n * 10 + (d.toNat - '0'.toNat)
  if m < UInt64.size then some m else none

/-- The leading digits that fit in 64 bits, and how many digits are left over. -/
def packWhole (n : Nat) : List Char → Nat × Nat
  | [] => (n, 0)
  | d :: ds =>
    match extend? n d with
    | some m => packWhole m ds
    | none => (n, ds.length + 1)

/-- The digits after the point that still fit in 64 bits, and how many they are. -/
def packFraction (n places : Nat) : List Char → Nat × Nat
  | [] => (n, places)
  | d :: ds =>
    match extend? n d with
    | some m => packFraction m (places + 1) ds
    | none => (n, places)

/-- A power of ten as a double. -/
def powerOfTen (n : Nat) : Float := Float.ofScientific 1 false n

/-- A double times a power of ten, unless that leads beyond the doubles. Powers too small for
one division are applied in several. -/
def scale (x : Float) (e : Int) : Option Float :=
  if e = 0 then some x
  else if 0 ≤ e then
    if e ≤ 308 then
      let y := x * powerOfTen e.toNat
      if y.isInf then none else some y
    else if x == 0 then some x
    else none
  else if -308 ≤ e then some (x / powerOfTen (-e).toNat)
  else if x == 0 then some x
  else scale (x / powerOfTen 308) (e + 308)
termination_by (-e).toNat

/-- The double that a numeral means. -/
def double? (n : Numeral) : Option Float :=
  let whole := packWhole 0 n.whole
  let all := packFraction whole.1 0 n.fraction
  (scale all.1.toUInt64.toFloat (whole.2 - all.2 + n.exponent)).map fun x =>
    if n.negative then -x else x

/-- The integer that a numeral means. Minus zero is no integer. -/
def int? (n : Numeral) : Option Int :=
  if n.isPlain then
    if n.negative then
      if digits n.whole = 0 then none else some (-(digits n.whole : Int))
    else some (digits n.whole)
  else none

/-- The single nearest to a double; of two at the same distance the even one. What is beyond all
singles is infinite. -/
def nearestSingle (x : Float) : Float32 :=
  match x.toModel.unpack with
  | .finite sign m e _ => .ofModel (.pack (.roundWithAccuracy .binary32 sign m e .exact))
  | other => .ofModel (.pack other)

/-- The single that a numeral means: an integer of 64 bits directly, all else by way of the
double. -/
def single? (n : Numeral) : Option Float32 :=
  match n.int? with
  | some i =>
    if 0 ≤ i ∧ i < UInt64.size then some i.toNat.toUInt64.toFloat32
    else if i < 0 ∧ Int64.minValue.toInt ≤ i then some (-((-i).toNat.toUInt64.toFloat32))
    else n.double?.map nearestSingle
  | none => n.double?.map nearestSingle

end Numeral

/-- The text of a string document. -/
def text? : Json → Option String
  | .string l => unquote l
  | _ => none

/-- The integer of a number document. -/
def int? : Json → Option Int
  | .number l => (Numeral.ofLiteral l).int?
  | _ => none

/-- The natural number of a number document, below a bound. -/
def natBelow? (bound : Nat) (j : Json) : Option Nat :=
  j.int?.bind fun i => if 0 ≤ i ∧ i < bound then some i.toNat else none

/-- The double of a number document. -/
def double? : Json → Option Float
  | .number l => (Numeral.ofLiteral l).double?
  | _ => none

/-- The single of a number document. -/
def single? : Json → Option Float32
  | .number l => (Numeral.ofLiteral l).single?
  | _ => none

/-- The truth value of a document. -/
def bool? : Json → Option Bool
  | .bool b => some b
  | _ => none

mutual

/-- **Soundness.** Every literal of the document means something. -/
def isSound : Json → Bool
  | .null | .bool _ => true
  | .number l => (Numeral.ofLiteral l).double?.isSome
  | .string l => (unquote l).isSome
  | .array items => areSoundItems items
  | .object members => areSoundMembers members

/-- Every literal of the items means something. -/
def areSoundItems : List Json → Bool
  | [] => true
  | j :: js => isSound j && areSoundItems js

/-- Every name and literal of the members means something. -/
def areSoundMembers : List (List Char × Json) → Bool
  | [] => true
  | (n, j) :: ms => (unquote n).isSome && isSound j && areSoundMembers ms

end

end StickerBot.Json
