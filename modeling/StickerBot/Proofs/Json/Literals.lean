import Mathlib.Data.List.TakeWhile
import StickerBot.Json.Literal
import StickerBot.Json.Reader
set_option autoImplicit false

/-!
# Literals are read back

A text is written as a string literal, and an integer as a number literal. The reader takes each as
one lexeme, and what it means is what was written.

## Main definitions

* `Json.QuotedAs` — what stands for a character inside a string literal.
* `Json.IsNumber` — what the reader takes as one number.

## Main results

* `Json.unquote_quote` — a text is read back from its literal.
* `Json.readFrom_quote`, `Json.readFrom_number` — a literal is one lexeme.
* `Json.int?_nat`, `Json.int?_int` — an integer is read back from its literal.
* `Json.isSound_nat`, `Json.isSound_int` — integers of 64 bits mean something as doubles, too.
-/

namespace StickerBot.Json

/-! ### Strings -/

/-- **Quoted characters.** What stands for a character inside a string literal. -/
inductive QuotedAs (c : Char) : List Char → Prop where
  /-- The character itself. -/
  | plain (hquote : c ≠ '"') (hslash : c ≠ '\\') (hcontrol : ¬ c.toNat < 32) : QuotedAs c [c]
  /-- A letter after a backslash. -/
  | short (d : Char) (hd : Scanner.isEscape d = true) (hvalue : escapedChar d = c) :
    QuotedAs c ['\\', d]
  /-- A control character by its number. -/
  | control (hcontrol : c.toNat < 32) : QuotedAs c
    ['\\', 'u', '0', '0', hexDigit (c.toNat / 16), hexDigit (c.toNat % 16)]

/-- Every character is quoted in one of these ways. The letters with short forms are tried one after
the other, in the order of the quoting; what is left is a control character or stands for itself. -/
lemma quotedAs_quoteChar (c : Char) : QuotedAs c (quoteChar c) := by
  by_cases hquote : c = '"'
  · exact hquote ▸ .short '"' rfl rfl
  by_cases hslash : c = '\\'
  · exact hslash ▸ .short '\\' rfl rfl
  by_cases hnewline : c = '\n'
  · exact hnewline ▸ .short 'n' rfl rfl
  by_cases htab : c = '\t'
  · exact htab ▸ .short 't' rfl rfl
  by_cases hreturn : c = '\r'
  · exact hreturn ▸ .short 'r' rfl rfl
  by_cases hback : c = '\x08'
  · exact hback ▸ .short 'b' rfl rfl
  by_cases hfeed : c = '\x0c'
  · exact hfeed ▸ .short 'f' rfl rfl
  unfold quoteChar
  rw [if_neg hquote, if_neg hslash, if_neg hnewline, if_neg htab, if_neg hreturn, if_neg hback,
    if_neg hfeed]
  split
  · exact .control (by assumption)
  · exact .plain hquote hslash (by assumption)

/-- A digit has its value. -/
lemma hexValue_hexDigit : ∀ n < 16, hexValue (hexDigit n) = n := by decide

/-- A digit is one. -/
lemma isHex_hexDigit : ∀ n < 16, Scanner.isHex (hexDigit n) = true := by decide

/-- A quoted character is read back. There is one case for each way of quoting. A control character
is written with its number in four hexadecimal digits, of which the first two are zero. -/
lemma unquoteFrom_quoteChar (read : List Char) (c : Char) (rest : List Char) :
    unquoteFrom read (quoteChar c ++ rest) = unquoteFrom (c :: read) rest := by
  have hquoted := quotedAs_quoteChar c
  generalize quoteChar c = q at hquoted
  cases hquoted with
  | plain hquote hslash hcontrol =>
    rw [List.singleton_append, unquoteFrom]
    · exact fun _ _ _ _ _ h => absurd h hslash
    · exact fun _ _ h => absurd h hslash
  | short d hd hvalue =>
    have hletter : d ≠ 'u' := by
      rintro rfl
      exact absurd hd (by decide)
    rw [List.cons_append, List.singleton_append, unquoteFrom, hvalue]
    intro _ _ _ _ _ h
    exact absurd h hletter
  | control hcontrol =>
    have hhigh := hexValue_hexDigit (c.toNat / 16) (by omega)
    have hlow := hexValue_hexDigit (c.toNat % 16) (by omega)
    have hzero : hexValue '0' = 0 := rfl
    have hnumber : hexNumber '0' '0' (hexDigit (c.toNat / 16)) (hexDigit (c.toNat % 16)) =
        c.toNat := by
      rw [hexNumber, hhigh, hlow, hzero]
      omega
    simp only [List.cons_append, List.nil_append]
    rw [unquoteFrom.eq_def]
    simp only [hnumber]
    rw [if_pos (.inl (by omega)), Char.ofNat_toNat]

/-- Quoted characters are read back. -/
lemma unquoteFrom_flatMap (cs : List Char) : ∀ read : List Char,
    unquoteFrom read (cs.flatMap quoteChar) = some (read.reverse ++ cs) := by
  induction cs with
  | nil =>
    intro read
    rw [List.flatMap_nil, unquoteFrom, List.append_nil]
  | cons c cs ih =>
    intro read
    rw [List.flatMap_cons, unquoteFrom_quoteChar, ih, List.reverse_cons, List.append_assoc]
    rfl

/-- **Texts** are read back from their literals. -/
@[simp] theorem unquote_quote (text : String) : unquote (quote text) = some text := by
  rw [unquote, quote, unquoteFrom_flatMap, List.reverse_nil, List.nil_append, Option.map_some,
    String.ofList_toList]

/-- A quoted character is read as a part of a string. The reader of strings takes its characters as
they are, and only has to see that no quote ends the string inside of them. -/
lemma readFrom_quoteChar (read : List Char) (b : Builder) (c : Char) (rest : List Char) :
    readFrom (.string read) b (quoteChar c ++ rest) =
      readFrom (.string ((quoteChar c).reverse ++ read)) b rest := by
  have hquoted := quotedAs_quoteChar c
  generalize quoteChar c = q at hquoted
  cases hquoted with
  | plain hquote hslash hcontrol =>
    simp [readFrom, Scanner.next, Builder.pushAll, hquote, hslash, hcontrol]
  | short d hd hvalue =>
    simp [readFrom, Scanner.next, Builder.pushAll, hd]
  | control hcontrol =>
    have hhigh := isHex_hexDigit (c.toNat / 16) (by omega)
    have hlow := isHex_hexDigit (c.toNat % 16) (by omega)
    have hzero : Scanner.isHex '0' = true := by decide
    have hletter : Scanner.isEscape 'u' = false := by decide
    simp [readFrom, Scanner.next, Builder.pushAll, hhigh, hlow, hzero, hletter]

/-- **String literals** are one lexeme. By induction on the text the reader takes all quoted
characters, and the quote behind them is the first one that is not escaped. -/
theorem readFrom_quote (text : String) (b : Builder) (rest : List Char) :
    readFrom .between b ('"' :: (quote text ++ '"' :: rest)) =
      (b.push (.string (quote text))).bind fun d => readFrom .between d rest := by
  have hinside : ∀ (cs read : List Char),
      readFrom (.string read) b (cs.flatMap quoteChar ++ '"' :: rest) =
        readFrom (.string ((cs.flatMap quoteChar).reverse ++ read)) b ('"' :: rest) := by
    intro cs
    induction cs with
    | nil => exact fun read => rfl
    | cons c cs ih =>
      intro read
      rw [List.flatMap_cons, List.append_assoc, readFrom_quoteChar, ih, List.reverse_append,
        List.append_assoc]
  have hopen : readFrom .between b ('"' :: (quote text ++ '"' :: rest)) =
      readFrom (.string []) b (quote text ++ '"' :: rest) := rfl
  rw [hopen, quote, hinside, List.append_nil, readFrom]
  simp only [Scanner.next, if_true, List.reverse_reverse, Builder.pushAll]
  cases b.push (.string (text.toList.flatMap quoteChar)) <;> rfl

/-! ### Numbers -/

/-- The part of a number literal that some characters lead to. -/
def NumberPart.after (p : NumberPart) : List Char → Option NumberPart
  | [] => some p
  | c :: cs => (p.next c).bind fun q => q.after cs

/-- **Number literals.** What the reader takes as one number, if nothing follows that it would take
as a part of it. -/
def IsNumber (l : List Char) : Prop :=
  ∃ ds p, (l = ds ∨ l = '-' :: ds) ∧ NumberPart.sign.after ds = some p ∧ p.mayEnd = true

/-- What follows ends a number. -/
def EndsNumber (rest : List Char) : Prop :=
  ∀ c, rest.head? = some c → ∀ p : NumberPart, p.next c = none

/-- The part that further characters lead to. -/
lemma NumberPart.after_append (cs ds : List Char) : ∀ p : NumberPart,
    p.after (cs ++ ds) = (p.after cs).bind fun q => q.after ds := by
  induction cs with
  | nil => exact fun p => rfl
  | cons c cs ih =>
    intro p
    rw [List.cons_append, after, after, Option.bind_assoc]
    exact congrArg _ (funext ih)

/-- A character that begins a number is none that begins something else. -/
lemma start_of_next {c : Char} {p : NumberPart} (h : NumberPart.sign.next c = some p) :
    Scanner.start c = some (.number p [c], []) := by
  unfold Scanner.start
  split
  case h_16 => rw [h, Option.map_some]
  all_goals exact absurd h (by simp [NumberPart.next])

/-- The characters of a number are read one by one. By induction on the characters, along with the
automaton that the reader runs. -/
lemma readFrom_after (b : Builder) (cs rest : List Char) : ∀ (p q : NumberPart) (read : List Char),
    p.after cs = some q → readFrom (.number p read) b (cs ++ rest) =
      readFrom (.number q (cs.reverse ++ read)) b rest := by
  induction cs with
  | nil =>
    intro p q read h
    obtain rfl := Option.some.inj h
    rfl
  | cons c cs ih =>
    intro p q read h
    obtain ⟨p', hnext, hafter⟩ := Option.bind_eq_some_iff.1 h
    have hstep : readFrom (.number p read) b (c :: (cs ++ rest)) =
        readFrom (.number p' (c :: read)) b (cs ++ rest) := by
      simp [readFrom, Scanner.next, hnext, Builder.pushAll]
    rw [List.cons_append, hstep, ih p' q (c :: read) hafter, List.reverse_cons,
      List.append_assoc]
    rfl

/-- A number is complete where it is ended. That is at the end of the text, or before a character
with which no part of a number goes on. -/
lemma readFrom_of_endsNumber (b : Builder) {p : NumberPart} (hp : p.mayEnd = true)
    (read : List Char) {rest : List Char} (hrest : EndsNumber rest) :
    readFrom (.number p read) b rest =
      (b.push (.atom (.number read.reverse))).bind fun d => readFrom .between d rest := by
  cases rest with
  | nil =>
    simp only [readFrom, Scanner.finish, hp, if_true, Option.bind_some, Builder.pushAll]
    cases b.push (.atom (.number read.reverse)) <;> rfl
  | cons c rest =>
    have hnone := hrest c rfl p
    simp only [readFrom, Scanner.next, hnone, hp, if_true]
    cases hstart : Scanner.start c with
    | none => cases b.push (.atom (.number read.reverse)) <;> rfl
    | some r =>
      simp only [Option.map_some, Builder.pushAll]
      cases b.push (.atom (.number read.reverse)) <;> rfl

/-- **Number literals** are one lexeme.

**Proof sketch.** The first character tells that a number begins. The reader then goes through the
parts of a number with the same automaton as the literal, and stops at the first character that
cannot go on a number. -/
theorem readFrom_number {l : List Char} (hl : IsNumber l) (b : Builder) {rest : List Char}
    (hrest : EndsNumber rest) : readFrom .between b (l ++ rest) =
      (b.push (.atom (.number l))).bind fun d => readFrom .between d rest := by
  obtain ⟨ds, p, hl, hafter, hp⟩ := hl
  rcases hl with rfl | rfl
  · cases l with
    | nil =>
      obtain rfl := Option.some.inj hafter
      exact absurd hp (by decide)
    | cons c cs =>
      obtain ⟨p', hnext, hcs⟩ := Option.bind_eq_some_iff.1 hafter
      have hfirst : readFrom .between b (c :: (cs ++ rest)) =
          readFrom (.number p' [c]) b (cs ++ rest) := by
        simp [readFrom, Scanner.next, start_of_next hnext, Builder.pushAll]
      rw [List.cons_append, hfirst, readFrom_after b cs rest p' p [c] hcs,
        readFrom_of_endsNumber b hp _ hrest]
      simp
  · have hfirst : readFrom .between b ('-' :: (ds ++ rest)) =
        readFrom (.number .sign ['-']) b (ds ++ rest) := rfl
    rw [List.cons_append, hfirst, readFrom_after b ds rest .sign p ['-'] hafter,
      readFrom_of_endsNumber b hp _ hrest]
    simp

/-! ### Integers -/

/-- The first digit of a number other than zero, and any further digit. -/
lemma next_digitChar : ∀ d < 10,
    (d ≠ 0 → NumberPart.sign.next d.digitChar = some .whole) ∧
      NumberPart.whole.next d.digitChar = some .whole := by decide

/-- The digits of a number other than zero. -/
lemma after_toDigits (n : Nat) (hn : n ≠ 0) :
    NumberPart.sign.after (Nat.toDigits 10 n) = some .whole := by
  induction n using Nat.strongRecOn with
  | ind n ih =>
    by_cases hlt : n < 10
    · rw [Nat.toDigits_of_lt_base hlt, NumberPart.after, (next_digitChar n hlt).1 hn]
      rfl
    · have hten : 10 ≤ n := Nat.not_lt.1 hlt
      have hrest := ih (n / 10) (by omega) (by omega)
      rw [Nat.toDigits_of_base_le (by decide) hten, NumberPart.after_append, hrest,
        Option.bind_some, NumberPart.after, (next_digitChar (n % 10) (by omega)).2]
      rfl

/-- The digits of a natural number. -/
lemma exists_after_toDigits (n : Nat) :
    ∃ p, NumberPart.sign.after (Nat.toDigits 10 n) = some p ∧ p.mayEnd = true := by
  by_cases hn : n = 0
  · subst hn
    exact ⟨.zero, rfl, rfl⟩
  · exact ⟨.whole, after_toDigits n hn, rfl⟩

/-- The literal of an integer: its digits, after a minus if it has one. -/
lemma toList_toString_int (n : Int) : (toString n).toList =
    if n < 0 then '-' :: Nat.toDigits 10 n.natAbs else Nat.toDigits 10 n.natAbs := by
  rw [Int.toString_eq_repr, Int.repr_eq_if]
  by_cases hn : n < 0
  · rw [if_neg (by omega), if_pos hn, String.toList_append, Nat.toList_repr,
      show (-n).toNat = n.natAbs by omega]
    rfl
  · rw [if_pos (by omega), if_neg hn, Nat.toList_repr, show n.toNat = n.natAbs by omega]

/-- A natural number is a number. -/
lemma isNumber_nat (n : Nat) : IsNumber (toString n).toList := by
  obtain ⟨p, hafter, hp⟩ := exists_after_toDigits n
  refine ⟨_, p, .inl rfl, ?_, hp⟩
  rw [Nat.toString_eq_repr, Nat.toList_repr]
  exact hafter

/-- An integer is a number. -/
lemma isNumber_int (n : Int) : IsNumber (toString n).toList := by
  obtain ⟨p, hafter, hp⟩ := exists_after_toDigits n.natAbs
  rw [toList_toString_int]
  split
  · exact ⟨_, p, .inr rfl, hafter, hp⟩
  · exact ⟨_, p, .inl rfl, hafter, hp⟩

/-- A digit stands for itself inside a string literal. It is neither a control character nor one of
those with a short form, none of which is a digit. -/
lemma quoteChar_of_isDigit {c : Char} (h : c.isDigit = true) : quoteChar c = [c] := by
  have hquoted := quotedAs_quoteChar c
  generalize quoteChar c = q at hquoted
  have hrange : 48 ≤ c.toNat ∧ c.toNat ≤ 57 := by
    simpa [Char.isDigit, UInt32.le_iff_toNat_le] using h
  cases hquoted with
  | plain hquote hslash hcontrol => rfl
  | short d hd hvalue =>
    subst hvalue
    have hescape : d ∈ ['"', '\\', '/', 'b', 'f', 'n', 'r', 't'] := of_decide_eq_true hd
    have hnone : (['"', '\\', '/', 'b', 'f', 'n', 'r', 't'].all fun d =>
        !(escapedChar d).isDigit) = true := by decide
    have hd' := List.all_eq_true.1 hnone d hescape
    rw [h] at hd'
    exact absurd hd' Bool.false_ne_true
  | control hcontrol => omega

/-- The digits of a number stand for themselves inside a string literal. -/
lemma quote_toString_nat (n : Nat) : quote (toString n) = (toString n).toList := by
  have hall : ∀ c ∈ Nat.toDigits 10 n, c.isDigit = true := fun c hc =>
    Nat.isDigit_of_mem_toDigits (by decide) (by decide) hc
  rw [quote, Nat.toString_eq_repr, Nat.toList_repr]
  generalize Nat.toDigits 10 n = cs at hall
  induction cs with
  | nil => rfl
  | cons c cs ih =>
    rw [List.flatMap_cons, quoteChar_of_isDigit (hall c (.head _)), List.singleton_append,
      ih fun d hd => hall d (.tail _ hd)]

/-- Digits taken apart. -/
lemma ofLiteral_toDigits (n : Nat) :
    Numeral.ofLiteral (Nat.toDigits 10 n) = ⟨false, Nat.toDigits 10 n, [], 0, true⟩ ∧
      Numeral.ofLiteral ('-' :: Nat.toDigits 10 n) = ⟨true, Nat.toDigits 10 n, [], 0, true⟩ := by
  have hall : ∀ c ∈ Nat.toDigits 10 n, c.isDigit = true := fun c hc =>
    Nat.isDigit_of_mem_toDigits (by decide) (by decide) hc
  have htake := List.takeWhile_eq_self_iff.2 hall
  have hdrop := List.dropWhile_eq_nil_iff.2 hall
  have hminus : (Nat.toDigits 10 n).head? ≠ some '-' := by
    intro hhead
    have hdigit := hall _ (List.mem_of_head? hhead)
    exact absurd hdigit (by decide)
  constructor
  · simp [Numeral.ofLiteral, hminus, htake, hdrop]
  · simp [Numeral.ofLiteral, htake, hdrop]

/-- **Natural numbers** are read back. -/
@[simp] theorem int?_nat (n : Nat) : (Json.nat n).int? = some (n : Int) := by
  rw [nat, int?, Nat.toString_eq_repr, Nat.toList_repr, (ofLiteral_toDigits n).1]
  simp [Numeral.int?, Numeral.digits]

/-- **Integers** are read back. -/
@[simp] theorem int?_int (n : Int) : (Json.int n).int? = some n := by
  rw [int, int?, toList_toString_int]
  by_cases hn : n < 0
  · have hne : n.natAbs ≠ 0 := by omega
    rw [if_pos hn, (ofLiteral_toDigits n.natAbs).2]
    simp only [Numeral.int?, Numeral.digits, Nat.ofDigitChars_ten_toDigits, if_true, if_neg hne]
    congr 1
    omega
  · rw [if_neg hn, (ofLiteral_toDigits n.natAbs).1]
    simp only [Numeral.int?, Numeral.digits, Nat.ofDigitChars_ten_toDigits, if_true,
      Bool.false_eq_true, if_false]
    congr 1
    omega

/-- A natural number below a bound is read back. -/
lemma natBelow?_nat {n bound : Nat} (h : n < bound) : (Json.nat n).natBelow? bound = some n := by
  rw [natBelow?, int?_nat, Option.bind_some, if_pos ⟨Int.natCast_nonneg n, by omega⟩,
    Int.toNat_natCast]

/-! ### Doubles -/

/-- A digit is packed if the number still fits. -/
lemma packWhole_cons {n : Nat} {d : Char} (ds : List Char)
    (h : n * 10 + (d.toNat - '0'.toNat) < UInt64.size) :
    Numeral.packWhole n (d :: ds) = Numeral.packWhole (n * 10 + (d.toNat - '0'.toNat)) ds := by
  have hextend : Numeral.extend? n d = some (n * 10 + (d.toNat - '0'.toNat)) := by
    unfold Numeral.extend?
    exact if_pos h
  rw [Numeral.packWhole, hextend]

/-- Digits of a number of 64 bits are packed without loss. -/
lemma packWhole_eq (ds : List Char) : ∀ n : Nat, Nat.ofDigitChars 10 ds n < UInt64.size →
    Numeral.packWhole n ds = (Nat.ofDigitChars 10 ds n, 0) := by
  induction ds with
  | nil => exact fun n _ => rfl
  | cons d ds ih =>
    intro n hlt
    rw [Nat.ofDigitChars_cons, Nat.mul_comm] at hlt ⊢
    have hle : n * 10 + (d.toNat - '0'.toNat) < UInt64.size := by
      rw [Nat.ofDigitChars_eq_ofDigitChars_zero] at hlt
      have hpow : 1 * (n * 10 + (d.toNat - '0'.toNat)) ≤
          10 ^ ds.length * (n * 10 + (d.toNat - '0'.toNat)) :=
        Nat.mul_le_mul_right _ (Nat.one_le_pow _ _ (by decide))
      omega
    exact (packWhole_cons ds hle).trans (ih _ hlt)

/-- The double of a numeral whose digits are packed. -/
lemma double?_eq {n : Numeral} {w left m places : Nat}
    (hwhole : Numeral.packWhole 0 n.whole = (w, left))
    (hfraction : Numeral.packFraction w 0 n.fraction = (m, places)) :
    n.double? = (Numeral.scale m.toUInt64.toFloat (left - places + n.exponent)).map fun x =>
      if n.negative then -x else x := by
  rw [Numeral.double?, hwhole]
  dsimp only
  rw [hfraction]

/-- A whole number of 64 bits means a double. -/
lemma isSome_double? {n : Nat} (hn : n < UInt64.size) (negative : Bool) :
    (Numeral.double? ⟨negative, Nat.toDigits 10 n, [], 0, true⟩).isSome = true := by
  have hwhole : Numeral.packWhole 0 (Nat.toDigits 10 n) = (n, 0) := by
    have hall := packWhole_eq (Nat.toDigits 10 n) 0
    rw [Nat.ofDigitChars_ten_toDigits] at hall
    exact hall hn
  have hplaces : ((0 : Nat) : Int) - (0 : Nat) + 0 = 0 := rfl
  rw [double?_eq (m := n) hwhole rfl, hplaces, Numeral.scale, if_pos rfl]
  rfl

/-- A natural number of 64 bits means a double. -/
lemma isSound_nat {n : Nat} (hn : n < UInt64.size) : (Json.nat n).isSound = true := by
  rw [nat, isSound, Nat.toString_eq_repr, Nat.toList_repr, (ofLiteral_toDigits n).1]
  exact isSome_double? hn false

/-- An integer of 64 bits means a double. -/
lemma isSound_int {n : Int} (hn : n.natAbs < UInt64.size) : (Json.int n).isSound = true := by
  rw [int, isSound, toList_toString_int]
  split
  · rw [(ofLiteral_toDigits n.natAbs).2]
    exact isSome_double? hn true
  · rw [(ofLiteral_toDigits n.natAbs).1]
    exact isSome_double? hn false

end StickerBot.Json
