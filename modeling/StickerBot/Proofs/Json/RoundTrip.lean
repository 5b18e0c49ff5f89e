import StickerBot.Json.Writer
import StickerBot.Proofs.Json.Literals
set_option autoImplicit false

/-!
# Documents are read back

A document may be spelled in many ways, as there may be blanks between its lexemes. Compact and
indented text are two of them. However it is spelled, a document whose literals are those of texts
and numbers is read back.

## Main definitions

* `Json.Style`, `Json.spell` — where there are blanks, and the text with these blanks.
* `Json.IsWritten` — all literals of a document are those of texts and numbers.

## Main results

* `Json.write_eq_spell`, `Json.indent_eq_spell` — compact and indented text are spellings.
* `Json.readFrom_spell` — the reader takes a spelling as one value.
* `Json.parse?_compact`, `Json.parse?_indented` — documents are read back from their texts.
-/

namespace StickerBot.Json

/-! ### Spellings -/

/-- **Blanks** between lexemes. -/
def IsBlank (w : List Char) : Prop := ∀ c ∈ w, c = ' ' ∨ c = '\t' ∨ c = '\n' ∨ c = '\r'

/-- **Styles.** Where a text has blanks. -/
structure Style where
  /-- Before an item, a member or a closing bracket at a nesting level. -/
  line : Nat → List Char
  /-- After a colon. -/
  colon : List Char
  isBlank_line : ∀ level, IsBlank (line level)
  isBlank_colon : IsBlank colon

/-- No blanks at all. -/
def Style.dense : Style where
  line _ := []
  colon := []
  isBlank_line _ := fun _ h => absurd h List.not_mem_nil
  isBlank_colon := fun _ h => absurd h List.not_mem_nil

/-- One item or member per line. -/
def Style.lines : Style where
  line level := '\n' :: List.replicate (2 * level) ' '
  colon := [' ']
  isBlank_line level := by
    intro c hc
    rcases List.mem_cons.1 hc with rfl | hc
    · exact .inr (.inr (.inl rfl))
    · exact .inl (List.eq_of_mem_replicate hc)
  isBlank_colon := fun _ h => .inl (List.mem_singleton.1 h)

mutual

/-- **Spelling.** The text of a document in a style, in front of a given text. -/
def spell (st : Style) (level : Nat) : Json → List Char → List Char
  | .null, r => 'n' :: 'u' :: 'l' :: 'l' :: r
  | .bool true, r => 't' :: 'r' :: 'u' :: 'e' :: r
  | .bool false, r => 'f' :: 'a' :: 'l' :: 's' :: 'e' :: r
  | .number l, r => l ++ r
  | .string l, r => '"' :: (l ++ '"' :: r)
  | .array [], r => '[' :: ']' :: r
  | .array (j :: js), r =>
    '[' :: (st.line (level + 1) ++ spell st (level + 1) j
      (spellItems st (level + 1) js (st.line level ++ ']' :: r)))
  | .object [], r => '{' :: '}' :: r
  | .object ((n, j) :: ms), r =>
    '{' :: (st.line (level + 1) ++ '"' :: (n ++ '"' :: ':' :: (st.colon ++
      spell st (level + 1) j (spellMembers st (level + 1) ms (st.line level ++ '}' :: r)))))

/-- The further items of an array. -/
def spellItems (st : Style) (level : Nat) : List Json → List Char → List Char
  | [], r => r
  | j :: js, r => ',' :: (st.line level ++ spell st level j (spellItems st level js r))

/-- The further members of an object. -/
def spellMembers (st : Style) (level : Nat) : List (List Char × Json) → List Char → List Char
  | [], r => r
  | (n, j) :: ms, r =>
    ',' :: (st.line level ++ '"' :: (n ++ '"' :: ':' :: (st.colon ++
      spell st level j (spellMembers st level ms r))))

end

mutual

/-- **Compact text** is a spelling. -/
theorem write_eq_spell (level : Nat) (j : Json) (r : List Char) :
    j.write r = spell .dense level j r := by
  match j with
  | .null | .bool true | .bool false | .number l | .string l | .array [] | .object [] =>
    simp [write, spell]
  | .array (j :: js) =>
    simp [write, spell, Style.dense, write_eq_spell (level + 1) j,
      writeItems_eq_spell (level + 1) js]
  | .object ((n, j) :: ms) =>
    simp [write, spell, Style.dense, write_eq_spell (level + 1) j,
      writeMembers_eq_spell (level + 1) ms]

/-- Items of compact text. -/
theorem writeItems_eq_spell (level : Nat) (js : List Json) (r : List Char) :
    writeItems js r = spellItems .dense level js r := by
  match js with
  | [] => simp [writeItems, spellItems]
  | j :: js =>
    simp [writeItems, spellItems, Style.dense, write_eq_spell level j,
      writeItems_eq_spell level js]

/-- Members of compact text. -/
theorem writeMembers_eq_spell (level : Nat) (ms : List (List Char × Json)) (r : List Char) :
    writeMembers ms r = spellMembers .dense level ms r := by
  match ms with
  | [] => simp [writeMembers, spellMembers]
  | (n, j) :: ms =>
    simp [writeMembers, spellMembers, Style.dense, write_eq_spell level j,
      writeMembers_eq_spell level ms]

end

mutual

/-- **Indented text** is a spelling. -/
theorem indent_eq_spell (level : Nat) (j : Json) (r : List Char) :
    j.indent level r = spell .lines level j r := by
  match j with
  | .null | .bool true | .bool false | .number l | .string l | .array [] | .object [] =>
    simp [indent, spell]
  | .array (j :: js) =>
    simp [indent, spell, Style.lines, newline, indent_eq_spell (level + 1) j,
      indentItems_eq_spell (level + 1) js]
  | .object ((n, j) :: ms) =>
    simp [indent, spell, Style.lines, newline, indent_eq_spell (level + 1) j,
      indentMembers_eq_spell (level + 1) ms]

/-- Items of indented text. -/
theorem indentItems_eq_spell (level : Nat) (js : List Json) (r : List Char) :
    indentItems level js r = spellItems .lines level js r := by
  match js with
  | [] => simp [indentItems, spellItems]
  | j :: js =>
    simp [indentItems, spellItems, Style.lines, newline, indent_eq_spell level j,
      indentItems_eq_spell level js]

/-- Members of indented text. -/
theorem indentMembers_eq_spell (level : Nat) (ms : List (List Char × Json)) (r : List Char) :
    indentMembers level ms r = spellMembers .lines level ms r := by
  match ms with
  | [] => simp [indentMembers, spellMembers]
  | (n, j) :: ms =>
    simp [indentMembers, spellMembers, Style.lines, newline, indent_eq_spell level j,
      indentMembers_eq_spell level ms]

end

/-! ### Documents whose literals are written -/

mutual

/-- **Written documents.** All strings and names are literals of texts, and all numbers are
numbers. -/
def IsWritten : Json → Prop
  | .null | .bool _ => True
  | .number l => IsNumber l
  | .string l => ∃ s, l = quote s
  | .array js => AreWrittenItems js
  | .object ms => AreWrittenMembers ms

/-- Written items. -/
def AreWrittenItems : List Json → Prop
  | [] => True
  | j :: js => IsWritten j ∧ AreWrittenItems js

/-- Written members. -/
def AreWrittenMembers : List (List Char × Json) → Prop
  | [] => True
  | (n, j) :: ms => (∃ s, n = quote s) ∧ IsWritten j ∧ AreWrittenMembers ms

end

/-! ### Reading -/

/-- Blanks between lexemes are passed over. -/
lemma readFrom_blank (b : Builder) {w : List Char} (hw : IsBlank w) (r : List Char) :
    readFrom .between b (w ++ r) = readFrom .between b r := by
  induction w with
  | nil => rfl
  | cons c w ih =>
    have hrest := ih fun d hd => hw d (.tail _ hd)
    rw [List.cons_append]
    rcases hw c (.head _) with rfl | rfl | rfl | rfl <;> exact hrest

/-- A mark is one lexeme. -/
lemma readFrom_mark (b : Builder) {c : Char} {x : Lexeme}
    (h : Scanner.start c = some (.between, [x])) (r : List Char) :
    readFrom .between b (c :: r) = (b.push x).bind fun d => readFrom .between d r := by
  simp only [readFrom, Scanner.next, h, Builder.pushAll]
  cases b.push x <;> rfl

/-- What ends a number. -/
lemma endsNumber_cons {c : Char} (h : c ∈ [',', ']', '}', ' ', '\t', '\n', '\r'])
    (r : List Char) : EndsNumber (c :: r) := by
  have hall : ∀ c ∈ [',', ']', '}', ' ', '\t', '\n', '\r'], ∀ p : NumberPart,
      p.next c = none := by
    intro c hc p
    simp only [List.mem_cons, List.not_mem_nil, or_false] at hc
    rcases hc with rfl | rfl | rfl | rfl | rfl | rfl | rfl <;> cases p <;> rfl
  intro d hd
  obtain rfl := Option.some.inj hd
  exact hall c h

/-- A closing bracket after blanks ends a number. -/
lemma endsNumber_blank {w : List Char} (hw : IsBlank w) {c : Char} (hc : c = ']' ∨ c = '}')
    (r : List Char) : EndsNumber (w ++ c :: r) := by
  cases w with
  | nil => rcases hc with rfl | rfl <;> exact endsNumber_cons (by decide) r
  | cons d w =>
    rcases hw d (.head _) with rfl | rfl | rfl | rfl <;> exact endsNumber_cons (by decide) _

/-- Further items, and a bracket after them, end a number. -/
lemma endsNumber_spellItems (st : Style) (level : Nat) (js : List Json) {r : List Char}
    (hr : EndsNumber r) : EndsNumber (spellItems st level js r) := by
  cases js with
  | nil =>
    rw [spellItems]
    exact hr
  | cons j js =>
    rw [spellItems]
    exact endsNumber_cons (by decide) _

/-- Further members, and a bracket after them, end a number. -/
lemma endsNumber_spellMembers (st : Style) (level : Nat) (ms : List (List Char × Json))
    {r : List Char} (hr : EndsNumber r) : EndsNumber (spellMembers st level ms r) := by
  rcases ms with _ | ⟨⟨n, j⟩, ms⟩
  · rw [spellMembers]
    exact hr
  · rw [spellMembers]
    exact endsNumber_cons (by decide) _

/-- A builder awaits a value inside open frames. -/
def Builder.Awaits (b : Builder) (fs : List Frame) : Prop :=
  ∀ x y, Builder.pushValue fs x = some y → b.push x = some y

/-- Where a value must come it is awaited. -/
lemma awaits_value (fs : List Frame) : (Builder.value fs).Awaits fs := fun _ _ h => h

/-- At the beginning of an array its first item is awaited. -/
lemma awaits_firstItem (fs : List Frame) : (Builder.firstItem fs).Awaits (.items [] :: fs) := by
  intro x y h
  cases x with
  | closeArray => exact absurd h (by simp [Builder.pushValue])
  | _ => exact h

mutual

/-- **Values** are read from their spellings.

**Proof sketch.** By induction on the document, together with the items of arrays and the members of
objects. A spelling begins with a lexeme of its own kind, and blanks between lexemes are skipped, so
the builder gets exactly the lexemes of the document. -/
theorem readFrom_spell (st : Style) (level : Nat) (j : Json) (hj : j.IsWritten)
    {b : Builder} {fs : List Frame} (hb : b.Awaits fs) {r : List Char} (hr : EndsNumber r) :
    readFrom .between b (spell st level j r) = readFrom .between (.complete j fs) r := by
  match j with
  | .null =>
    have hread : readFrom .between b (spell st level .null r) =
        (b.push (.atom .null)).bind fun d => readFrom .between d r := by
      simp only [spell, readFrom, Scanner.next, Scanner.start, if_true, Builder.pushAll]
      cases b.push (.atom .null) <;> rfl
    rw [hread, hb _ _ rfl, Option.bind_some]
  | .bool true =>
    have hread : readFrom .between b (spell st level (.bool true) r) =
        (b.push (.atom (.bool true))).bind fun d => readFrom .between d r := by
      simp only [spell, readFrom, Scanner.next, Scanner.start, if_true, Builder.pushAll]
      cases b.push (.atom (.bool true)) <;> rfl
    rw [hread, hb _ _ rfl, Option.bind_some]
  | .bool false =>
    have hread : readFrom .between b (spell st level (.bool false) r) =
        (b.push (.atom (.bool false))).bind fun d => readFrom .between d r := by
      simp only [spell, readFrom, Scanner.next, Scanner.start, if_true, Builder.pushAll]
      cases b.push (.atom (.bool false)) <;> rfl
    rw [hread, hb _ _ rfl, Option.bind_some]
  | .number l =>
    have hl : IsNumber l := by simpa [IsWritten] using hj
    rw [spell, readFrom_number hl b hr, hb _ _ rfl, Option.bind_some]
  | .string l =>
    obtain ⟨s, rfl⟩ : ∃ s, l = quote s := by simpa [IsWritten] using hj
    rw [spell, readFrom_quote, hb _ _ rfl, Option.bind_some]
  | .array [] =>
    rw [spell, readFrom_mark b (x := .openArray) rfl, hb _ _ rfl, Option.bind_some]
    rfl
  | .array (j :: js) =>
    obtain ⟨hj, hjs⟩ : j.IsWritten ∧ AreWrittenItems js := by
      simpa [IsWritten, AreWrittenItems] using hj
    rw [spell, readFrom_mark b (x := .openArray) rfl, hb _ _ rfl, Option.bind_some,
      readFrom_blank _ (st.isBlank_line _),
      readFrom_spell st (level + 1) j hj (awaits_firstItem fs)
        (endsNumber_spellItems st (level + 1) js
          (endsNumber_blank (st.isBlank_line _) (.inl rfl) r)),
      Builder.complete, readFrom_spellItems st (level + 1) js hjs (st.isBlank_line _)]
    rfl
  | .object [] =>
    rw [spell, readFrom_mark b (x := .openObject) rfl, hb _ _ rfl, Option.bind_some]
    rfl
  | .object ((n, j) :: ms) =>
    obtain ⟨⟨s, rfl⟩, hj, hms⟩ : (∃ s, n = quote s) ∧ j.IsWritten ∧ AreWrittenMembers ms := by
      simpa [IsWritten, AreWrittenMembers] using hj
    rw [spell, readFrom_mark b (x := .openObject) rfl, hb _ _ rfl, Option.bind_some,
      readFrom_blank _ (st.isBlank_line _), readFrom_quote, Builder.push, Option.bind_some,
      readFrom_mark _ (x := .colon) rfl, Builder.push, Option.bind_some,
      readFrom_blank _ st.isBlank_colon,
      readFrom_spell st (level + 1) j hj (awaits_value _)
        (endsNumber_spellMembers st (level + 1) ms
          (endsNumber_blank (st.isBlank_line _) (.inr rfl) r)),
      Builder.complete, readFrom_spellMembers st (level + 1) ms hms (st.isBlank_line _)]
    rfl

/-- The further items of an array are read up to its end. Each begins with a comma, and then comes
its value; the last one is followed by the bracket that closes the array. -/
theorem readFrom_spellItems (st : Style) (level : Nat) (js : List Json) (hjs : AreWrittenItems js)
    {w : List Char} (hw : IsBlank w) {done : List Json} {fs : List Frame} {r : List Char} :
    readFrom .between (.afterItem done fs) (spellItems st level js (w ++ ']' :: r)) =
      readFrom .between (.complete (.array (done.reverse ++ js)) fs) r := by
  match js with
  | [] =>
    rw [spellItems, readFrom_blank _ hw, readFrom_mark _ (x := .closeArray) rfl, Builder.push,
      Option.bind_some, List.append_nil]
  | j :: js =>
    obtain ⟨hj, hjs⟩ : j.IsWritten ∧ AreWrittenItems js := by simpa [AreWrittenItems] using hjs
    rw [spellItems, readFrom_mark _ (x := .comma) rfl, Builder.push, Option.bind_some,
      readFrom_blank _ (st.isBlank_line _),
      readFrom_spell st level j hj (awaits_value _)
        (endsNumber_spellItems st level js (endsNumber_blank hw (.inl rfl) r)),
      Builder.complete, readFrom_spellItems st level js hjs hw]
    simp

/-- The further members of an object are read up to its end. Each begins with a comma, and then come
its name, a colon and its value; the last one is followed by the brace that closes the object. -/
theorem readFrom_spellMembers (st : Style) (level : Nat) (ms : List (List Char × Json))
    (hms : AreWrittenMembers ms) {w : List Char} (hw : IsBlank w)
    {done : List (List Char × Json)} {fs : List Frame} {r : List Char} :
    readFrom .between (.afterMember done fs) (spellMembers st level ms (w ++ '}' :: r)) =
      readFrom .between (.complete (.object (done.reverse ++ ms)) fs) r := by
  match ms with
  | [] =>
    rw [spellMembers, readFrom_blank _ hw, readFrom_mark _ (x := .closeObject) rfl, Builder.push,
      Option.bind_some, List.append_nil]
  | (n, j) :: ms =>
    obtain ⟨⟨s, rfl⟩, hj, hms⟩ : (∃ s, n = quote s) ∧ j.IsWritten ∧ AreWrittenMembers ms := by
      simpa [AreWrittenMembers] using hms
    rw [spellMembers, readFrom_mark _ (x := .comma) rfl, Builder.push, Option.bind_some,
      readFrom_blank _ (st.isBlank_line _), readFrom_quote, Builder.push, Option.bind_some,
      readFrom_mark _ (x := .colon) rfl, Builder.push, Option.bind_some,
      readFrom_blank _ st.isBlank_colon,
      readFrom_spell st level j hj (awaits_value _)
        (endsNumber_spellMembers st level ms (endsNumber_blank hw (.inr rfl) r)),
      Builder.complete, readFrom_spellMembers st level ms hms hw]
    simp

end

/-- A written document is read back from each of its spellings. -/
lemma parse?_spell (st : Style) {j : Json} (hj : j.IsWritten) :
    parse? (String.ofList (spell st 0 j [])) = some j := by
  have hend : EndsNumber [] := fun c hc => absurd hc (by simp)
  rw [parse?, String.toList_ofList, readFrom_spell st 0 j hj (awaits_value []) hend]
  rfl

/-- **Compact text** is read back. -/
theorem parse?_compact {j : Json} (hj : j.IsWritten) : parse? j.compact = some j := by
  rw [compact, write_eq_spell 0]
  exact parse?_spell .dense hj

/-- **Indented text** is read back. -/
theorem parse?_indented {j : Json} (hj : j.IsWritten) : parse? j.indented = some j := by
  rw [indented, indent_eq_spell]
  exact parse?_spell .lines hj

end StickerBot.Json
