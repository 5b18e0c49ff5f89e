import StickerBot.Json.Basic
set_option autoImplicit false

/-!
# Reading JSON

A text is read in one pass. A scanner cuts it into lexemes, one character at a time, and a
builder puts the lexemes together, with a stack of the arrays and objects that are still
open; so nesting may be as deep as it likes.

The reader is strict: it takes the four kinds of blanks between lexemes and nothing else, no
control character inside a string, no unknown escape, no leading zero. It does not ask what a
literal means.

## Main definitions

* `Json.Scanner`, `Json.Scanner.next` — the state inside a lexeme, and one character more.
* `Json.Builder`, `Json.Builder.push` — the open arrays and objects, and one lexeme more.
* `Json.parse?` — the document of a text.
-/

namespace StickerBot.Json

/-- **Lexemes.** The smallest parts of a document. -/
inductive Lexeme where
  | openArray
  | closeArray
  | openObject
  | closeObject
  | colon
  | comma
  /-- A string, as written between its quotes. -/
  | string (literal : List Char)
  /-- A word or a number. -/
  | atom (value : Json)

/-- The part of a number literal that was read last. -/
inductive NumberPart where
  | sign
  | zero
  | whole
  | point
  | fraction
  | mark
  | markSign
  | exponent
deriving DecidableEq, Repr

namespace NumberPart

/-- The part that one more character leads to, if the literal can go on with it. -/
def next (p : NumberPart) (c : Char) : Option NumberPart :=
  match p with
  | .sign => if c = '0' then some .zero else if c.isDigit then some .whole else none
  | .zero => if c = '.' then some .point else if c = 'e' ∨ c = 'E' then some .mark else none
  | .whole =>
    if c.isDigit then some .whole
    else if c = '.' then some .point
    else if c = 'e' ∨ c = 'E' then some .mark
    else none
  | .point => if c.isDigit then some .fraction else none
  | .fraction =>
    if c.isDigit then some .fraction else if c = 'e' ∨ c = 'E' then some .mark else none
  | .mark =>
    if c = '+' ∨ c = '-' then some .markSign else if c.isDigit then some .exponent else none
  | .markSign | .exponent => if c.isDigit then some .exponent else none

/-- Whether a literal may end after this part. -/
def mayEnd : NumberPart → Bool
  | .zero | .whole | .fraction | .exponent => true
  | .sign | .point | .mark | .markSign => false

end NumberPart

/-- **Scanner states.** What has been read of the lexeme at hand; characters are collected
with the last one first. -/
inductive Scanner where
  /-- Between lexemes. -/
  | between
  /-- Inside a word: the letters still to come, and what it stands for. -/
  | word (rest : List Char) (value : Json)
  /-- Inside a number. -/
  | number (part : NumberPart) (read : List Char)
  /-- Inside a string. -/
  | string (read : List Char)
  /-- After a backslash in a string. -/
  | escape (read : List Char)
  /-- After the letter of a numeric escape: how many digits are still to come. -/
  | hex (count : Nat) (read : List Char)

namespace Scanner

/-- The lexemes and the state after the first character of a lexeme, or a blank. -/
def start (c : Char) : Option (Scanner × List Lexeme) :=
  match c with
  | ' ' | '\t' | '\n' | '\r' => some (.between, [])
  | '[' => some (.between, [.openArray])
  | ']' => some (.between, [.closeArray])
  | '{' => some (.between, [.openObject])
  | '}' => some (.between, [.closeObject])
  | ':' => some (.between, [.colon])
  | ',' => some (.between, [.comma])
  | '"' => some (.string [], [])
  | 't' => some (.word ['r', 'u', 'e'] (.bool true), [])
  | 'f' => some (.word ['a', 'l', 's', 'e'] (.bool false), [])
  | 'n' => some (.word ['u', 'l', 'l'] .null, [])
  | '-' => some (.number .sign ['-'], [])
  | _ => (NumberPart.sign.next c).map fun p => (.number p [c], [])

/-- Whether a character may follow a backslash in a string. -/
def isEscape (c : Char) : Bool :=
  c ∈ ['"', '\\', '/', 'b', 'f', 'n', 'r', 't']

/-- Whether a character is a hexadecimal digit. -/
def isHex (c : Char) : Bool :=
  c.isDigit || ('a' ≤ c && c ≤ 'f') || ('A' ≤ c && c ≤ 'F')

/-- **One character more.** The new state and the lexemes that are now complete. -/
def next (s : Scanner) (c : Char) : Option (Scanner × List Lexeme) :=
  match s with
  | .between => start c
  | .word [] _ => none
  | .word [l] v => if c = l then some (.between, [.atom v]) else none
  | .word (l :: ls) v => if c = l then some (.word ls v, []) else none
  | .number p read =>
    match p.next c with
    | some q => some (.number q (c :: read), [])
    | none =>
      if p.mayEnd then
        (start c).map fun r => (r.1, .atom (.number read.reverse) :: r.2)
      else none
  | .string read =>
    if c = '"' then some (.between, [.string read.reverse])
    else if c = '\\' then some (.escape (c :: read), [])
    else if c.toNat < 32 then none
    else some (.string (c :: read), [])
  | .escape read =>
    if isEscape c then some (.string (c :: read), [])
    else if c = 'u' then some (.hex 4 (c :: read), [])
    else none
  | .hex n read =>
    if isHex c then
      if n ≤ 1 then some (.string (c :: read), []) else some (.hex (n - 1) (c :: read), [])
    else none

/-- The lexemes that are complete when the text ends here. -/
def finish : Scanner → Option (List Lexeme)
  | .between => some []
  | .number p read => if p.mayEnd then some [.atom (.number read.reverse)] else none
  | .word _ _ | .string _ | .escape _ | .hex _ _ => none

end Scanner

/-- **Open frames.** An array or object that is not closed yet, with what it holds so far,
the last first. -/
inductive Frame where
  | items (done : List Json)
  /-- An object that waits for the value of a name. -/
  | members (done : List (List Char × Json)) (name : List Char)

/-- **Builder states.** What may come next, inside which open frames. -/
inductive Builder where
  /-- A value. -/
  | value (frames : List Frame)
  /-- The first item of an array, or its end. -/
  | firstItem (frames : List Frame)
  /-- A comma, or the end of an array. -/
  | afterItem (done : List Json) (frames : List Frame)
  /-- The first name of an object, or its end. -/
  | firstName (frames : List Frame)
  /-- A name. -/
  | name (done : List (List Char × Json)) (frames : List Frame)
  /-- The colon after a name. -/
  | colon (done : List (List Char × Json)) (name : List Char) (frames : List Frame)
  /-- A comma, or the end of an object. -/
  | afterMember (done : List (List Char × Json)) (frames : List Frame)
  /-- Nothing more. -/
  | ready (value : Json)

namespace Builder

/-- A value is complete inside the open frames. -/
def complete (j : Json) : List Frame → Builder
  | [] => .ready j
  | .items done :: fs => .afterItem (j :: done) fs
  | .members done n :: fs => .afterMember ((n, j) :: done) fs

/-- A lexeme where a value must come. -/
def pushValue (fs : List Frame) : Lexeme → Option Builder
  | .openArray => some (.firstItem fs)
  | .openObject => some (.firstName fs)
  | .string l => some (complete (.string l) fs)
  | .atom j => some (complete j fs)
  | .closeArray | .closeObject | .colon | .comma => none

/-- **One lexeme more.** -/
def push (b : Builder) (x : Lexeme) : Option Builder :=
  match b with
  | .value fs => pushValue fs x
  | .firstItem fs =>
    match x with
    | .closeArray => some (complete (.array []) fs)
    | _ => pushValue (.items [] :: fs) x
  | .afterItem done fs =>
    match x with
    | .comma => some (.value (.items done :: fs))
    | .closeArray => some (complete (.array done.reverse) fs)
    | _ => none
  | .firstName fs =>
    match x with
    | .closeObject => some (complete (.object []) fs)
    | .string n => some (.colon [] n fs)
    | _ => none
  | .name done fs =>
    match x with
    | .string n => some (.colon done n fs)
    | _ => none
  | .colon done n fs =>
    match x with
    | .colon => some (.value (.members done n :: fs))
    | _ => none
  | .afterMember done fs =>
    match x with
    | .comma => some (.name done fs)
    | .closeObject => some (complete (.object done.reverse) fs)
    | _ => none
  | .ready _ => none

/-- Pushes lexemes in order. -/
def pushAll (b : Builder) : List Lexeme → Option Builder
  | [] => some b
  | x :: xs => (b.push x).bind fun c => c.pushAll xs

/-- The document, once it is complete. -/
def finish : Builder → Option Json
  | .ready j => some j
  | _ => none

end Builder

/-- Reads the rest of a text, from a scanner and a builder state. -/
def readFrom (s : Scanner) (b : Builder) : List Char → Option Json
  | [] => (s.finish.bind b.pushAll).bind Builder.finish
  | c :: cs =>
    match s.next c with
    | none => none
    | some (t, xs) =>
      match b.pushAll xs with
      | none => none
      | some d => readFrom t d cs

/-- **Reading.** The document that a text holds, if it holds exactly one. -/
def parse? (text : String) : Option Json := readFrom .between (.value []) text.toList

end StickerBot.Json
