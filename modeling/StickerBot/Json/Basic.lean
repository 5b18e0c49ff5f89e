set_option autoImplicit false

/-!
# JSON documents

A document keeps its strings, names and numbers as they are written. What a literal means is
asked for separately, because a literal can be well formed and still mean nothing: an escape
may name half of a surrogate pair, and a number may lie beyond every double.

## Main definitions

* `Json` — a document.
* `Json.quote` — the inside of the string literal of a text.
* `Json.text` — the string document of a text.
* `Json.nat`, `Json.int` — the number documents of integers.
* `Json.depth` — how deep arrays and objects are nested.
-/

namespace StickerBot

/-- **A JSON document.** Literals are kept as written. -/
inductive Json where
  | null
  | bool (value : Bool)
  /-- A number, as written. -/
  | number (literal : List Char)
  /-- A string, as written between its quotes. -/
  | string (literal : List Char)
  | array (items : List Json)
  /-- The members in order, each name as written between its quotes. -/
  | object (members : List (List Char × Json))
deriving Repr, Inhabited

namespace Json

/-- A hexadecimal digit. -/
def hexDigit (n : Nat) : Char := n.digitChar

/-- The characters that stand for one character inside a string literal: quote and
backslash after a backslash, control characters by a letter or by four hexadecimal digits,
all else by itself. -/
def quoteChar (c : Char) : List Char :=
  if c = '"' then ['\\', '"']
  else if c = '\\' then ['\\', '\\']
  else if c = '\n' then ['\\', 'n']
  else if c = '\t' then ['\\', 't']
  else if c = '\r' then ['\\', 'r']
  else if c = '\x08' then ['\\', 'b']
  else if c = '\x0c' then ['\\', 'f']
  else if c.toNat < 32 then
    ['\\', 'u', '0', '0', hexDigit (c.toNat / 16), hexDigit (c.toNat % 16)]
  else [c]

/-- The inside of the string literal of a text. -/
def quote (text : String) : List Char := text.toList.flatMap quoteChar

/-- The string document of a text. -/
def text (s : String) : Json := .string (quote s)

/-- The number document of a natural number. -/
def nat (n : Nat) : Json := .number (toString n).toList

/-- The number document of an integer. -/
def int (n : Int) : Json := .number (toString n).toList

/-- The document of a value that may be missing. -/
def ofOption {α : Type} (write : α → Json) : Option α → Json
  | none => .null
  | some a => write a

/-- An array with one item per element of a list. -/
def ofList {α : Type} (write : α → Json) (xs : List α) : Json := .array (xs.map write)

/-- An object whose names are written as given texts. -/
def record (members : List (String × Json)) : Json :=
  .object (members.map fun m => (quote m.1, m.2))

mutual

/-- How many arrays and objects lie around the innermost part of a document. -/
def depth : Json → Nat
  | .array items => depthItems items + 1
  | .object members => depthMembers members + 1
  | .null | .bool _ | .number _ | .string _ => 0

/-- The greatest depth of the items of an array. -/
def depthItems : List Json → Nat
  | [] => 0
  | j :: js => max (depth j) (depthItems js)

/-- The greatest depth of the members of an object. -/
def depthMembers : List (List Char × Json) → Nat
  | [] => 0
  | (_, j) :: ms => max (depth j) (depthMembers ms)

end

end Json

end StickerBot
