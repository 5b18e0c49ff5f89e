import StickerBot.Json.Basic
set_option autoImplicit false

/-!
# Writing JSON

Two layouts of a document: the compact one has no blanks at all, the indented one puts every
item and member on its own line, two blanks deeper than the brackets around it.

## Main definitions

* `Json.compact` — the text without blanks.
* `Json.indented` — the text with one item or member per line.
-/

namespace StickerBot.Json

mutual

/-- The compact text of a document, in front of a given text. -/
def write : Json → List Char → List Char
  | .null, r => 'n' :: 'u' :: 'l' :: 'l' :: r
  | .bool true, r => 't' :: 'r' :: 'u' :: 'e' :: r
  | .bool false, r => 'f' :: 'a' :: 'l' :: 's' :: 'e' :: r
  | .number l, r => l ++ r
  | .string l, r => '"' :: (l ++ '"' :: r)
  | .array [], r => '[' :: ']' :: r
  | .array (j :: js), r => '[' :: write j (writeItems js (']' :: r))
  | .object [], r => '{' :: '}' :: r
  | .object ((n, j) :: ms), r =>
    '{' :: '"' :: (n ++ '"' :: ':' :: write j (writeMembers ms ('}' :: r)))

/-- The further items of an array, each after a comma. -/
def writeItems : List Json → List Char → List Char
  | [], r => r
  | j :: js, r => ',' :: write j (writeItems js r)

/-- The further members of an object, each after a comma. -/
def writeMembers : List (List Char × Json) → List Char → List Char
  | [], r => r
  | (n, j) :: ms, r => ',' :: '"' :: (n ++ '"' :: ':' :: write j (writeMembers ms r))

end

/-- **Compact text.** The document without blanks. -/
def compact (j : Json) : String := String.ofList (j.write [])

/-- A line break and the blanks of a nesting level. -/
def newline (level : Nat) (r : List Char) : List Char :=
  '\n' :: (List.replicate (2 * level) ' ' ++ r)

mutual

/-- The indented text of a document at a nesting level, in front of a given text. -/
def indent (level : Nat) : Json → List Char → List Char
  | .null, r => 'n' :: 'u' :: 'l' :: 'l' :: r
  | .bool true, r => 't' :: 'r' :: 'u' :: 'e' :: r
  | .bool false, r => 'f' :: 'a' :: 'l' :: 's' :: 'e' :: r
  | .number l, r => l ++ r
  | .string l, r => '"' :: (l ++ '"' :: r)
  | .array [], r => '[' :: ']' :: r
  | .array (j :: js), r =>
    '[' :: newline (level + 1)
      (indent (level + 1) j (indentItems (level + 1) js (newline level (']' :: r))))
  | .object [], r => '{' :: '}' :: r
  | .object ((n, j) :: ms), r =>
    '{' :: newline (level + 1) ('"' :: (n ++ '"' :: ':' :: ' ' ::
      indent (level + 1) j (indentMembers (level + 1) ms (newline level ('}' :: r)))))

/-- The further items of an array, each on a line of its own. -/
def indentItems (level : Nat) : List Json → List Char → List Char
  | [], r => r
  | j :: js, r => ',' :: newline level (indent level j (indentItems level js r))

/-- The further members of an object, each on a line of its own. -/
def indentMembers (level : Nat) : List (List Char × Json) → List Char → List Char
  | [], r => r
  | (n, j) :: ms, r =>
    ',' :: newline level ('"' :: (n ++ '"' :: ':' :: ' ' ::
      indent level j (indentMembers level ms r)))

end

/-- **Indented text.** The document with one item or member per line. -/
def indented (j : Json) : String := String.ofList (j.indent 0 [])

end StickerBot.Json
