import StickerBot.Json.Literal
import StickerBot.Table
import StickerBot.Word
set_option autoImplicit false

/-!
# Records and variants in JSON

A record is an object with a member per field, or an array of all its fields in order. A
variant that has fields is told apart by a tag, which is one more member of the object or the
first item of the array. A variant without fields is its name.

Members that are no field are passed over. A field that occurs twice is refused.

## Main definitions

* `Wire.record?` — the fields of a record.
* `Wire.Fields.required`, `Wire.Fields.optional`, `Wire.Fields.defaulted` — the value of a
  field.
* `Wire.tagged?` — the tag of a variant, and the rest of the document.
* `Wire.name?` — a variant without fields.
* `Wire.table?` — a table whose keys are the names of an object.

## Design

A tagged document is looked at twice, first for its tag and then for its fields, so all of it
must be sound and not nested too deep, also what is passed over. Inside it, a tag may also be
given by its number, and a variant without fields may hold an empty object.
-/

namespace StickerBot.Wire

/-- How deep a document may be nested that is looked at twice. -/
def maxDepth : Nat := 127

/-- **Settledness.** Whether a document at a level of nesting may be looked at twice: it is
sound and not nested too deep. -/
def isSettled (level : Nat) (j : Json) : Bool := j.isSound && decide (j.depth + level ≤ maxDepth)

/-- **Fields.** The fields that were found, by name. -/
abbrev Fields := List (String × Json)

namespace Fields

/-- The document of a field. -/
def find? (fs : Fields) (name : String) : Option Json :=
  (List.find? (fun f => f.1 = name) fs).map Prod.snd

/-- A field that must be there. -/
def required {α : Type} (fs : Fields) (name : String) (read : Json → Option α) : Option α :=
  (fs.find? name).bind read

/-- A field that may be missing or null. -/
def optional {α : Type} (fs : Fields) (name : String) (read : Json → Option α) :
    Option (Option α) :=
  match fs.find? name with
  | none | some .null => some none
  | some j => (read j).map some

/-- A field that has a value also when it is missing. -/
def defaulted {α : Type} (fs : Fields) (name : String) (read : Json → Option α) (a : α) :
    Option α :=
  match fs.find? name with
  | none => some a
  | some j => read j

end Fields

/-- Collects the members that are fields. -/
def collect (names : List String) (found : Fields) : List (List Char × Json) → Option Fields
  | [] => some found.reverse
  | (n, j) :: ms =>
    match Json.unquote n with
    | none => none
    | some name =>
      if name ∈ names then
        if (found.find? name).isSome then none else collect names ((name, j) :: found) ms
      else collect names found ms

/-- **Record.** The fields of a record: an object, or an array of all fields in order. -/
def record? (names : List String) : Json → Option Fields
  | .object ms => collect names [] ms
  | .array js => if js.length = names.length then some (names.zip js) else none
  | _ => none

/-- The fields of a record in which all fields have a value also when they are missing; an
array may end early. -/
def partialRecord? (names : List String) : Json → Option Fields
  | .object ms => collect names [] ms
  | .array js => if js.length ≤ names.length then some (names.zip js) else none
  | _ => none

/-- Takes the member of a name out of an object. There must be exactly one. -/
def takeMember? (name : String) (before : List (List Char × Json)) :
    List (List Char × Json) → Option (Json × List (List Char × Json))
  | [] => none
  | (n, j) :: ms =>
    if Json.unquote n = some name then
      if ms.any fun m => Json.unquote m.1 = some name then none
      else some (j, before.reverse ++ ms)
    else takeMember? name ((n, j) :: before) ms

/-- **Tagged document.** The tag, and the document without it. -/
def tagged? (tag : String) : Json → Option (Json × Json)
  | .object ms => (takeMember? tag [] ms).map fun r => (r.1, .object r.2)
  | .array (j :: js) => some (j, .array js)
  | _ => none

/-- The name that a tag gives. Inside a document that is looked at twice it may also be given
by its number. -/
def tagName? (inside : Bool) (names : List String) : Json → Option String
  | .string l => (Json.unquote l).bind fun s => if s ∈ names then some s else none
  | .number l =>
    if inside then (Json.natBelow? names.length (.number l)).bind fun i => names[i]? else none
  | _ => none

/-- Whether what follows the tag of a variant without fields is nothing: any object, or an
empty array. -/
def isEmptyVariant : Json → Bool
  | .object _ => true
  | .array js => js.isEmpty
  | _ => false

/-- Whether the document under the name of a variant without fields is nothing. -/
def isUnit (inside : Bool) : Json → Bool
  | .null => true
  | .object ms => inside && ms.isEmpty
  | _ => false

/-- **Name.** A variant without fields: its name, or an object with its name and nothing
under it. -/
def name? (inside : Bool) (names : List String) : Json → Option String
  | .string l => (Json.unquote l).bind fun s => if s ∈ names then some s else none
  | .object [(n, j)] =>
    (Json.unquote n).bind fun s => if s ∈ names ∧ isUnit inside j then some s else none
  | _ => none

/-- A list, item by item. -/
def list? {α : Type} (read : Json → Option α) : Json → Option (List α)
  | .array js => js.mapM read
  | _ => none

/-- A number that is written in the one way numbers below a bound are written. -/
def decimalKey? (bound : Nat) (key : List Char) : Option Nat :=
  let n := Nat.ofDigitChars 10 key 0
  if Nat.toDigits 10 n = key ∧ n < bound then some n else none

/-- **Table.** The members of an object as entries. Of two with the same key the later
stays. -/
def table? {α β : Type} [Ord α] [Std.TransOrd α] [Std.LawfulEqOrd α]
    (key : List Char → Option α) (read : Json → Option β) : Json → Option (Table α β)
  | .object ms =>
    (ms.mapM fun m => (key m.1).bind fun k => (read m.2).map fun v => (k, v)).map Table.ofList
  | _ => none

/-! ### Numbers -/

/-- A number of 16 bits. -/
def uint16? (j : Json) : Option UInt16 := (j.natBelow? UInt16.size).map UInt16.ofNat

/-- A number of 32 bits. -/
def uint32? (j : Json) : Option UInt32 := j.int?.bind Word.uint32?

/-- A number of 32 bits with a sign. -/
def int32? (j : Json) : Option Int32 := j.int?.bind Word.int32?

/-- A natural number of 32 bits. -/
def nat32? (j : Json) : Option Nat := j.natBelow? UInt32.size

/-- A natural number of 64 bits. -/
def nat64? (j : Json) : Option Nat := j.natBelow? UInt64.size

end StickerBot.Wire
