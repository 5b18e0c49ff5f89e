import StickerBot.Proofs.Json.RoundTrip
import StickerBot.Wire.Fields
set_option autoImplicit false

/-!
# Records, variants and tables are read back

What is written as a record is read field by field, a variant by its tag and then by its fields,
a list item by item and a table entry by entry. Each part of a value is read back if it is written
under its own name, and once.

## Main definitions

* `Json.Sound` — a document may be looked at twice inside so many levels of nesting.

## Main results

* `record?_eq_filter`, `record?_record` — a record is read as its fields.
* `tagged?_record` — a variant is taken apart.
* `list?_ofList_ite`, `list?_ofList`, `table?_object` — lists and tables are read back.
-/

namespace StickerBot

namespace Json

/-! ### Written documents -/

/-- A truth value can be written. -/
@[simp] lemma isWritten_bool (b : Bool) : (Json.bool b).IsWritten := by simp [IsWritten]

/-- A text can be written, whatever its characters are: they are quoted. -/
@[simp] lemma isWritten_text (s : String) : (Json.text s).IsWritten := by
  rw [text, IsWritten]
  exact ⟨s, rfl⟩

/-- A natural number can be written. -/
@[simp] lemma isWritten_nat (n : Nat) : (Json.nat n).IsWritten := by
  rw [nat, IsWritten]
  exact isNumber_nat n

/-- An integer can be written, with its sign. -/
@[simp] lemma isWritten_int (n : Int) : (Json.int n).IsWritten := by
  rw [int, IsWritten]
  exact isNumber_int n

/-- Items are written if each of them is. -/
lemma areWrittenItems_iff {js : List Json} : AreWrittenItems js ↔ ∀ j ∈ js, j.IsWritten := by
  induction js with
  | nil => simp [AreWrittenItems]
  | cons j js ih => simp [AreWrittenItems, ih]

/-- Members are written if each of them is. -/
lemma areWrittenMembers_iff {ms : List (List Char × Json)} :
    AreWrittenMembers ms ↔ ∀ m ∈ ms, (∃ s, m.1 = quote s) ∧ m.2.IsWritten := by
  induction ms with
  | nil => simp [AreWrittenMembers]
  | cons m ms ih =>
    obtain ⟨n, j⟩ := m
    simp [AreWrittenMembers, ih, and_assoc]

/-- A list is written if its items are. -/
lemma isWritten_ofList {α : Type} {write : α → Json} {xs : List α}
    (h : ∀ x ∈ xs, (write x).IsWritten) : (Json.ofList write xs).IsWritten := by
  rw [ofList, IsWritten, areWrittenItems_iff]
  intro j hj
  obtain ⟨x, hx, rfl⟩ := List.mem_map.1 hj
  exact h x hx

/-- A value that may be missing is written if it is. -/
lemma isWritten_ofOption {α : Type} {write : α → Json} {o : Option α}
    (h : ∀ x, (write x).IsWritten) : (Json.ofOption write o).IsWritten := by
  cases o with
  | none => simp [ofOption, IsWritten]
  | some x => exact h x

/-- A record is written if its fields are. -/
lemma isWritten_record {members : List (String × Json)} (h : ∀ m ∈ members, m.2.IsWritten) :
    (Json.record members).IsWritten := by
  rw [record, IsWritten, areWrittenMembers_iff]
  intro m hm
  obtain ⟨⟨name, j⟩, hmem, rfl⟩ := List.mem_map.1 hm
  exact ⟨⟨name, rfl⟩, h _ hmem⟩

/-! ### Documents that may be looked at twice -/

/-- **Sound documents** of a depth: all literals mean something, and arrays and objects are nested
no deeper. -/
structure Sound (depth : Nat) (j : Json) : Prop where
  isSound : j.isSound = true
  depth_le : j.depth ≤ depth

/-- A document that is deep enough inside is settled. -/
lemma Sound.isSettled {depth level : Nat} {j : Json} (h : j.Sound depth)
    (hlevel : depth + level ≤ Wire.maxDepth) : Wire.isSettled level j = true := by
  rw [Wire.isSettled, h.isSound, Bool.true_and, decide_eq_true_eq]
  exact Nat.le_trans (Nat.add_le_add_right h.depth_le level) hlevel

/-- The null is within every depth. -/
lemma sound_null (depth : Nat) : Json.null.Sound depth := by
  constructor <;> simp [isSound, Json.depth]

/-- A text is within every depth, and its quotation can be read. -/
lemma sound_text (depth : Nat) (s : String) : (Json.text s).Sound depth := by
  constructor <;> simp [text, isSound, Json.depth]

/-- A natural number of 64 bits is sound. -/
lemma sound_nat (depth : Nat) {n : Nat} (hn : n < UInt64.size) : (Json.nat n).Sound depth :=
  ⟨isSound_nat hn, by simp [nat, Json.depth]⟩

/-- An integer of 64 bits is sound. -/
lemma sound_int (depth : Nat) {n : Int} (hn : n.natAbs < UInt64.size) :
    (Json.int n).Sound depth :=
  ⟨isSound_int hn, by simp [int, Json.depth]⟩

/-- A word without a sign is sound. -/
lemma sound_uint32 (depth : Nat) (n : UInt32) : (Json.nat n.toNat).Sound depth :=
  sound_nat depth (Nat.lt_trans n.toNat_lt_size (by decide))

/-- A word with a sign is sound. -/
lemma sound_int32 (depth : Nat) (n : Int32) : (Json.int n.toInt).Sound depth := by
  refine sound_int depth ?_
  have hlow := n.minValue_le_toInt
  have hhigh := n.toInt_le
  have hmin : Int32.minValue.toInt = -2147483648 := rfl
  have hmax : Int32.maxValue.toInt = 2147483647 := rfl
  have hsize : UInt64.size = 18446744073709551616 := rfl
  omega

/-- A list is as sound as its items. By induction on the items, of which all have to be sound and
the deepest one decides how deep the list is, which is one level more. -/
lemma sound_ofList {α : Type} {write : α → Json} {xs : List α} {depth : Nat}
    (h : ∀ x ∈ xs, (write x).Sound depth) : (Json.ofList write xs).Sound (depth + 1) := by
  have hall : ∀ js : List Json, (∀ j ∈ js, j.Sound depth) →
      areSoundItems js = true ∧ depthItems js ≤ depth := by
    intro js hjs
    induction js with
    | nil => exact ⟨by simp [areSoundItems], by simp [depthItems]⟩
    | cons j js ih =>
      obtain ⟨hsound, hdepth⟩ := ih fun j' hj' => hjs j' (.tail _ hj')
      have hj := hjs j (.head _)
      exact ⟨by simp [areSoundItems, hj.isSound, hsound],
        by rw [depthItems]; exact Nat.max_le.2 ⟨hj.depth_le, hdepth⟩⟩
  have hitems : ∀ j ∈ xs.map write, j.Sound depth := by
    intro j hj
    obtain ⟨x, hx, rfl⟩ := List.mem_map.1 hj
    exact h x hx
  obtain ⟨hsound, hdepth⟩ := hall _ hitems
  exact ⟨by rw [ofList, isSound]; exact hsound,
    by rw [ofList, Json.depth]; exact Nat.succ_le_succ hdepth⟩

/-- A record is as sound as its fields. -/
lemma sound_record {members : List (String × Json)} {depth : Nat}
    (h : ∀ m ∈ members, m.2.Sound depth) : (Json.record members).Sound (depth + 1) := by
  have hall : areSoundMembers (members.map fun m => (quote m.1, m.2)) = true ∧
      depthMembers (members.map fun m => (quote m.1, m.2)) ≤ depth := by
    induction members with
    | nil => exact ⟨by simp [areSoundMembers], by simp [depthMembers]⟩
    | cons m members ih =>
      obtain ⟨hsound, hdepth⟩ := ih fun m' hm' => h m' (.tail _ hm')
      have hm := h m (.head _)
      refine ⟨by simp [areSoundMembers, hm.isSound, hsound], ?_⟩
      rw [List.map_cons, depthMembers]
      exact Nat.max_le.2 ⟨hm.depth_le, hdepth⟩
  exact ⟨by rw [record, isSound]; exact hall.1,
    by rw [record, Json.depth]; exact Nat.succ_le_succ hall.2⟩

/-- A text is read back from its value, since quoting can be undone. -/
@[simp] lemma text?_text (s : String) : (Json.text s).text? = some s := unquote_quote s

/-- A truth value is read back from its value. -/
@[simp] lemma bool?_bool (b : Bool) : (Json.bool b).bool? = some b := rfl

/-- What is written is not null. -/
def Present (j : Json) : Prop := j ≠ .null

/-- A text is not null, so a field that may be missing is read as present. -/
lemma present_text (s : String) : (Json.text s).Present := by simp [Present, text]

/-- A natural number is not null. -/
lemma present_nat (n : Nat) : (Json.nat n).Present := by simp [Present, nat]

/-- A record is not null. -/
lemma present_record (members : List (String × Json)) : (Json.record members).Present := by
  simp [Present, record]

end Json

/-- Tables with the same entries are the same. -/
lemma Table.eq_of_entries {α β : Type} [Ord α] {t u : Table α β} (h : t.entries = u.entries) :
    t = u := by
  obtain ⟨entries, ascending⟩ := t
  obtain ⟨entries', ascending'⟩ := u
  obtain rfl : entries = entries' := h
  rfl

namespace Wire

/-! ### Fields -/

namespace Fields

/-- There is no field in an empty record. -/
@[simp] lemma find?_nil (name : String) : Fields.find? [] name = none := rfl

/-- The field that is looked for is the first one, or it is looked for among the others. -/
@[simp] lemma find?_cons (field : String) (j : Json) (fs : Fields) (name : String) :
    Fields.find? ((field, j) :: fs) name = if field = name then some j else fs.find? name := by
  unfold find?
  rw [List.find?_cons]
  by_cases h : field = name <;> simp [h]

/-- A field is found among the first fields or among the others. -/
@[simp] lemma find?_append (fs gs : Fields) (name : String) :
    Fields.find? (fs ++ gs) name = (fs.find? name).or (gs.find? name) := by
  simp [find?, List.find?_append, Option.map_or]

/-- A field that may be left out is found if it is there. -/
@[simp] lemma find?_toList {α : Type} (field : String) (write : α → Json) (o : Option α)
    (name : String) : Fields.find? (o.map fun x => (field, write x)).toList name =
      if field = name then o.map write else none := by
  cases o with
  | none => simp
  | some x => simp

/-- A field is found under its name exactly if there is one of this name. -/
lemma isSome_find?_iff (fs : Fields) (name : String) :
    (fs.find? name).isSome = true ↔ name ∈ fs.map Prod.fst := by
  unfold find?
  rw [Option.isSome_map, List.find?_isSome]
  simp

section Optional

variable {α : Type} {fs : Fields} {name : String} {read : Json → Option α} (write : α → Json)
  (o : Option α) (hwrite : ∀ x, (write x).Present) (hread : ∀ x ∈ o, read (write x) = some x)
include hwrite hread

/-- A field that may be missing, but is written as null then. What is written for a value is never
null, which is what the null is told apart by. -/
lemma optional_ofOption (hfind : fs.find? name = some (Json.ofOption write o)) :
    fs.optional name read = some o := by
  unfold optional
  rw [hfind]
  cases o with
  | none => rfl
  | some x =>
    have hpresent := hwrite x
    rw [Json.ofOption]
    split
    · next h => exact absurd h (by simp)
    · next h => exact absurd (Option.some.inj h) hpresent
    · next j _ h =>
      obtain rfl := Option.some.inj h
      rw [hread x rfl]
      rfl

/-- A field that is left out if there is nothing to write. -/
lemma optional_map (hfind : fs.find? name = o.map write) : fs.optional name read = some o := by
  cases o with
  | none =>
    unfold optional
    rw [hfind]
    rfl
  | some x => exact optional_ofOption write (some x) hwrite hread hfind

end Optional

end Fields

/-! ### Records -/

/-- Members under different names are collected in order, and those that are no fields are passed
over. By induction on the members, with those found so far as parameter: a name that is new is
added, since no name stands there twice. -/
lemma collect_eq (names : List String) (members : List (String × Json)) : ∀ found : Fields,
    ((found ++ members).map Prod.fst).Nodup →
      collect names found (members.map fun m => (Json.quote m.1, m.2)) =
        some (found.reverse ++ members.filter fun m => m.1 ∈ names) := by
  induction members with
  | nil =>
    intro found _
    rw [List.map_nil, collect, List.filter_nil, List.append_nil]
  | cons m members ih =>
    intro found hnodup
    rw [List.map_cons, collect, Json.unquote_quote]
    dsimp only
    by_cases hname : m.1 ∈ names
    · have hnew : (found.find? m.1).isSome = false := by
        rw [Bool.eq_false_iff, Ne, Fields.isSome_find?_iff]
        intro hold
        rw [List.map_append, List.nodup_append] at hnodup
        exact hnodup.2.2 m.1 hold m.1 (List.mem_map.2 ⟨m, .head _, rfl⟩) rfl
      have hrest : (((m :: found) ++ members).map Prod.fst).Nodup := by
        refine (List.Perm.nodup_iff ?_).1 hnodup
        exact (List.perm_middle).map Prod.fst
      rw [if_pos hname, hnew, if_neg Bool.false_ne_true, ih (m :: found) hrest,
        List.filter_cons_of_pos (by simpa using hname)]
      simp
    · have hrest : ((found ++ members).map Prod.fst).Nodup := by
        refine hnodup.sublist (List.Sublist.map Prod.fst ?_)
        exact (List.sublist_cons_self m members).append_left found
      rw [if_neg hname, ih found hrest, List.filter_cons_of_neg (by simpa using hname)]

/-- **Fields** are read among members that are no fields. -/
theorem record?_eq_filter (names : List String) {members : List (String × Json)}
    (hnodup : (members.map Prod.fst).Nodup) :
    record? names (.record members) = some (members.filter fun m => m.1 ∈ names) := by
  rw [Json.record, record?, collect_eq names members [] hnodup]
  rfl

/-- **Records** are read as their fields. -/
@[simp] theorem record?_record {names : List String} {members : List (String × Json)}
    (hnames : ∀ m ∈ members, m.1 ∈ names) (hnodup : (members.map Prod.fst).Nodup) :
    record? names (.record members) = some members := by
  have hall : (members.filter fun m => m.1 ∈ names) = members :=
    List.filter_eq_self.2 fun m hm => decide_eq_true (hnames m hm)
  rw [record?_eq_filter names hnodup, hall]

/-! ### Variants -/

/-- **Variants** are taken apart: the tag, and the fields. -/
@[simp] theorem tagged?_record {tag : String} {j : Json} {members : List (String × Json)}
    (htag : tag ∉ members.map Prod.fst) :
    tagged? tag (.record ((tag, j) :: members)) = some (j, .record members) := by
  have hnone : ((members.map fun m => (Json.quote m.1, m.2)).any fun m =>
      Json.unquote m.1 = some tag) = false := by
    rw [List.any_eq_false]
    intro m hm
    obtain ⟨m', hm', rfl⟩ := List.mem_map.1 hm
    rw [Json.unquote_quote, decide_eq_true_eq, Option.some.injEq]
    rintro rfl
    exact htag (List.mem_map.2 ⟨m', hm', rfl⟩)
  rw [Json.record, List.map_cons, tagged?, takeMember?, Json.unquote_quote, if_pos rfl, hnone]
  rfl

/-- A tag is read as its name. -/
@[simp] lemma tagName?_text {inside : Bool} {names : List String} {name : String}
    (h : name ∈ names) : tagName? inside names (.text name) = some name := by
  rw [Json.text, tagName?, Json.unquote_quote, Option.bind_some, if_pos h]

/-- A variant without fields is read as its name. -/
@[simp] lemma name?_text {inside : Bool} {names : List String} {name : String}
    (h : name ∈ names) : name? inside names (.text name) = some name := by
  rw [Json.text, name?, Json.unquote_quote, Option.bind_some, if_pos h]

/-- There is nothing after the tag of a record that is left over. -/
@[simp] lemma isEmptyVariant_record (members : List (String × Json)) :
    isEmptyVariant (.record members) = true := rfl

/-! ### Lists and tables -/

/-- What is written item by item is read item by item, if every item can be read. -/
lemma mapM_map_ite {α β : Type} {write : α → β} {read : β → Option α} {p : α → Bool} {xs : List α}
    (h : ∀ x ∈ xs, read (write x) = if p x then some x else none) :
    (xs.map write).mapM read = if xs.all p then some xs else none := by
  induction xs with
  | nil => rfl
  | cons x xs ih =>
    rw [List.map_cons, List.mapM_cons, h x (.head _), ih fun y hy => h y (.tail _ hy),
      List.all_cons]
    cases p x <;> cases xs.all p <;> rfl

/-- What is written item by item is read item by item. -/
lemma mapM_map {α β : Type} {write : α → β} {read : β → Option α} {xs : List α}
    (h : ∀ x ∈ xs, read (write x) = some x) : (xs.map write).mapM read = some xs := by
  have hall := mapM_map_ite (p := fun _ => true) h
  simpa using hall

/-- A list is read if every item can be read. -/
theorem list?_ofList_ite {α : Type} {write : α → Json} {read : Json → Option α} {p : α → Bool}
    {xs : List α} (h : ∀ x ∈ xs, read (write x) = if p x then some x else none) :
    list? read (.ofList write xs) = if xs.all p then some xs else none := by
  rw [Json.ofList, list?]
  exact mapM_map_ite h

/-- **Lists** are read back. -/
theorem list?_ofList {α : Type} {write : α → Json} {read : Json → Option α} {xs : List α}
    (h : ∀ x ∈ xs, read (write x) = some x) : list? read (.ofList write xs) = some xs := by
  rw [Json.ofList, list?]
  exact mapM_map h

/-- **Tables** are read back, key by key. -/
theorem table?_object {α β : Type} [Ord α] [Std.TransOrd α] [Std.LawfulEqOrd α]
    (key : List Char → Option α) (writeKey : α → List Char) {read : Json → Option β}
    {write : β → Json} (t : Table α β) (hkey : ∀ k, key (writeKey k) = some k)
    (hread : ∀ e ∈ t.entries, read (write e.2) = some e.2) :
    table? key read (.object (t.entries.map fun e => (writeKey e.1, write e.2))) = some t := by
  have hentries : (t.entries.map fun e => (writeKey e.1, write e.2)).mapM
      (fun m => (key m.1).bind fun k => (read m.2).map fun v => (k, v)) = some t.entries := by
    refine mapM_map fun e he => ?_
    rw [hkey, Option.bind_some, hread e he]
    rfl
  rw [table?, hentries, Option.map_some, Table.eq_of_entries (Table.entries_ofList t.ascending)]

/-- A number below a bound is read back from its digits. -/
lemma decimalKey?_digits {n bound : Nat} (h : n < bound) :
    decimalKey? bound (toString n).toList = some n := by
  rw [Nat.toString_eq_repr, Nat.toList_repr, decimalKey?]
  simp [h]

/-! ### Numbers -/

/-- A number of 16 bits is read back from its value. -/
@[simp] lemma uint16?_nat (n : UInt16) : uint16? (.nat n.toNat) = some n := by
  rw [uint16?, Json.natBelow?_nat n.toNat_lt_size, Option.map_some, UInt16.ofNat_toNat]

/-- A number of 32 bits is read back from its value. -/
@[simp] lemma uint32?_nat (n : UInt32) : uint32? (.nat n.toNat) = some n := by
  rw [uint32?, Json.int?_nat, Option.bind_some, Word.uint32?_toNat]

/-- A signed number of 32 bits is read back from its value. -/
@[simp] lemma int32?_int (n : Int32) : int32? (.int n.toInt) = some n := by
  rw [int32?, Json.int?_int, Option.bind_some, Word.int32?_toInt]

end Wire

end StickerBot
