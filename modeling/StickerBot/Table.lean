set_option autoImplicit false

/-!
# Tables: finite maps with ascending keys

A finite map is kept as the list of its entries in strictly ascending order of keys. The
order is part of the type, so two tables with the same entries are equal and the order in
which a table was filled leaves no trace.

## Main definitions

* `Table` — entries in strictly ascending order of keys.
* `Table.insert` — adds an entry, replacing one of the same key.
* `Table.get?` — the value under a key.

## Main results

* `Table.get?_insert_self` — what was inserted is found.
* `Table.get?_insert_of_ne` — an insertion touches no other key.
* `Table.entries_ofList` — entries with ascending keys make the table of these entries.
-/

namespace StickerBot

/-- **A table.** A finite map whose entries stand in strictly ascending order of keys. -/
structure Table (α β : Type) [Ord α] where
  /-- The entries, by ascending key. -/
  entries : List (α × β)
  /-- Every key is smaller than all keys after it. -/
  ascending : entries.Pairwise (fun a b => compare a.1 b.1 = .lt)

namespace Table

variable {α β : Type} [Ord α]

/-- Tables can be compared, entry by entry. -/
instance [DecidableEq α] [DecidableEq β] : DecidableEq (Table α β) := fun s t =>
  if h : s.entries = t.entries then
    .isTrue (by cases s; cases t; cases h; rfl)
  else .isFalse (fun e => h (congrArg entries e))

/-- The table without entries. -/
def empty : Table α β := ⟨[], .nil⟩

/-- There is a table, the empty one. -/
instance : Inhabited (Table α β) := ⟨empty⟩

/-- Puts an entry in its place in a list of ascending keys. -/
def insertEntry (k : α) (v : β) : List (α × β) → List (α × β)
  | [] => [(k, v)]
  | e :: es =>
    match compare k e.1 with
    | .lt => (k, v) :: e :: es
    | .eq => (k, v) :: es
    | .gt => e :: insertEntry k v es

/-- Every entry after an insertion is the new one or an old one. By induction on the entries; the
entry with the same key is the only one that can be lost. -/
theorem mem_insertEntry {k : α} {v : β} {es : List (α × β)} {e : α × β}
    (h : e ∈ insertEntry k v es) : e = (k, v) ∨ e ∈ es := by
  induction es with
  | nil => simpa [insertEntry] using h
  | cons x xs ih =>
    unfold insertEntry at h
    split at h
    · simpa using h
    · rcases List.mem_cons.1 h with h | h
      · exact .inl h
      · exact .inr (List.mem_cons_of_mem _ h)
    · rcases List.mem_cons.1 h with h | h
      · exact .inr (h ▸ List.mem_cons_self)
      · rcases ih h with h | h
        · exact .inl h
        · exact .inr (List.mem_cons_of_mem _ h)

/-- Inserting keeps the keys ascending. By induction on the entries: the new entry is put in front
of the first one with a greater key, or takes the place of the one with the same key. -/
theorem ascending_insertEntry [Std.TransOrd α] [Std.LawfulEqOrd α] (k : α) (v : β)
    {es : List (α × β)} (h : es.Pairwise (fun a b => compare a.1 b.1 = .lt)) :
    (insertEntry k v es).Pairwise (fun a b => compare a.1 b.1 = .lt) := by
  induction es with
  | nil => simp [insertEntry]
  | cons x xs ih =>
    have hx := List.pairwise_cons.1 h
    unfold insertEntry
    split
    · rename_i hlt
      refine List.pairwise_cons.2 ⟨fun y hy => ?_, h⟩
      rcases List.mem_cons.1 hy with rfl | hy
      · exact hlt
      · exact Std.TransCmp.lt_trans hlt (hx.1 y hy)
    · rename_i heq
      have hk : k = x.1 := Std.LawfulEqCmp.eq_of_compare heq
      exact List.pairwise_cons.2 ⟨fun y hy => hk ▸ hx.1 y hy, hx.2⟩
    · rename_i hgt
      refine List.pairwise_cons.2 ⟨fun y hy => ?_, ih hx.2⟩
      rcases mem_insertEntry hy with rfl | hy
      · exact Std.OrientedCmp.lt_of_gt hgt
      · exact hx.1 y hy

/-- **Insertion.** The table with one entry added, or replaced if its key was there. -/
def insert [Std.TransOrd α] [Std.LawfulEqOrd α] (t : Table α β) (k : α) (v : β) : Table α β :=
  ⟨insertEntry k v t.entries, ascending_insertEntry k v t.ascending⟩

/-- The value under a key. -/
def get? (t : Table α β) (k : α) : Option β :=
  (t.entries.find? (fun e => compare k e.1 == .eq)).map Prod.snd

/-- Whether a key has a value. -/
def contains (t : Table α β) (k : α) : Bool := (t.get? k).isSome

/-- How many entries there are. -/
def size (t : Table α β) : Nat := t.entries.length

/-- Whether there is no entry. -/
def isEmpty (t : Table α β) : Bool := t.entries.isEmpty

/-- The values, by ascending key. -/
def values (t : Table α β) : List β := t.entries.map Prod.snd

/-- The table of a list of entries; of two entries with one key the later stays. -/
def ofList [Std.TransOrd α] [Std.LawfulEqOrd α] (es : List (α × β)) : Table α β :=
  es.foldl (fun t e => t.insert e.1 e.2) empty

/-- What was inserted is found. -/
@[simp] theorem get?_insert_self [Std.TransOrd α] [Std.LawfulEqOrd α] (t : Table α β) (k : α)
    (v : β) : (t.insert k v).get? k = some v := by
  obtain ⟨es, h⟩ := t
  simp only [insert, get?]
  clear h
  induction es with
  | nil => simp [insertEntry, Std.ReflCmp.compare_self]
  | cons x xs ih =>
    unfold insertEntry
    split
    · simp [Std.ReflCmp.compare_self]
    · simp [Std.ReflCmp.compare_self]
    · rename_i hgt
      simpa [hgt] using ih

/-- An insertion touches no other key. By induction on the entries: the new entry is passed over
when the other key is looked for, and so is the entry whose place it takes. -/
theorem get?_insert_of_ne [Std.TransOrd α] [Std.LawfulEqOrd α] (t : Table α β) {k l : α}
    (v : β) (h : l ≠ k) : (t.insert k v).get? l = t.get? l := by
  obtain ⟨es, ha⟩ := t
  simp only [insert, get?]
  clear ha
  have hne : compare l k ≠ .eq := fun e => h (Std.LawfulEqCmp.eq_of_compare e)
  induction es with
  | nil => simp [insertEntry, hne]
  | cons x xs ih =>
    unfold insertEntry
    split
    · simp [List.find?_cons, hne]
    · rename_i heq
      have hk : k = x.1 := Std.LawfulEqCmp.eq_of_compare heq
      have hx : compare l x.1 ≠ .eq := hk ▸ hne
      simp [hne, hx]
    · by_cases hx : compare l x.1 = .eq
      · simp [hx]
      · simpa [List.find?_cons, hx] using ih

/-- An entry whose key is greater than all others comes last. -/
theorem insertEntry_of_forall_lt [Std.OrientedOrd α] {k : α} (v : β) {es : List (α × β)}
    (h : ∀ e ∈ es, compare e.1 k = .lt) : insertEntry k v es = es ++ [(k, v)] := by
  induction es with
  | nil => rfl
  | cons x xs ih =>
    have hgt : compare k x.1 = .gt := Std.OrientedCmp.gt_of_lt (h x List.mem_cons_self)
    rw [insertEntry, hgt, List.cons_append, ← ih fun e he => h e (List.mem_cons_of_mem _ he)]

/-- Entries with ascending keys behind those of a table are added at its end. -/
theorem entries_foldl_insert [Std.TransOrd α] [Std.LawfulEqOrd α] (es : List (α × β)) :
    ∀ t : Table α β, (t.entries ++ es).Pairwise (fun a b => compare a.1 b.1 = .lt) →
      (es.foldl (fun t e => t.insert e.1 e.2) t).entries = t.entries ++ es := by
  induction es with
  | nil => exact fun t _ => (List.append_nil _).symm
  | cons e es ih =>
    intro t h
    have hlast : (t.insert e.1 e.2).entries = t.entries ++ [e] :=
      insertEntry_of_forall_lt e.2 fun x hx =>
        (List.pairwise_append.1 h).2.2 x hx e List.mem_cons_self
    have hsplit : t.entries ++ e :: es = (t.insert e.1 e.2).entries ++ es := by
      rw [hlast, List.append_assoc, List.singleton_append]
    rw [hsplit] at h ⊢
    exact ih _ h

/-- A table is filled in the order of its keys as it is written down. -/
theorem entries_ofList [Std.TransOrd α] [Std.LawfulEqOrd α] {es : List (α × β)}
    (h : es.Pairwise (fun a b => compare a.1 b.1 = .lt)) : (ofList es).entries = es :=
  entries_foldl_insert es empty h

/-- An entry is found under its key. -/
theorem get?_of_mem_entries [Std.OrientedOrd α] (t : Table α β) {k : α} {v : β}
    (h : (k, v) ∈ t.entries) : t.get? k = some v := by
  obtain ⟨es, ha⟩ := t
  simp only [get?] at h ⊢
  induction es with
  | nil => exact absurd h List.not_mem_nil
  | cons x xs ih =>
    obtain ⟨hx, hxs⟩ := List.pairwise_cons.1 ha
    rcases List.mem_cons.1 h with rfl | h
    · simp [Std.ReflCmp.compare_self]
    · have hgt : compare k x.1 = .gt := Std.OrientedCmp.gt_of_lt (hx _ h)
      rw [List.find?_cons_of_neg (by simp [hgt])]
      exact ih hxs h

end Table

end StickerBot
