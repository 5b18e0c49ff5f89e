import StickerBot.Proofs.Json.Singles
import StickerBot.Proofs.Leaves
import StickerBot.Proofs.Wire.Records
set_option autoImplicit false

/-!
# Which catalogs can be saved

A catalog holds templates without fault, each under its own code, and refuses all others. Its text
is read back as the same catalog exactly if its connectors lie at finite places: an offset that is
infinite, as a number beyond all singles is read, is written as null, and null is no number. Radii
are asked to be finite before a template is taken in, offsets are not.

## Main definitions

* `Catalog.offer` — the catalog after a template was offered to it, and why it was refused.
* `Catalog.IsChecked` — templates without fault, each under its own code.
* `Catalog.isPlaced` — all connectors lie at finite places.
* `Catalog.Survives` — the finite singles of a catalog survive writing and reading.

## Main results

* `Catalog.IsMade.isChecked` — every catalog is checked.
* `Catalog.insertAll_toList` — the templates of a checked catalog make the same catalog again.
* `Template.ofJson?_toJson` — a template is read back if its connectors lie at finite places.
* `Catalog.save_and_load` — what becomes of a catalog that is saved and loaded.

## Design

Reading back what was written is stated with `if`, level by level, so that one chain of lemmas
tells which catalogs are read back and that all others are refused.
-/

namespace StickerBot

/-! ### Insertion -/

namespace Catalog

/-- **Offering.** The catalog after a template was offered to it, and why it was refused, if it
was. -/
def offer (c : Catalog) (t : Template) : Catalog × Option CatalogError :=
  match c.insert t with
  | .ok d => (d, none)
  | .error e => (c, some e)

/-- **Checked catalogs.** The templates have no fault, and each stands under its own code. -/
def IsChecked (c : Catalog) : Prop :=
  ∀ e ∈ c.templates.entries, e.2.code = e.1 ∧ e.2.fault? = none

/-- What is taken in has no fault. -/
lemma of_insert_eq_ok {c d : Catalog} {t : Template} (h : c.insert t = .ok d) :
    t.fault? = none ∧ c.templates.contains t.code = false ∧
      d = ⟨c.templates.insert t.code t⟩ := by
  unfold insert at h
  split at h
  · cases h
  · next hfault =>
    split at h
    · cases h
    · next hnew => exact ⟨hfault, Bool.eq_false_iff.2 hnew, (Except.ok.inj h).symm⟩

/-- Taking in a template keeps a catalog checked. -/
lemma IsChecked.insert {c d : Catalog} {t : Template} (h : c.IsChecked)
    (hinsert : c.insert t = .ok d) : d.IsChecked := by
  obtain ⟨hfault, -, rfl⟩ := of_insert_eq_ok hinsert
  intro e he
  rcases Table.mem_insertEntry he with rfl | he
  · exact ⟨rfl, hfault⟩
  · exact h e he

/-- The templates of a checked catalog have no fault. -/
lemma IsChecked.fault? {c : Catalog} (h : c.IsChecked) : ∀ t ∈ c.toList, t.fault? = none := by
  intro t ht
  obtain ⟨e, he, rfl⟩ := List.mem_map.1 ht
  exact (h e he).2

/-- The standard sheet is checked. -/
lemma isChecked_standard : standard.IsChecked := by
  have hall : standard.templates.entries.all (fun e => e.2.code = e.1 ∧ e.2.fault? = none) =
      true := by decide +kernel
  intro e he
  simpa using List.all_eq_true.1 hall e he

/-- **Catalogs** are checked, however they were made. -/
theorem IsMade.isChecked {c : Catalog} (h : c.IsMade) : c.IsChecked := by
  induction h with
  | empty => exact fun e he => nomatch he
  | standard => exact isChecked_standard
  | insert _ hinsert ih => exact ih.insert hinsert

/-- A template whose code is greater than all others is taken in at the end. -/
lemma insert_eq_ok {c : Catalog} {t : Template} (hfault : t.fault? = none)
    (hlast : ∀ e ∈ c.templates.entries, compare e.1 t.code = .lt) :
    ∃ d, c.insert t = .ok d ∧ d.templates.entries = c.templates.entries ++ [(t.code, t)] := by
  have hnew : c.templates.contains t.code = false := by
    rw [Bool.eq_false_iff, Table.contains, Table.get?, Option.isSome_map, Ne, List.find?_isSome]
    rintro ⟨e, he, hsame⟩
    rw [Std.OrientedCmp.gt_of_lt (hlast e he)] at hsame
    exact absurd hsame (by decide)
  refine ⟨⟨c.templates.insert t.code t⟩, ?_, Table.insertEntry_of_forall_lt t hlast⟩
  rw [insert, hfault, hnew]
  rfl

/-- Templates in the order of their codes are taken in one behind the other. By induction on the
templates: each has a code that is greater than all codes so far, and goes to the end of the
entries. -/
lemma insertAll_eq_ok (ts : List Template) : ∀ c : Catalog, (∀ t ∈ ts, t.fault? = none) →
    (c.templates.entries ++ ts.map fun t => (t.code, t)).Pairwise
      (fun a b => compare a.1 b.1 = .lt) →
      ∃ d, c.insertAll ts = .ok d ∧
        d.templates.entries = c.templates.entries ++ ts.map fun t => (t.code, t) := by
  induction ts with
  | nil => exact fun c _ _ => ⟨c, rfl, (List.append_nil _).symm⟩
  | cons t ts ih =>
    intro c hfault hascending
    have hlast : ∀ e ∈ c.templates.entries, compare e.1 t.code = .lt := fun e he =>
      (List.pairwise_append.1 hascending).2.2 e he (t.code, t) (.head _)
    obtain ⟨c', hinsert, hentries⟩ := insert_eq_ok (hfault t (.head _)) hlast
    have hrest : c.templates.entries ++ (t :: ts).map (fun t => (t.code, t)) =
        c'.templates.entries ++ ts.map fun t => (t.code, t) := by
      rw [hentries, List.append_assoc]
      rfl
    rw [hrest] at hascending ⊢
    obtain ⟨d, hall, hd⟩ := ih c' (fun t' ht' => hfault t' (.tail _ ht')) hascending
    exact ⟨d, by rw [insertAll, hinsert]; exact hall, hd⟩

/-- **Refilling.** The templates of a checked catalog make the same catalog again. -/
theorem insertAll_toList {c : Catalog} (h : c.IsChecked) : empty.insertAll c.toList = .ok c := by
  have hentries : (c.toList.map fun t => (t.code, t)) = c.templates.entries := by
    rw [toList, Table.values, List.map_map]
    refine (List.map_congr_left fun e he => ?_).trans (List.map_id _)
    exact Prod.ext (h e he).1 rfl
  obtain ⟨d, hall, hd⟩ := insertAll_eq_ok c.toList empty h.fault? (by
    rw [hentries]
    exact c.templates.ascending)
  rw [hentries] at hd
  have hsame : d = c := congrArg Catalog.mk (Table.eq_of_entries hd)
  rw [hall, hsame]

end Catalog

/-! ### Connectors -/

/-- A single is read back if it is finite, and not at all if it is not. -/
lemma Json.single?_single {x : Float32}
    (hsurvive : x.isFinite = true → (Json.single x).single? = some x) :
    (Json.single x).single? = if x.isFinite then some x else none := by
  by_cases h : x.isFinite = true
  · rw [if_pos h, hsurvive h]
  · rw [if_neg h, Json.single?_single_of_not_isFinite (Bool.eq_false_iff.2 h)]

namespace ConnectorTemplate

/-- **Placed connectors** lie at a finite place. -/
def isPlaced (t : ConnectorTemplate) : Bool := t.dx.isFinite && t.dy.isFinite

/-- The finite singles of a connector survive writing and reading. -/
def Survives (t : ConnectorTemplate) : Prop :=
  ∀ x ∈ [t.dx, t.dy, t.radius], x.isFinite = true → (Json.single x).single? = some x

/-- The value of a connector of a template can be written: it is a record of texts and of
singles. -/
lemma isWritten_toJson (t : ConnectorTemplate) : t.toJson.IsWritten :=
  Json.isWritten_record (by simp [Direction.toJson])

/-- **Connectors** are read back if they lie at a finite place. -/
theorem ofJson?_toJson {t : ConnectorTemplate} (hsurvive : t.Survives)
    (hradius : t.radius.isFinite = true) :
    ofJson? t.toJson = if t.isPlaced then some t else none := by
  have hdirection : Direction.ofJson? t.direction.toJson = some t.direction := by
    cases t.direction <;> simp [Direction.ofJson?, Direction.toJson, Direction.name]
  have hdx := Json.single?_single (hsurvive t.dx (by simp))
  have hdy := Json.single?_single (hsurvive t.dy (by simp))
  have hr := hsurvive t.radius (by simp) hradius
  simp only [ofJson?, toJson, Option.bind_eq_bind]
  rw [Wire.record?_record (by simp) (by simp)]
  cases hx : t.dx.isFinite <;> cases hy : t.dy.isFinite <;>
    simp [Wire.Fields.required, hdirection, hdx, hdy, hr, hx, hy, isPlaced]

end ConnectorTemplate

/-! ### Templates -/

namespace StatementKind

/-- The members that the kind of a statement adds to its template can be written. -/
lemma isWritten_members (k : StatementKind) : ∀ m ∈ k.members, m.2.IsWritten := by
  cases k with
  | parameter v => cases v <;> simp [members, ParameterValue.toJson, Json.isWritten_record]
  | _ => simp [members, NativeAction.toJson]

/-- A kind may be looked at twice. -/
lemma sound_members (k : StatementKind) : (Json.record k.members).Sound 2 := by
  refine Json.sound_record ?_
  cases k with
  | parameter v =>
    cases v with
    | count n =>
      have hcount : (ParameterValue.count n).toJson.Sound 1 :=
        Json.sound_record (by simp [Json.sound_uint32])
      simp [members, Json.sound_text, hcount]
    | _ => simp [members, ParameterValue.toJson, Json.sound_text]
  | _ => simp [members, NativeAction.toJson, Json.sound_text]

/-- **Kinds** are read back by their tags. -/
theorem ofSettled?_record (inside : Bool) (k : StatementKind) :
    ofSettled? inside (.record k.members) = some k := by
  cases k with
  | action a =>
    have haction : NativeAction.ofJson? true a.toJson = some a := by
      cases a <;> simp [NativeAction.ofJson?, NativeAction.toJson, NativeAction.wireName,
        NativeAction.all]
    simp [ofSettled?, members, wireNames, Wire.Fields.required, haction]
  | parameter v =>
    have hvalue : ParameterValue.ofJson? true v.toJson = some v := by
      cases v with
      | count n => simp [ParameterValue.ofJson?, ParameterValue.toJson, Json.record, Wire.name?]
      | _ => simp [ParameterValue.ofJson?, ParameterValue.toJson]
    simp [ofSettled?, members, wireNames, Wire.Fields.required, hvalue]
  | _ => simp [ofSettled?, members, wireNames]

end StatementKind

namespace Template

/-- Placed templates have all their connectors at finite places. -/
def isPlaced (t : Template) : Bool := t.connectors.all ConnectorTemplate.isPlaced

/-- The finite singles of a template survive writing and reading. -/
def Survives (t : Template) : Prop := ∀ k ∈ t.connectors, k.Survives

/-- The members of a template with its connectors as a document: its own fields, and between them
those of its kind. -/
def members (t : Template) (connectors : Json) : List (String × Json) :=
  [("code", .nat t.code.toNat), ("name", .text t.name)] ++ t.kind.members ++
    [("connectors", connectors)]

/-- The value of a template is a record, in which the members of the kind are not nested but stand
among the others. -/
lemma toJson_eq (t : Template) :
    t.toJson = .record (t.members (.ofList ConnectorTemplate.toJson t.connectors)) := rfl

/-- The value of a template can be written, because those of its connectors and the members of its
kind can. -/
lemma isWritten_toJson (t : Template) : t.toJson.IsWritten := by
  refine Json.isWritten_record ?_
  rw [List.forall_mem_append, List.forall_mem_append]
  exact ⟨⟨by simp, t.kind.isWritten_members⟩,
    by simp [Json.isWritten_ofList, ConnectorTemplate.isWritten_toJson]⟩

/-- The radii of a template without fault are finite. -/
lemma isFinite_radius {t : Template} (h : t.fault? = none) :
    ∀ k ∈ t.connectors, k.radius.isFinite = true := by
  intro k hk
  unfold fault? at h
  split at h
  · exact nomatch h
  · split at h
    · exact nomatch h
    · next hradii =>
      have hradius : isRadius k.radius = true := by
        by_contra hbad
        exact hradii (List.any_eq_true.2 ⟨k, hk, by simpa using hbad⟩)
      rw [isRadius, Bool.and_eq_true] at hradius
      exact hradius.1

/-- A template is read with the connectors that are read. Its kind is read by what is left of the
members besides the fields of the template itself. -/
lemma ofJson?_record (t : Template) (connectors : Json) {level : Nat} (hlevel : level ≤ 100) :
    ofJson? level (.record (t.members connectors)) =
      (Wire.list? ConnectorTemplate.ofJson? connectors).map fun ks =>
        { t with connectors := ks } := by
  have hfields : Wire.record? ownFields (.record (t.members connectors)) =
      some [("code", .nat t.code.toNat), ("name", .text t.name), ("connectors", connectors)] := by
    rw [Wire.record?_eq_filter]
    · cases hkind : t.kind <;> simp [members, ownFields, StatementKind.members, hkind]
    · cases hkind : t.kind <;> simp [members, StatementKind.members, hkind]
  have hrest : ((t.members connectors).map fun m => (Json.quote m.1, m.2)).filter (fun m =>
      !(Json.unquote m.1).any (· ∈ ownFields)) =
        t.kind.members.map fun m => (Json.quote m.1, m.2) := by
    cases hkind : t.kind <;> simp [members, ownFields, StatementKind.members, hkind]
  have hsettled : Wire.isSettled level (.record t.kind.members) = true :=
    t.kind.sound_members.isSettled (by rw [Wire.maxDepth]; omega)
  rw [Json.record, ofJson?, ← Json.record, hfields]
  simp only [Option.bind_eq_bind, Option.bind_some]
  rw [hrest, ← Json.record, if_pos hsettled, StatementKind.ofSettled?_record]
  cases hread : Wire.list? ConnectorTemplate.ofJson? connectors <;>
    simp [Wire.Fields.required, hread]

/-- **Templates** are read back if their connectors lie at finite places. -/
theorem ofJson?_toJson {t : Template} (hfault : t.fault? = none) (hsurvive : t.Survives)
    {level : Nat} (hlevel : level ≤ 100) :
    ofJson? level t.toJson = if t.isPlaced then some t else none := by
  have hconnectors : Wire.list? ConnectorTemplate.ofJson?
      (.ofList ConnectorTemplate.toJson t.connectors) =
        if t.isPlaced then some t.connectors else none :=
    Wire.list?_ofList_ite fun k hk =>
      ConnectorTemplate.ofJson?_toJson (hsurvive k hk) (isFinite_radius hfault k hk)
  rw [toJson_eq, ofJson?_record t _ hlevel, hconnectors]
  cases t.isPlaced <;> rfl

end Template

/-! ### Catalogs -/

namespace Catalog

variable {c : Catalog}

/-- Placed catalogs have all their connectors at finite places. -/
def isPlaced (c : Catalog) : Bool := c.toList.all Template.isPlaced

/-- **Survival.** The finite singles of a catalog survive writing and reading. -/
def Survives (c : Catalog) : Prop := ∀ t ∈ c.toList, t.Survives

/-- The value of a catalog can be written, because those of its templates can. -/
lemma isWritten_toJson (c : Catalog) : c.toJson.IsWritten :=
  Json.isWritten_record (by simp [Json.isWritten_ofList, Template.isWritten_toJson])

/-- The templates of a catalog are read back if its connectors lie at finite places. -/
lemma templatesOfJson?_toJson (h : c.IsChecked) (hsurvive : c.Survives) :
    templatesOfJson? c.toJson = if c.isPlaced then some c.toList else none := by
  have hlist : Wire.list? (Template.ofJson? 2) (.ofList Template.toJson c.toList) =
      if c.isPlaced then some c.toList else none := by
    refine Wire.list?_ofList_ite fun t ht => ?_
    exact Template.ofJson?_toJson (h.fault? t ht) (hsurvive t ht) (by decide)
  rw [templatesOfJson?, toJson, Wire.record?_record (by simp) (by simp)]
  exact hlist

/-- **Loading what was saved.** The catalog comes back if its connectors lie at finite places;
else its text is refused. -/
theorem ofText_text (h : c.IsChecked) (hsurvive : c.Survives) :
    ofText c.text = if c.isPlaced then .ok c else .error .unreadable := by
  rw [ofText, text, Json.parse?_indented c.isWritten_toJson, Option.bind_some,
    templatesOfJson?_toJson h hsurvive]
  cases c.isPlaced with
  | false => rfl
  | true => exact insertAll_toList h

/-- A template that is refused leaves the catalog as it was. -/
lemma offer_eq_self {t : Template} {e : CatalogError} (h : (c.offer t).2 = some e) :
    (c.offer t).1 = c := by
  unfold offer at h ⊢
  cases hinsert : c.insert t with
  | ok d => simp [hinsert] at h
  | error e => rfl

/-- Whatever is offered to a catalog, it stays one of those that there are. -/
lemma IsMade.offer (h : c.IsMade) (t : Template) : (c.offer t).1.IsMade := by
  unfold Catalog.offer
  cases hinsert : c.insert t with
  | ok d => exact h.insert hinsert
  | error e => exact h

/-- **Saving.** However a catalog was made, its templates have no fault and stand under their own
codes, and a template that it refuses leaves it as it was. If its finite singles survive writing and
reading, it comes back from its text exactly if its connectors lie at finite places: else the text
is refused. -/
theorem save_and_load (hmade : c.IsMade) (hsurvive : c.Survives) :
    (∀ code t, c.get? code = some t → t.code = code ∧ t.fault? = none) ∧
      (∀ t, (c.offer t).1.IsMade ∧ ∀ e, (c.offer t).2 = some e → (c.offer t).1 = c) ∧
      (c.isPlaced = true → ofText c.text = .ok c) ∧
      (c.isPlaced = false → ofText c.text = .error .unreadable) := by
  have hchecked := hmade.isChecked
  have htext := ofText_text hchecked hsurvive
  refine ⟨?_, ?_, ?_, ?_⟩
  · intro code t ht
    obtain ⟨e, he, rfl⟩ := Option.map_eq_some_iff.1 ht
    obtain rfl : code = e.1 := by simpa using List.find?_some he
    exact hchecked e (List.mem_of_find?_eq_some he)
  · exact fun t => ⟨hmade.offer t, fun e => offer_eq_self⟩
  · intro hplaced
    rw [htext, hplaced]
    rfl
  · intro hplaced
    rw [htext, hplaced]
    rfl

/-- The singles of the standard sheet survive. -/
lemma single?_single_standard :
    ∀ x ∈ [(-1.0 : Float32), 0.0, 0.5, 1.0], (Json.single x).single? = some x := by
  simp only [List.forall_mem_cons]
  refine ⟨?_, ?_, ?_, ?_, fun _ h => absurd h List.not_mem_nil⟩
  · exact Json.single?_single_of_places (l := ['-', '1', '.', '0']) (w := 1) (m := 10) (p := 1)
      (by decide +kernel) rfl (by decide +kernel) (by decide +kernel) (by decide)
      (by decide +kernel)
  · exact Json.single?_single_of_places (l := ['0', '.', '0']) (w := 0) (m := 0) (p := 1)
      (by decide +kernel) rfl (by decide +kernel) (by decide +kernel) (by decide)
      (by decide +kernel)
  · exact Json.single?_single_of_places (l := ['0', '.', '5']) (w := 0) (m := 5) (p := 1)
      (by decide +kernel) rfl (by decide +kernel) (by decide +kernel) (by decide)
      (by decide +kernel)
  · exact Json.single?_single_of_places (l := ['1', '.', '0']) (w := 1) (m := 10) (p := 1)
      (by decide +kernel) rfl (by decide +kernel) (by decide +kernel) (by decide)
      (by decide +kernel)

/-- The singles of the standard sheet are these. -/
lemma survives_standard : standard.Survives := by
  have hall : standard.toList.all (fun t => t.connectors.all fun k =>
      [k.dx, k.dy, k.radius].all fun x => [(-1.0 : Float32), 0.0, 0.5, 1.0].any fun y => x = y) =
        true := by
    decide +kernel
  intro t ht k hk x hx _
  have hconnector := List.all_eq_true.1 (List.all_eq_true.1 hall t ht) k hk
  obtain ⟨y, hy, hxy⟩ := List.any_eq_true.1 (List.all_eq_true.1 hconnector x hx)
  obtain rfl : x = y := of_decide_eq_true hxy
  exact single?_single_standard x hy

/-- The standard sheet can be saved. -/
theorem save_and_load_standard :
    standard.IsMade ∧ standard.Survives ∧ ofText standard.text = .ok standard :=
  ⟨.standard, survives_standard,
    (save_and_load .standard survives_standard).2.2.1 (by decide +kernel)⟩

/-- A sticker whose connector is beyond all places. -/
def far : Template :=
  ⟨7, "Far", .loopEnd, [⟨"prev", .incoming, Float32.ofBits 0x7f800000, 0.0, 0.5⟩]⟩

/-- The text of a catalog with a sticker whose connector is too far away for a single. -/
def farText : String :=
  "\x7b\"templates\":[\x7b\"code\":7,\"name\":\"Far\",\"kind\":\"loop_end\"," ++
    "\"connectors\":[\x7b\"name\":\"prev\",\"direction\":\"incoming\"," ++
    "\"dx\":1e39,\"dy\":0,\"radius\":0.5\x7d]\x7d]\x7d"

/-- A number beyond all singles means infinity. -/
lemma single?_far :
    (Json.number ['1', 'e', '3', '9']).single? = some (Float32.ofBits 0x7f800000) := by
  have hnumeral : Json.Numeral.ofLiteral ['1', 'e', '3', '9'] = ⟨false, ['1'], [], 39, false⟩ := rfl
  have hwhole : Json.Numeral.packWhole 0 ['1'] = (1, 0) := by decide +kernel
  have hscale : Json.Numeral.scale (Nat.toUInt64 1).toFloat 39 =
      some ((Nat.toUInt64 1).toFloat * Json.Numeral.powerOfTen 39) := by
    rw [Json.Numeral.scale, if_neg (by decide), if_pos (by decide), if_pos (by decide)]
    exact if_neg (by decide +kernel)
  have hdouble : (⟨false, ['1'], [], 39, false⟩ : Json.Numeral).double? =
      some ((Nat.toUInt64 1).toFloat * Json.Numeral.powerOfTen 39) := by
    have hplaces : ((0 : Nat) : Int) - (0 : Nat) + 39 = 39 := rfl
    rw [Json.double?_eq (m := 1) hwhole rfl, hplaces, hscale]
    rfl
  rw [Json.single?_of_double? hnumeral rfl hdouble]
  decide +kernel

/-- The text is read as the catalog of this sticker alone. The text is the compact form of a
document that can be written, so that it is parsed as this document; and then its members are read,
one after the other. -/
lemma ofText_farText : ofText farText = .ok ⟨Table.empty.insert 7 far⟩ := by
  let connector : Json := .record [("name", .text "prev"), ("direction", .text "incoming"),
    ("dx", .number ['1', 'e', '3', '9']), ("dy", .number ['0']),
    ("radius", .number ['0', '.', '5'])]
  let doc : Json := .record [("templates", .array [.record (far.members (.array [connector]))])]
  have hcompact : doc.compact = farText := by decide +kernel
  have hwritten : doc.IsWritten := by
    have hfar : Json.IsNumber ['1', 'e', '3', '9'] := ⟨_, .exponent, .inl rfl, rfl, rfl⟩
    have hzero : Json.IsNumber ['0'] := ⟨_, .zero, .inl rfl, rfl, rfl⟩
    have hhalf : Json.IsNumber ['0', '.', '5'] := ⟨_, .fraction, .inl rfl, rfl, rfl⟩
    have hconnector : connector.IsWritten :=
      Json.isWritten_record (by simp [Json.IsWritten, hfar, hzero, hhalf])
    have hmembers : (Json.record (far.members (.array [connector]))).IsWritten :=
      Json.isWritten_record (by simp [Template.members, far, StatementKind.members, Json.IsWritten,
        Json.AreWrittenItems, hconnector])
    exact Json.isWritten_record (by simp [Json.IsWritten, Json.AreWrittenItems, hmembers])
  have hconnector : ConnectorTemplate.ofJson? connector =
      some ⟨"prev", .incoming, Float32.ofBits 0x7f800000, 0.0, 0.5⟩ := by
    have hzero : (Json.number ['0']).single? = some 0.0 := by decide +kernel
    have hhalf : (Json.number ['0', '.', '5']).single? = some 0.5 := by
      rw [Json.single?_of_places (w := 0) (m := 5) (p := 1) rfl (by decide +kernel)
        (by decide +kernel) (by decide)]
      decide +kernel
    simp [connector, ConnectorTemplate.ofJson?, Wire.Fields.required, Direction.ofJson?,
      single?_far, hzero, hhalf]
  have htemplates : templatesOfJson? doc = some [far] := by
    have hfar : Template.ofJson? 2 (.record (far.members (.array [connector]))) = some far := by
      rw [Template.ofJson?_record far _ (by decide), Wire.list?, List.mapM_cons, hconnector]
      rfl
    simp [doc, templatesOfJson?, Wire.Fields.required, Wire.list?, hfar]
  rw [ofText, ← hcompact, Json.parse?_compact hwritten, Option.bind_some, htemplates]
  decide +kernel

/-- **A lost catalog.** A catalog that was read can be made to no text that is read again: a number
beyond all singles was read as infinity, which is written as null. -/
theorem lost_far : ∃ c, c.IsMade ∧ c.Survives ∧ ofText farText = .ok c ∧
    ofText c.text = .error .unreadable := by
  have hmade := isMade_ofText ofText_farText
  have hsurvive : (⟨Table.empty.insert 7 far⟩ : Catalog).Survives := by
    intro t ht k hk x hx hfinite
    obtain rfl : t = far := List.mem_singleton.1 ht
    obtain rfl : k = ⟨"prev", .incoming, Float32.ofBits 0x7f800000, 0.0, 0.5⟩ :=
      List.mem_singleton.1 hk
    have hinfinite : (Float32.ofBits 0x7f800000).isFinite = false := by decide +kernel
    rcases List.mem_cons.1 hx with rfl | hx
    · exact absurd (hinfinite.symm.trans hfinite) Bool.false_ne_true
    · refine single?_single_standard x ?_
      simp only [List.mem_cons, List.not_mem_nil, or_false] at hx ⊢
      exact .inr (hx.imp_right .inl)
  refine ⟨_, hmade, hsurvive, ofText_farText, ?_⟩
  rw [ofText_text hmade.isChecked hsurvive]
  exact if_neg (by decide +kernel)

end Catalog

end StickerBot
