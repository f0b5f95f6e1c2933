import Mathlib.Data.List.Pairwise
import ModelGateway.Proofs.Schema.RecordKey
import ModelGateway.Proofs.Store.Identity
import ModelGateway.Proofs.Store.Uniqueness

/-!
# The addresses of rows

The `where` that is made of a row's key finds the row again.

* **One table** (`Table.Unique.eq_of_valuesEqual`): where rows are unique, no two of them have equal
  values in all fields of the key, if one of them has a key without nulls. Equal values need not be
  the same: texts that are the same instant are equal.
* **Answers** (`RecordKey.filter_columns`): a record that is answered with all its columns has the
  key of the stored one.
* **All stores** (`Store.Reachable.key_addresses_row`): in a reachable store the filter of a row's
  key selects this row alone, so a point lookup finds it (`Table.Unique.findRow_key`).
-/

namespace ModelGateway

/-! ## Keys of records -/

namespace Model

/-- The record has a value in every field of the key, and none of them is an object. -/
def KeyGiven (m : Model) (r : Record) : Prop :=
  ∀ f ∈ m.identifyingFields,
    Record.value r f.name ≠ .null ∧ (Record.value r f.name).isObject = false

instance (m : Model) (r : Record) : Decidable (m.KeyGiven r) :=
  inferInstanceAs (Decidable (∀ f ∈ m.identifyingFields, _ ∧ _))

variable {m : Model} {r : Record} {f : Field}

/-- Without a primary key the identifying fields are the id fields. -/
theorem isId_of_mem_identifyingFields (hnone : m.primaryKey = none)
    (hf : f ∈ m.identifyingFields) : f.isId = true := by
  have hall := mem_of_mem_firstOfEachName hf
  simp only [primaryKeyNames, hnone, List.filterMap_nil, List.nil_append] at hall
  exact (List.mem_filter.mp hall).2

/-- A record without nulls in its identifying fields is identified, if these are columns and the
primary key names declared ones. -/
theorem identified_of_given (hids : m.identifyingFields ≠ [])
    (hdeclared : ∀ column ∈ m.primaryKeyNames, (m.field? column).isSome)
    (hcolumns : ∀ f ∈ m.identifyingFields, f.isRelation = false)
    (hgiven : ∀ f ∈ m.identifyingFields, Record.value r f.name ≠ .null) : m.Identified r := by
  cases hkey : m.primaryKey with
  | some key =>
    have hdeclared : ∀ column ∈ key.fields, (m.field? column).isSome := by
      simpa [primaryKeyNames, hkey] using hdeclared
    apply Identified.primaryKey hkey hdeclared
    intro column hc
    obtain ⟨f, hf, rfl⟩ :=
      List.mem_map.mp (mem_identifyingFields_of_primaryKey hkey hc (hdeclared column hc))
    exact hgiven f hf
  | none =>
    obtain ⟨f, hf⟩ := List.exists_mem_of_ne_nil _ hids
    exact .column (mem_fields_of_mem_identifyingFields hf)
      (isId_of_mem_identifyingFields hkey hf) (hcolumns f hf) (hgiven f hf)

/-- A record that gives the whole key is identified. -/
theorem KeyGiven.identified (hr : m.KeyGiven r) (hm : m.Addressable) : m.Identified r :=
  identified_of_given hm.identified hm.declared hm.columns fun f hf => (hr f hf).1

end Model

/-! ## Keys of answered records -/

/-- A record that is answered with all its columns shows the value of each declared one. -/
theorem Table.get?_columns {t : Table} {f : Field} (hf : f ∈ t.model.fields)
    (hcolumn : f.isRelation = false) (r : Record) :
    Entries.get? (t.columns r) f.name = some (Record.value r f.name) := by
  have hmem : f.name ∈ t.model.scalarFields.map (·.name) :=
    List.mem_map_of_mem (List.mem_filter.mpr ⟨hf, by simp [hcolumn]⟩)
  have hcolumns : t.columns r =
      Entries.ofList ((t.model.scalarFields.map (·.name)).map fun name =>
        (name, Record.value r name)) := by
    rw [List.map_map]
    rfl
  rw [hcolumns, Entries.get?_ofList_map, if_pos hmem]

/-- A column of a shaped record has the value of the stored one. -/
theorem Table.value_columns {t : Table} {r : Record} {f : Field} (hf : f ∈ t.model.fields)
    (hcolumn : f.isRelation = false) :
    Record.value (t.columns r) f.name = Record.value r f.name := by
  rw [Record.value, Table.get?_columns hf hcolumn]
  rfl

namespace RecordKey

variable {m : Model} {key : RecordKey} {r r' : Record}

/-- Records with the same values in the fields of the key give the same `where`. -/
theorem filter_congr (hkey : ofModel? m = some key)
    (h : ∀ f ∈ m.identifyingFields, Record.value r f.name = Record.value r' f.name) :
    key.filter r = key.filter r' := by
  cases key with
  | single name =>
    obtain ⟨f, hids, rfl⟩ := ofModel?_eq_single hkey
    have hf : f ∈ m.identifyingFields := by simp [hids]
    simp [filter, h f hf]
  | compound name parts =>
    obtain ⟨-, -, rfl⟩ := ofModel?_eq_compound hkey
    have hparts : (m.identifyingFields.map (·.name)).map (fun f => (f, part r f)) =
        (m.identifyingFields.map (·.name)).map fun f => (f, part r' f) := by
      apply List.map_congr_left
      intro name hname
      obtain ⟨f, hf, rfl⟩ := List.mem_map.mp hname
      simp [h f hf]
    rw [filter, filter, hparts]

/-- A shaped record gives the same `where` as the stored one. -/
theorem filter_columns {t : Table} (hm : t.model.Addressable)
    (hkey : ofModel? t.model = some key) (r : Record) :
    key.filter (t.columns r) = key.filter r := by
  apply filter_congr hkey
  intro f hf
  exact Table.value_columns (Model.mem_fields_of_mem_identifyingFields hf) (hm.columns f hf)

end RecordKey

/-! ## Tables -/

namespace Table

variable {t : Table} {e a b : RowKey × Row}

/-- Where rows are unique, the model separates every two different ones. -/
theorem Unique.separates (h : t.Unique) (ha : a ∈ t.rows) (hb : b ∈ t.rows) (hne : a ≠ b) :
    t.model.Separates a.2.data b.2.data := by
  have : Std.Symm fun a b : RowKey × Row => t.model.Separates a.2.data b.2.data :=
    ⟨fun _ _ hsep => hsep.symm⟩
  exact List.Pairwise.forall h ha hb hne

/-- A row whose values in the fields of the key equal those of an identified row is that row. -/
theorem Unique.eq_of_valuesEqual (h : t.Unique) (hs : t.Sound) (ha : a ∈ t.rows)
    (hb : b ∈ t.rows) (hid : t.model.Identified a.2.data)
    (heq : ∀ f ∈ t.model.identifyingFields,
      valuesEqual (Record.value b.2.data f.name) (Record.value a.2.data f.name) = true) :
    b = a := by
  by_contra hne
  obtain ⟨group, hgroup, hgiven, hids⟩ := hid.exists_group
  apply (h.separates hb ha hne group hgroup).1
  intro column hc
  obtain ⟨f, hf, rfl⟩ := List.mem_map.mp (hids column hc)
  refine ⟨?_, hgiven _ hc, heq f hf⟩
  -- a null of the other row would equal a value that is not null
  intro hnull
  have hsymm := valuesEqual_symm ((hs.wellFormed b hb).value f.name)
    ((hs.wellFormed a ha).value f.name) (heq f hf)
  rw [hnull] at hsymm
  exact hgiven _ hc (eq_null_of_valuesEqual_null hsymm)

/-- The filter of a row's key can be read and selects this row alone. -/
theorem Unique.filter_key (h : t.Unique) (hs : t.Sound) (hm : t.model.Addressable)
    (he : e ∈ t.rows) (hr : t.model.KeyGiven e.2.data) :
    ∃ key filter, RecordKey.ofModel? t.model = some key ∧
      Filter.ofArgument t.model (some (key.filter e.2.data)) = .ok filter ∧
      t.rows.filter (fun x => filter.matches x.2.data) = [e] := by
  obtain ⟨key, filter, hkey, hfilter, hmatches⟩ := hm.exists_filter fun f hf => (hr f hf).2
  refine ⟨key, filter, hkey, hfilter, ?_⟩
  have hself : filter.matches e.2.data = true :=
    (hmatches e.2.data).mpr fun f _ => valuesEqual_refl ((hs.wellFormed e he).value f.name)
  have honly : ∀ x, x ∈ t.rows.filter (fun x => filter.matches x.2.data) ↔ x ∈ [e] := by
    intro x
    rw [List.mem_filter, List.mem_singleton]
    constructor
    · rintro ⟨hx, hpass⟩
      exact h.eq_of_valuesEqual hs he hx (hr.identified hm) ((hmatches _).mp hpass)
    · rintro rfl
      exact ⟨he, hself⟩
  have hnodup : (t.rows.filter fun x => filter.matches x.2.data).Nodup :=
    hs.keys_nodup.of_map.filter _
  exact List.perm_singleton.mp
    ((List.perm_ext_iff_of_nodup hnodup (List.nodup_singleton e)).mpr honly)

/-- A point lookup by the key of a row finds this row. -/
theorem Unique.findRow_key (h : t.Unique) (hs : t.Sound) (hm : t.model.Addressable)
    (he : e ∈ t.rows) (hr : t.model.KeyGiven e.2.data) :
    ∃ key, RecordKey.ofModel? t.model = some key ∧
      t.findRow (some (key.filter e.2.data)) = .ok (some e) := by
  obtain ⟨key, filter, hkey, hfilter, hrows⟩ := h.filter_key hs hm he hr
  refine ⟨key, hkey, ?_⟩
  simp [findRow, findRows, hfilter, hrows, bind, Except.bind, pure, Except.pure, Except.map]

end Table

/-! ## Reachable stores -/

namespace Store

variable {d : Document} {s : Store} {t : Table} {model : String} {e : RowKey × Row}

/-- In a reachable store the filter that is built from a row's key can be read, and of the rows of
the table it selects this one alone. -/
theorem Reachable.key_addresses_row (hd : d.WellFormed) (h : Reachable d s)
    (ht : s.tableOf model = .ok t) (hm : t.model.Addressable) (he : e ∈ t.rows)
    (hr : t.model.KeyGiven e.2.data) :
    ∃ key filter, RecordKey.ofModel? t.model = some key ∧
      Filter.ofArgument t.model (some (key.filter e.2.data)) = .ok filter ∧
      t.rows.filter (fun x => filter.matches x.2.data) = [e] :=
  (h.unique hd model t ht).filter_key ((h.sound hd).table model t ht) hm he hr

/-- A seat is addressed by its row and its number. -/
theorem Seats.addressable : Seats.model.Addressable where
  identified := by decide
  names_nodup := by decide
  declared := by decide
  columns := by decide
  no_combinator key hkey := by
    cases hkey
    decide
  no_field name parts hkey := by
    cases hkey
    decide

/-- Of two seats of a row each is found by its key. -/
theorem seats_key_addresses_row :
    let s := Seats.made [
      .execute "seat" .create (.obj [("data", Seats.seat (.ofNat 1) (.ofNat 1) .null)]),
      .execute "seat" .create (.obj [("data", Seats.seat (.ofNat 1) (.ofNat 2) .null)])]
    let t := s.current (Table.empty Seats.model)
    Seats.document.WellFormed ∧ Reachable Seats.document s ∧ s.tableOf "Seat" = .ok t ∧
      t.model.Addressable ∧ t.rows.length = 2 ∧
      ∀ e ∈ t.rows, t.model.KeyGiven e.2.data ∧
        ∃ key filter, RecordKey.ofModel? t.model = some key ∧
          Filter.ofArgument t.model (some (key.filter e.2.data)) = .ok filter ∧
          t.rows.filter (fun x => filter.matches x.2.data) = [e] := by
  intro s t
  have hs : Reachable Seats.document s :=
    Seats.reachable_made (by simp [Call.WellFormed, Entries.names])
  have ht : s.tableOf "Seat" = .ok t := rfl
  have hm : t.model.Addressable := Seats.addressable
  have hgiven : ∀ e ∈ t.rows, t.model.KeyGiven e.2.data := by
    decide
  exact ⟨Seats.document_wellFormed, hs, ht, hm, rfl, fun e he =>
    ⟨hgiven e he, hs.key_addresses_row Seats.document_wellFormed ht hm he (hgiven e he)⟩⟩

end Store

end ModelGateway
