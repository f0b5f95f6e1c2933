import ModelGateway.Proofs.Record.Distinct
import ModelGateway.Proofs.Store.Address
import ModelGateway.Proofs.Store.Counts
import ModelGateway.Proofs.Store.Sound

/-!
# Distinct records and groups of a table

One can ask for the combinations of values of some columns in two ways: by selecting the distinct
records, and by grouping the records.

* **Groups are distinct records** (`Store.GroupsDistinct.firsts`): to each group belongs a distinct
  record with its values, in the order of the groups.
* **Agreement** (`Store.Reachable.groups_distinct`): there are as many groups as distinct records
  exactly if no two of the records have equal values that are not the same, and then the groups and
  the distinct records have the same values, one by one.
* **Disagreement** (`Store.readings_split_group`): the numbers `1` and `1.0` are one group, and two
  distinct records.
-/

namespace ModelGateway

/-- Two objects show the same values under some names. -/
def Json.ShowAlike (names : List String) (a b : Json) : Prop :=
  ∀ name ∈ names, ∃ value, a.get? name = some value ∧ b.get? name = some value

namespace Store

variable {d : Document} {s : Store} {t : Table} {delegate : String} {w : Json} {filter : Filter}
  {columns : List String}

/-- How the rows of the groups of some records compare to the answer with the distinct ones: they
match a part of it, and all of it exactly if the records are coherent. -/
structure GroupsDistinct (columns : List String) (records : List Record) (rows items : List Json) :
    Prop where
  firsts : List.SublistForall₂ (Json.ShowAlike columns) rows items
  length_eq_iff : rows.length = items.length ↔ CoherentIn columns records
  alike_iff : List.Forall₂ (Json.ShowAlike columns) rows items ↔ CoherentIn columns records

/-- There are no more groups than distinct records. -/
theorem GroupsDistinct.length_le {records : List Record} {rows items : List Json}
    (h : GroupsDistinct columns records rows items) : rows.length ≤ items.length := by
  obtain ⟨firsts, halike, hsub⟩ := List.sublistForall₂_iff.mp h.firsts
  rw [halike.length_eq]
  exact hsub.length_le

/-- The distinct records of a `where` are answered whole. -/
theorem findMany_distinct (s : Store) (hw : Filter.ofArgument t.model (some w) = .ok filter)
    (columns : List String) :
    s.findMany t (.obj [("where", w), ("distinct", .arr (columns.map .str))]) =
      .ok (.arr ((distinct columns (t.records.filter filter.matches)).map fun r =>
        .obj (t.columns r))) := by
  have hselect : t.select (.obj [("where", w), ("distinct", .arr (columns.map .str))]) none =
      .ok (distinct columns (t.records.filter filter.matches)) := by
    rw [Table.select_eq_distinct (by simp [Json.get?, Entries.get?])]
    simp [Json.get?, Entries.get?, hw, fieldList_arr, Except.map]
  rw [findMany, hselect]
  exact projectAll_whole s t _ rfl rfl

/-- The groups of a `where` show the columns of their first records. -/
theorem groups_firsts (hw : Filter.ofArgument t.model (some w) = .ok filter)
    (hcolumns : columns ≠ []) :
    groups t (.obj [("by", .arr (columns.map .str)), ("where", w)]) =
      .ok (.arr ((firstsFrom (equalRepeats columns) [] (t.records.filter filter.matches)).map
        fun r => .obj (Entries.ofList (columns.map fun column =>
          (column, Record.value r column))))) := by
  rw [groups_where hw rfl rfl (by simp [Entries.get?]), Json.get?, Entries.get?, if_pos rfl,
    fieldList_arr, groupBy_eq_firsts rfl hcolumns, Except.map, List.map_map]
  rfl

/-- A record shows the same values in the row of a group and in the answer. -/
theorem showAlike_columns (hscalar : ∀ column ∈ columns, ∃ f ∈ t.model.fields,
    f.name = column ∧ f.isRelation = false) (r : Record) :
    Json.ShowAlike columns
      (.obj (Entries.ofList (columns.map fun column => (column, Record.value r column))))
      (.obj (t.columns r)) := by
  intro column hc
  obtain ⟨f, hf, rfl, hcolumn⟩ := hscalar column hc
  refine ⟨Record.value r f.name, ?_, Table.get?_columns hf hcolumn r⟩
  rw [Json.get?, Entries.get?_ofList_map, if_pos hc]

/-- In a reachable store the groups of a `where` by some columns are distinct records, and all of
them exactly if records with equal values in these columns have the same values there. -/
theorem Reachable.groups_distinct (hd : d.WellFormed) (h : Reachable d s)
    (ht : s.tableFor delegate = .ok t) (hw : Filter.ofArgument t.model (some w) = .ok filter)
    (hcolumns : columns ≠ []) (hscalar : ∀ column ∈ columns, ∃ f ∈ t.model.fields,
      f.name = column ∧ f.isRelation = false) (supply : Supply) :
    ∃ rows items,
      (s.execute supply delegate .groupBy
        (.obj [("by", .arr (columns.map .str)), ("where", w)])).2 = .ok (.arr rows) ∧
      (s.execute supply delegate .findMany
        (.obj [("where", w), ("distinct", .arr (columns.map .str))])).2 = .ok (.arr items) ∧
      GroupsDistinct columns (t.records.filter filter.matches) rows items := by
  have hs := h.sound hd
  have hr : ∀ r ∈ t.records.filter filter.matches, Record.WellFormed r := by
    intro r hmem
    obtain ⟨e, he, rfl⟩ := List.mem_map.mp (List.mem_of_mem_filter hmem)
    exact (hs.table _ t (hs.named.tableOf_of_tableFor ht)).wellFormed e he
  have hgroups := groups_firsts hw hcolumns
  have hfind := findMany_distinct s hw columns
  have hsub := firsts_sublist_distinct hcolumns hr
  have hlength := length_firsts_eq_iff hcolumns hr
  have hall := firsts_eq_distinct_iff hcolumns hr
  generalize firstsFrom (equalRepeats columns) [] (t.records.filter filter.matches) = firsts at *
  have halike : List.Forall₂ (Json.ShowAlike columns)
      (firsts.map fun r => .obj (Entries.ofList (columns.map fun column =>
        (column, Record.value r column))))
      (firsts.map fun r => .obj (t.columns r)) := by
    rw [List.forall₂_map_left_iff, List.forall₂_map_right_iff, List.forall₂_same]
    intro r _
    exact showAlike_columns hscalar r
  refine ⟨_, _, by rw [execute_of_tableFor ht]; exact hgroups,
    by rw [execute_of_tableFor ht]; exact hfind, ?_, ?_, ?_⟩
  · exact List.sublistForall₂_iff.mpr ⟨_, halike, hsub.map _⟩
  · rw [List.length_map, List.length_map, hlength]
  · constructor
    · intro hboth
      rw [← hlength]
      simpa using hboth.length_eq
    · intro hcoherent
      rwa [← hall.mpr hcoherent]

/-! ## Readings -/

namespace Readings

/-- A reading has a number and a value. -/
def model : Model where
  name := "Reading"
  fields := [
    { Seats.column "id" true with isId := true },
    { Seats.column "value" false with typeName := "Float" }]
  primaryKey := none

/-- The document with readings alone. -/
def document : Document :=
  { Seats.document with models := [model] }

/-- The columns of readings have no defaults. -/
theorem document_wellFormed : document.WellFormed := by
  simp [Document.WellFormed, Model.WellFormed, Field.WellFormed, document, model, Seats.column]

/-- The creation of a reading. -/
def creation (id : Nat) (value : Json) : Call :=
  .execute "reading" .create (.obj [("data", .obj [("id", .ofNat id), ("value", value)])])

/-- The store with some readings. -/
def made (calls : List Call) : Store :=
  calls.foldl (fun s c => s.after Seats.supply c) (ofModels document.models)

/-- The creation of a reading with a well-formed value is well formed. -/
@[simp] theorem wellFormed_creation {id : Nat} {value : Json} :
    (creation id value).WellFormed ↔ value.WellFormed := by
  simp [creation, Call.WellFormed, Entries.names]

/-- Creating readings makes reachable stores. -/
theorem reachable_made {calls : List Call} (h : ∀ c ∈ calls, c.WellFormed) :
    Reachable document (made calls) :=
  Reachable.start.foldl Seats.supply h

/-- The double `1`. -/
def one : Json :=
  .ofDouble? (Double.ofInt? 1)

end Readings

/-- Three readings with two different values are two groups and two distinct records. -/
theorem readings_groups_distinct :
    let s := Readings.made [Readings.creation 1 (.ofNat 1), Readings.creation 2 (.ofNat 2),
      Readings.creation 3 (.ofNat 1)]
    let t := s.current (Table.empty Readings.model)
    let found := t.records.filter Filter.all.matches
    Readings.document.WellFormed ∧ Reachable Readings.document s ∧
      s.tableFor "reading" = .ok t ∧ Filter.ofArgument t.model (some (.obj [])) = .ok .all ∧
      (∀ column ∈ ["value"], ∃ f ∈ t.model.fields, f.name = column ∧ f.isRelation = false) ∧
      found.length = 3 ∧ CoherentIn ["value"] found ∧
      ∃ rows items,
        (s.execute Seats.supply "reading" .groupBy
          (.obj [("by", .arr (["value"].map .str)), ("where", .obj [])])).2 = .ok (.arr rows) ∧
        (s.execute Seats.supply "reading" .findMany
          (.obj [("where", .obj []), ("distinct", .arr (["value"].map .str))])).2 =
          .ok (.arr items) ∧
        GroupsDistinct ["value"] found rows items := by
  intro s t found
  have hs : Reachable Readings.document s := Readings.reachable_made (by simp)
  have ht : s.tableFor "reading" = .ok t := rfl
  have hw : Filter.ofArgument t.model (some (.obj [])) = .ok .all := rfl
  have hscalar : ∀ column ∈ ["value"], ∃ f ∈ t.model.fields,
      f.name = column ∧ f.isRelation = false := by decide +kernel
  have hlength : found.length = 3 := by decide +kernel
  have hcoherent : CoherentIn ["value"] found := by decide +kernel
  exact ⟨Readings.document_wellFormed, hs, ht, hw, hscalar, hlength, hcoherent,
    hs.groups_distinct Readings.document_wellFormed ht hw (by simp) hscalar Seats.supply⟩

/-- The values `1` and `1.0` are one group and two distinct records. -/
theorem readings_split_group :
    let s := Readings.made [Readings.creation 1 (.ofNat 1), Readings.creation 2 Readings.one]
    let rows : List Json := [.obj [("value", .ofNat 1)]]
    let items : List Json := [.obj [("id", .ofNat 1), ("value", .ofNat 1)],
      .obj [("id", .ofNat 2), ("value", Readings.one)]]
    Readings.document.WellFormed ∧ Reachable Readings.document s ∧
      (s.execute Seats.supply "reading" .groupBy
        (.obj [("by", .arr [.str "value"]), ("where", .obj [])])).2 = .ok (.arr rows) ∧
      (s.execute Seats.supply "reading" .findMany
        (.obj [("where", .obj []), ("distinct", .arr [.str "value"])])).2 = .ok (.arr items) ∧
      rows.length ≠ items.length := by
  intro s rows items
  have hs : Reachable Readings.document s :=
    Readings.reachable_made (by simp [Readings.one, Json.wellFormed_ofDouble?])
  exact ⟨Readings.document_wellFormed, hs, by decide +kernel, by decide +kernel, by decide⟩

end Store

end ModelGateway
