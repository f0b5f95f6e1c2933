import ModelGateway.Proofs.Json.Entries
import ModelGateway.Store.Execute

/-!
# The contents of a store

The rows of each model (`Store.rowsOf`), and how replacing a table shows in them. A store is
`Named` if each table stands under the name of its model; then replacing the table that was found
for a model replaces exactly that one (`rowsOf_setTable`).
-/

namespace ModelGateway.Store

variable {s : Store} {t : Table} {model : String}

/-- The rows of a model, none for an unknown one. -/
def rowsOf (s : Store) (model : String) : List (RowKey × Row) :=
  match s.tables.get? model with
  | some t => t.rows
  | none => []

/-- Each table stands under the name of its model. -/
def Named (s : Store) : Prop :=
  ∀ model t, s.tableOf model = .ok t → t.model.name = model

/-! ## Finding tables -/

/-- The table of a model is the one under its name. -/
theorem tableOf_eq_ok_iff : s.tableOf model = .ok t ↔ s.tables.get? model = some t := by
  unfold tableOf
  cases s.tables.get? model <;> simp

/-- The rows of a model are those of its table. -/
theorem rowsOf_of_tableOf (h : s.tableOf model = .ok t) : s.rowsOf model = t.rows := by
  rw [rowsOf, tableOf_eq_ok_iff.mp h]

/-- Every row of a model stands in its table. -/
theorem exists_tableOf_of_mem_rowsOf {e : RowKey × Row} (h : e ∈ s.rowsOf model) :
    ∃ t, s.tableOf model = .ok t ∧ e ∈ t.rows := by
  rw [rowsOf] at h
  cases ht : s.tables.get? model with
  | none => simp [ht] at h
  | some t => exact ⟨t, tableOf_eq_ok_iff.mpr ht, by simpa [ht] using h⟩

/-- The number of records of a model is that of its rows. -/
theorem rowCount_eq_length (s : Store) (model : String) :
    s.rowCount model = (s.rowsOf model).length := by
  unfold rowCount rowsOf
  cases s.tables.get? model <;> rfl

/-- The table that a delegate addresses is that of the model that it stands for. -/
theorem tableFor_eq_ok_iff {delegate : String} : s.tableFor delegate = .ok t ↔
    ∃ model, s.delegates.get? delegate = some model ∧ s.tableOf model = .ok t := by
  unfold tableFor
  cases hm : s.delegates.get? delegate with
  | none => simp
  | some model =>
    simp only [Option.bind_some, Option.some.injEq, exists_eq_left', tableOf_eq_ok_iff]
    cases s.tables.get? model <;> simp

/-- The table that a delegate addresses is the table of its own model. -/
theorem Named.tableOf_of_tableFor (hs : s.Named) {delegate : String}
    (h : s.tableFor delegate = .ok t) : s.tableOf t.model.name = .ok t := by
  obtain ⟨model, -, ht⟩ := tableFor_eq_ok_iff.mp h
  rwa [hs model t ht]

/-! ## Finding rows -/

/-- The rows that a `where` argument finds are rows of the table, in their order. -/
theorem sublist_of_findRows {condition : Option Json} {rows : List (RowKey × Row)}
    (h : t.findRows condition = .ok rows) : rows.Sublist t.rows := by
  unfold Table.findRows at h
  cases hf : Filter.ofArgument t.model condition with
  | error e => simp [hf, bind, Except.bind] at h
  | ok filter =>
    simp only [hf, bind, Except.bind, pure, Except.pure, Except.ok.injEq] at h
    exact h ▸ List.filter_sublist

/-- The row that a `where` argument finds is a row of the table. -/
theorem mem_of_findRow {condition : Option Json} {e : RowKey × Row}
    (h : t.findRow condition = .ok (some e)) : e ∈ t.rows := by
  unfold Table.findRow at h
  cases hr : t.findRows condition with
  | error fault => simp [hr, Except.map] at h
  | ok rows =>
    simp only [hr, Except.map, Except.ok.injEq] at h
    exact (sublist_of_findRows hr).subset (List.mem_of_head? h)

/-- A relation of the record that a lookup finds is read from this record. -/
theorem relation_eq_readRelation {delegate field : String} {lookup : Json} {f : Field}
    {e : RowKey × Row} (ht : s.tableFor delegate = .ok t) (hf : t.model.field? field = some f)
    (hrelation : f.isRelation = true) (hrow : t.findRow (lookup.get? "where") = .ok (some e))
    (args : Json) : s.relation delegate lookup field args = s.readRelation t e.2.data f args := by
  simp [relation, ht, hf, hrelation, hrow, bind, Except.bind]

/-! ## Replacing tables -/

/-- Finding tables after one was replaced. -/
theorem tableOf_setTable (s : Store) (t : Table) (model : String) :
    (s.setTable t).tableOf model = if model = t.model.name then .ok t else s.tableOf model := by
  unfold tableOf setTable
  rw [Entries.get?_insert]
  split_ifs <;> rfl

/-- The rows after a table was replaced. -/
theorem rowsOf_setTable (s : Store) (t : Table) (model : String) :
    (s.setTable t).rowsOf model = if model = t.model.name then t.rows else s.rowsOf model := by
  unfold rowsOf setTable
  rw [Entries.get?_insert]
  split_ifs <;> rfl

/-- The table of a model after it was replaced by another of the model. -/
theorem Named.tableOf_setTable_self (hs : s.Named) {t' : Table} (found : s.tableOf model = .ok t)
    (hm : t'.model = t.model) : (s.setTable t').tableOf model = .ok t' := by
  rw [tableOf_setTable, hm, hs model t found, if_pos rfl]

/-- A delegate addresses the new table after that of its model was replaced. -/
theorem Named.tableFor_setTable_self (hs : s.Named) {t' : Table} {delegate : String}
    (h : s.tableFor delegate = .ok t) (hm : t'.model = t.model) :
    (s.setTable t').tableFor delegate = .ok t' := by
  obtain ⟨model, hdelegate, found⟩ := tableFor_eq_ok_iff.mp h
  exact tableFor_eq_ok_iff.mpr ⟨model, hdelegate, hs.tableOf_setTable_self found hm⟩

/-- A delegate addresses the same table after the table of another model was replaced. -/
theorem Named.tableFor_setTable_of_ne (hs : s.Named) {t' : Table} {delegate : String}
    (h : s.tableFor delegate = .ok t) (hne : t.model.name ≠ t'.model.name) :
    (s.setTable t').tableFor delegate = .ok t := by
  obtain ⟨model, hdelegate, found⟩ := tableFor_eq_ok_iff.mp h
  refine tableFor_eq_ok_iff.mpr ⟨model, hdelegate, ?_⟩
  rw [tableOf_setTable, ← hs model t found, if_neg hne, hs model t found, found]

/-- Of two tables of one model the second counts. -/
theorem setTable_setTable (s : Store) {t t' : Table} (h : t'.model = t.model) :
    (s.setTable t).setTable t' = s.setTable t' := by
  simp [setTable, h, Entries.insert_insert_self]

/-- Tables of different models may be replaced in either order, if one of the models has a table. -/
theorem setTable_comm {t' t₀ : Table} (hne : t.model.name ≠ t'.model.name)
    (found : s.tableOf t.model.name = .ok t₀) :
    (s.setTable t).setTable t' = (s.setTable t').setTable t := by
  have hmem : t.model.name ∈ s.tables.names :=
    Entries.name_mem_names (Entries.mem_of_get?_eq_some (tableOf_eq_ok_iff.mp found))
  simp [setTable, Entries.insert_comm hne hmem]

/-- Replacing a table by itself changes nothing. -/
theorem setTable_of_tableOf (h : s.tableOf t.model.name = .ok t) : s.setTable t = s := by
  simp [setTable, Entries.insert_of_get? (tableOf_eq_ok_iff.mp h)]

/-- Replacing a table by one of the same model keeps tables under the names of their models. -/
theorem Named.setTable (hs : s.Named) (t : Table) : (s.setTable t).Named := by
  intro model found h
  rw [tableOf_setTable] at h
  split_ifs at h with hm
  · cases h
    exact hm.symm
  · exact hs model found h

/-! ## The store without rows -/

/-- A table of the store without rows is the one of a model of the document. -/
theorem tableOf_ofModels {models : List Model} (h : (ofModels models).tableOf model = .ok t) :
    ∃ m ∈ models, m.name = model ∧ t = Table.empty m := by
  rw [tableOf_eq_ok_iff] at h
  have hmem := Entries.mem_ofList (Entries.mem_of_get?_eq_some h)
  obtain ⟨m, hm, heq⟩ := List.mem_map.mp hmem
  cases heq
  exact ⟨m, hm, rfl, rfl⟩

/-- The store without rows has its tables under the names of their models. -/
theorem named_ofModels (models : List Model) : (ofModels models).Named := by
  intro model t h
  obtain ⟨m, -, hname, rfl⟩ := tableOf_ofModels h
  exact hname

end ModelGateway.Store
