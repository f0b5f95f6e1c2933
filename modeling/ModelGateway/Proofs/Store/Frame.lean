import ModelGateway.Proofs.Store.Address
import ModelGateway.Proofs.Store.Failure
import ModelGateway.Proofs.Store.Nulls
import ModelGateway.Proofs.Store.Order
import ModelGateway.Proofs.Store.Select

/-!
# What an update leaves alone

An update changes one row of one table, and of that row only some columns.

* **Columns** (`Progress.Rewriting.get?_eq`): a column keeps its value unless the data names it, or
  a relation whose foreign key it belongs to, or it holds the time of the last update
  (`Model.Touches`).
* **Rows** (`Table.Sound.rows_of_update`): the changed record may get another key. No third row
  stands under that key: it would have the identity of the changed record, and so clash with it.
* **Stores** (`Store.Reachable.update_frame`): the row that changes is the first one that `where`
  finds, in the order of creation. It keeps its place and its sequence number, and all other rows of
  all tables stay as they are.
-/

namespace ModelGateway

/-! ## Columns -/

/-- The data of an update may change a column: it names the column itself or a relation whose
foreign key the column belongs to, or the column holds the time of the last update. -/
inductive Model.Touches (m : Model) (data : Entries Json) (column : String) : Prop
  | given {f : Field} (found : m.field? column = some f) (scalar : f.isRelation = false)
      (named : column ∈ data.names)
  | foreignKey {f : Field} (declared : f ∈ m.fields) (relation : f.isRelation = true)
      (named : f.name ∈ data.names) (owned : column ∈ f.fromFields)
  | updatedAt {f : Field} (declared : f ∈ m.fields) (stamped : f.isUpdatedAt = true)
      (name : f.name = column)

variable {m : Model} {column : String} {data : Entries Json}

/-- The columns that a relation argument sets belong to the foreign key. -/
theorem Field.mem_fromFields_of_mem_keyColumns {f : Field} {argument : Json}
    (h : column ∈ f.keyColumns argument) : column ∈ f.fromFields := by
  unfold keyColumns at h
  split at h
  · obtain ⟨pair, hpair, rfl⟩ := List.mem_map.mp h
    exact (List.of_mem_zip hpair).1
  · exact h

/-- A column that an entry of the data writes is touched. -/
theorem Model.touches_of_writes {entry : String × Json} (he : entry ∈ data)
    (h : m.Writes column entry) : m.Touches data column := by
  obtain ⟨f, hf, hwrites⟩ := h
  have hnamed : entry.1 ∈ data.names := Entries.name_mem_names he
  have hname : f.name = entry.1 := name_of_field? hf
  split_ifs at hwrites with hrelation
  · apply Touches.foreignKey (List.mem_of_find?_eq_some hf) hrelation (hname ▸ hnamed)
    exact Field.mem_fromFields_of_mem_keyColumns hwrites
  · subst hwrites
    exact .given hf (by simpa using hrelation) hnamed

namespace Store

variable {s : Store} {r r' : Record}

/-- An entry leaves a column alone that it does not write. -/
theorem get?_applyEntry {entry : String × Json} (h : s.applyEntry m r entry = .ok r')
    (hw : ¬ m.Writes column entry) : Entries.get? r' column = Entries.get? r column := by
  cases applied_of_applyEntry h with
  | @relation f columns found relation set =>
    have hnot : column ∉ f.keyColumns entry.2 := by
      intro hmem
      exact hw ⟨f, found, by rwa [if_pos relation]⟩
    rw [Entries.get?_extend, (get?_foreignKey set column).1.mpr hnot, Option.none_or]
  | @column f next found scalar _ =>
    have hne : column ≠ entry.1 := by
      intro heq
      exact hw ⟨f, found, by simp [scalar, heq]⟩
    rw [Entries.get?_insert_of_ne _ _ hne]

/-- The entries of an update leave a column alone that none of them writes. -/
theorem get?_applyData (h : s.applyData m data r = .ok r')
    (hw : ∀ entry ∈ data, ¬ m.Writes column entry) :
    Entries.get? r' column = Entries.get? r column := by
  induction data generalizing r with
  | nil =>
    cases h
    rfl
  | cons entry rest ih =>
    obtain ⟨hentry, hrest⟩ := List.forall_mem_cons.mp hw
    rw [applyData_cons] at h
    obtain ⟨r₁, happlied, h⟩ := Except.bind_eq_ok_iff.mp h
    rw [ih h hrest, get?_applyEntry happlied hentry]

/-- Entries are applied as those of a first part and then those of the rest. -/
theorem applyData_append (before after : Entries Json) :
    s.applyData m (before ++ after) r = s.applyData m before r >>= s.applyData m after := by
  induction before generalizing r with
  | nil => rfl
  | cons entry rest ih =>
    rw [List.cons_append, applyData_cons, applyData_cons]
    cases s.applyEntry m r entry with
    | error fault => rfl
    | ok r₁ => exact ih

/-- Each entry of an update that succeeds is applied to what the entries before it have left. -/
theorem exists_applyEntry_of_mem {entry : String × Json} (h : s.applyData m data r = .ok r')
    (he : entry ∈ data) :
    ∃ before after q q', data = before ++ entry :: after ∧ s.applyData m before r = .ok q ∧
      s.applyEntry m q entry = .ok q' ∧ s.applyData m after q' = .ok r' := by
  obtain ⟨before, after, rfl⟩ := List.append_of_mem he
  rw [applyData_append] at h
  obtain ⟨q, hq, h⟩ := Except.bind_eq_ok_iff.mp h
  rw [applyData_cons] at h
  obtain ⟨q', hq', h⟩ := Except.bind_eq_ok_iff.mp h
  exact ⟨before, after, q, q', rfl, hq, hq', h⟩

end Store

/-- The clock writes a column in an update: it holds the time of the last update, and the data does
not name it. -/
def Model.Clocked (m : Model) (data : Entries Json) (column : String) : Prop :=
  data.contains column = false ∧ ∃ f ∈ m.fields, f.isUpdatedAt = true ∧ f.name = column

/-- Stamping the time of an update leaves the columns alone that the clock does not write. -/
theorem get?_stampUpdated (supply : Supply) {r : Record} {drawn : Nat}
    (h : ¬ m.Clocked data column) :
    Entries.get? (stampUpdated supply data m.fields r drawn).2 column = Entries.get? r column := by
  rw [Model.Clocked] at h
  generalize m.fields = fields at h ⊢
  induction fields generalizing r drawn with
  | nil => rfl
  | cons f rest ih =>
    have hrest : ¬ (data.contains column = false ∧
        ∃ f ∈ rest, f.isUpdatedAt = true ∧ f.name = column) := by
      rintro ⟨habsent, g, hg, hupdated⟩
      exact h ⟨habsent, g, List.mem_cons_of_mem _ hg, hupdated⟩
    rw [stampUpdated]
    split_ifs with hstamps
    · obtain ⟨hupdated, habsent⟩ := by
        simpa only [Bool.and_eq_true, Bool.not_eq_true'] using hstamps
      have hne : column ≠ f.name := by
        rintro rfl
        exact h ⟨habsent, f, List.mem_cons_self, hupdated, rfl⟩
      rw [ih hrest, Entries.get?_insert_of_ne _ _ hne]
    · exact ih hrest

/-- A rewritten row keeps its columns that the data does not touch. -/
theorem Progress.Rewriting.get?_eq {supply : Supply} {p : Progress} {t : Table} {row : Row}
    {drawn : Nat} {r : Record} (h : Rewriting supply p t row data drawn r)
    (hnot : ¬ t.model.Touches data column) :
    Entries.get? r column = Entries.get? row.data column := by
  obtain ⟨applied, happlied, hstamped⟩ := h.rewritten
  have hstamp : Entries.get? r column = Entries.get? applied column := by
    have hget : Entries.get? (stampUpdated supply data t.model.fields applied p.drawn).2 column =
        Entries.get? applied column := by
      apply get?_stampUpdated
      rintro ⟨-, f, hf, hupdated, hname⟩
      exact hnot (.updatedAt hf hupdated hname)
    rwa [hstamped] at hget
  rw [hstamp]
  apply Store.get?_applyData happlied
  intro entry he hwrites
  exact hnot (Model.touches_of_writes he hwrites)

/-! ## Rows -/

namespace Table

variable {t t' : Table} {e : RowKey × Row} {r : Record} {before after : List (RowKey × Row)}

/-- The first row that passes a filter, in the order of creation, between the rows before it and the
rows after it. -/
structure FirstMatch (t : Table) (filter : Filter) (before : List (RowKey × Row))
    (e : RowKey × Row) (after : List (RowKey × Row)) : Prop where
  rows : t.rows = before ++ e :: after
  passes : filter.matches e.2.data = true
  earlier : ∀ x ∈ before, x.2.sequence < e.2.sequence ∧ filter.matches x.2.data = false
  later : ∀ x ∈ after, e.2.sequence < x.2.sequence

/-- The row that a `where` finds is the first one that passes its filter. -/
theorem Sound.firstMatch_of_findRow (h : t.Sound) {condition : Option Json}
    (hfound : t.findRow condition = .ok (some e)) :
    ∃ filter before after, Filter.ofArgument t.model condition = .ok filter ∧
      t.FirstMatch filter before e after := by
  rw [findRow, findRows_eq_filter] at hfound
  obtain ⟨rows, hrows, hhead⟩ := Except.map_eq_ok_iff.mp hfound
  obtain ⟨filter, hfilter, rfl⟩ := Except.map_eq_ok_iff.mp hrows
  rw [List.head?_filter] at hhead
  obtain ⟨hpass, before, after, hsplit, hbefore⟩ := List.find?_eq_some_iff_append.mp hhead
  have hsorted := h.sorted
  rw [hsplit] at hsorted
  obtain ⟨-, hafter, hearlier⟩ := List.pairwise_append.mp hsorted
  refine ⟨filter, before, after, hfilter, hsplit, hpass, ?_, (List.pairwise_cons.mp hafter).1⟩
  intro x hx
  exact ⟨hearlier x hx e List.mem_cons_self, by simpa using hbefore x hx⟩

/-- No other row stands under the key of a record that is stored for a row, if the record is
identified. Without identifying fields the key is the sequence number of the row. -/
theorem Sound.key_ne_of_store (h : t.Sound) (he : e ∈ t.rows)
    (hs : t.store r e.2.sequence (some e.1) = .ok t') (hr : Record.WellFormed r)
    (hid : t.model.identifyingFields ≠ [] → t.model.Identified r) {x : RowKey × Row}
    (hx : x ∈ t.rows) (hne : x ≠ e) : x.1 ≠ t.keyFor r e.2.sequence := by
  intro hkey
  rw [h.keyed x hx, keyFor_eq_iff] at hkey
  split_ifs at hkey with hids
  · exact hne (List.inj_on_of_nodup_map h.nodup_sequences hx he hkey)
  · obtain ⟨group, hgroup, hclash⟩ := (hid hids).exists_clashes hr hkey.symm
    have hother : some e.1 ≠ some x.1 := by
      intro heq
      exact hne (List.inj_on_of_nodup_map h.keys_nodup hx he (Option.some.inj heq).symm)
    exact clashingGroup?_eq_none_iff.mp (store_eq_ok_iff.mp hs).1 x hx hother group hgroup hclash

/-- A record that is stored for a row takes its place, and all other rows stay. -/
theorem Sound.rows_of_update (h : t.Sound) (hrows : t.rows = before ++ e :: after)
    (hs : t.store r e.2.sequence (some e.1) = .ok t') (hr : Record.WellFormed r)
    (hid : t.model.identifyingFields ≠ [] → t.model.Identified r) :
    t'.rows = before ++ (t.keyFor r e.2.sequence, ⟨e.2.sequence, r⟩) :: after := by
  have he : e ∈ t.rows := by
    rw [hrows]
    exact List.mem_append_right _ List.mem_cons_self
  have hnodup : (before ++ e :: after).Nodup := by
    rw [← hrows]
    exact h.keys_nodup.of_map
  have hnot : e ∉ before ∧ e ∉ after := by
    rw [List.nodup_append, List.nodup_cons] at hnodup
    exact ⟨fun hmem => hnodup.2.2 e hmem e List.mem_cons_self rfl, hnodup.2.1.1⟩
  have hstay : ∀ {part : List (RowKey × Row)}, part.Sublist t.rows → e ∉ part →
      part.filter (·.1 ≠ t.keyFor r e.2.sequence) = part := by
    intro part hpart hnotin
    rw [List.filter_eq_self]
    intro x hx
    have hne : x ≠ e := by
      rintro rfl
      exact hnotin hx
    simpa using h.key_ne_of_store he hs hr hid (hpart.subset hx) hne
  obtain ⟨before', after', hrows', hreplaced⟩ := h.replaces_of_store he hs
  -- `e` occurs once, so both splits of the rows are the same
  rw [hrows] at hrows'
  obtain ⟨rfl, -, rfl⟩ := (List.append_cons_inj_of_notMem hnot.1 hnot.2).mp hrows'
  have hsub : (before ++ e :: after).Sublist t.rows := by rw [hrows]
  rw [hreplaced, hstay ((List.sublist_append_left _ _).trans hsub) hnot.1,
    hstay (((List.sublist_cons_self e after).trans (List.sublist_append_right _ _)).trans hsub)
      hnot.2]

end Table

/-! ## Stores -/

namespace Store

variable {d : Document} {s : Store} {t : Table} {supply : Supply} {args : Json} {op : Operation}
  {row : Row} {r : Record}

/-- All that an update may change: of the rows of a table the first one that passes a filter, and of
that row the key and the columns that the data touches. -/
structure UpdateFrame (s s' : Store) (t : Table) (filter : Filter) (row : Row) (r : Record)
    (data : Entries Json) : Prop where
  changed : ∃ key before after, t.FirstMatch filter before (key, row) after ∧
    s'.tableOf t.model.name = .ok { t with
      rows := before ++ (t.keyFor r row.sequence, ⟨row.sequence, r⟩) :: after }
  columns : ∀ column, Entries.get? r column ≠ Entries.get? row.data column →
    t.model.Touches data column
  others : ∀ model, model ≠ t.model.name → s'.tableOf model = s.tableOf model
  rowCount : ∀ model, s'.rowCount model = s.rowCount model

/-- Replacing a table by one of the same model with as many rows keeps all numbers of records. -/
theorem rowCount_setTable {t' : Table} (found : s.tableOf t.model.name = .ok t)
    (hm : t'.model = t.model) (hlength : t'.rows.length = t.rows.length) (model : String) :
    (s.setTable t').rowCount model = s.rowCount model := by
  rw [rowCount_eq_length, rowCount_eq_length, rowsOf_setTable, hm]
  split_ifs with hname
  · rw [hname, rowsOf_of_tableOf found, hlength]
  · rfl

/-- Storing a rewritten record in the place of the first row that passes a filter changes this row
alone. -/
theorem Sound.updateFrame (hs : s.Sound d) (found : s.tableOf t.model.name = .ok t) {t' : Table}
    {filter : Filter} {key : RowKey} {before after : List (RowKey × Row)} {data : Entries Json}
    {drawn : Nat} (hfirst : t.FirstMatch filter before (key, row) after)
    (hrewriting : Progress.Rewriting supply ⟨s, 0⟩ t row data drawn r)
    (hstored : t.store r row.sequence (some key) = .ok t')
    (hrows : t'.rows = before ++ (t.keyFor r row.sequence, ⟨row.sequence, r⟩) :: after) :
    s.UpdateFrame (s.setTable t') t filter row r data := by
  obtain ⟨hmodel, hcounter, hnext⟩ := Table.store_frame hstored
  have ht' : t' = { t with
      rows := before ++ (t.keyFor r row.sequence, ⟨row.sequence, r⟩) :: after } := by
    rw [← hrows, ← hmodel, ← hcounter, ← hnext]
  refine ⟨⟨key, before, after, hfirst, ?_⟩, ?_, ?_, ?_⟩
  · rw [← ht', hs.named.tableOf_setTable_self found hmodel]
  · intro column hchanged
    by_contra hnot
    exact hchanged (hrewriting.get?_eq hnot)
  · intro model hne
    rw [tableOf_setTable, hmodel, if_neg hne]
  · apply rowCount_setTable found hmodel
    rw [hrows, hfirst.rows]
    simp

/-- An update that succeeds changes the first row that `where` finds, in columns that its data
touches, and nothing else: neither the number of records nor any other row of any table. -/
theorem Reachable.update_frame (hd : d.WellFormed) (h : Reachable d s) {delegate : String}
    (ht : s.tableFor delegate = .ok t)
    (hdeclared : ∀ column ∈ t.model.primaryKeyNames, (t.model.field? column).isSome)
    (hcolumns : ∀ f ∈ t.model.identifyingFields, f.isRelation = false)
    (hargs : args.WellFormed) (hw : s.Writes supply t args op (some row) r)
    (hgiven : ∀ f ∈ t.model.identifyingFields, Record.value r f.name ≠ .null) :
    ∃ filter data, Filter.ofArgument t.model (args.get? "where") = .ok filter ∧
      argument args (updateArgument op) = .obj data ∧
      s.UpdateFrame (s.execute supply delegate op args).1 t filter row r data := by
  have hs := h.sound hd
  have found := hs.named.tableOf_of_tableFor ht
  have htable := hs.table _ t found
  obtain ⟨key, hfound, hr, hstore⟩ := hw.exists_update
  obtain ⟨t', data, drawn, hobject, hrewriting, hstored, hset⟩ :=
    Progress.exists_stored_of_update found hr
  obtain ⟨filter, before, after, hfilter, hfirst⟩ := htable.firstMatch_of_findRow hfound
  have hdata : (Json.obj data).WellFormed := hobject ▸ argument_wellFormed hargs (updateArgument op)
  have hwellFormed : Record.WellFormed r :=
    hrewriting.wellFormed (htable.wellFormed _ (mem_of_findRow hfound))
      (Json.wellFormed_obj.mp hdata).2
  have hrows : t'.rows = before ++ (t.keyFor r row.sequence, ⟨row.sequence, r⟩) :: after :=
    htable.rows_of_update hfirst.rows hstored hwellFormed fun hids =>
      Model.identified_of_given hids hdeclared hcolumns hgiven
  refine ⟨filter, data, hfilter, hobject, ?_⟩
  rw [execute, ht]
  dsimp only
  rw [hstore, hset]
  exact hs.updateFrame found hfirst hrewriting hstored hrows

/-- A seat that gets another number keeps its place, its row and its guest, and the other seat
stays. -/
theorem seats_update_frame :
    let s := Seats.made [
      .execute "seat" .create (.obj [("data", Seats.seat (.ofNat 1) (.ofNat 1) (.ofNat 7))]),
      .execute "seat" .create (.obj [("data", Seats.seat (.ofNat 1) (.ofNat 2) .null)])]
    let t := s.current (Table.empty Seats.model)
    let args := Json.obj [("where", .obj [("number", .ofNat 1)]),
      ("data", .obj [("number", .ofNat 3)])]
    let row : Row := ⟨1, [("row", .ofNat 1), ("number", .ofNat 1), ("guest", .ofNat 7)]⟩
    let r : Record := [("row", .ofNat 1), ("number", .ofNat 3), ("guest", .ofNat 7)]
    Seats.document.WellFormed ∧ Reachable Seats.document s ∧ s.tableFor "seat" = .ok t ∧
      t.sequences = [1, 2] ∧
      (∀ column ∈ t.model.primaryKeyNames, (t.model.field? column).isSome) ∧
      (∀ f ∈ t.model.identifyingFields, f.isRelation = false) ∧ args.WellFormed ∧
      s.Writes Seats.supply t args .update (some row) r ∧
      (∀ f ∈ t.model.identifyingFields, Record.value r f.name ≠ .null) ∧
      ∃ filter data, Filter.ofArgument t.model (args.get? "where") = .ok filter ∧
        argument args (updateArgument .update) = .obj data ∧
        s.UpdateFrame (s.execute Seats.supply "seat" .update args).1 t filter row r data := by
  intro s t args row r
  have hs : Reachable Seats.document s :=
    Seats.reachable_made (by simp [Call.WellFormed, Entries.names])
  have ht : s.tableFor "seat" = .ok t := rfl
  have hdeclared : ∀ column ∈ t.model.primaryKeyNames, (t.model.field? column).isSome := by
    decide
  have hcolumns : ∀ f ∈ t.model.identifyingFields, f.isRelation = false := by decide
  have hargs : args.WellFormed := by simp [args, Entries.names]
  have hfound : t.findRow (args.get? "where") =
      .ok (some (.values [.ofNat 1, .ofNat 1], row)) := rfl
  have hwritten : (Progress.update Seats.supply ⟨s, 0⟩ t.model.name
      (.values [.ofNat 1, .ofNat 1]) row (argument args "data")).2 = .ok r := by decide +kernel
  have hw : s.Writes Seats.supply t args .update (some row) r := .update hfound hwritten
  have hgiven : ∀ f ∈ t.model.identifyingFields, Record.value r f.name ≠ .null := by decide
  exact ⟨Seats.document_wellFormed, hs, ht, rfl, hdeclared, hcolumns, hargs, hw, hgiven,
    hs.update_frame Seats.document_wellFormed ht hdeclared hcolumns hargs hw hgiven⟩

end Store

end ModelGateway
