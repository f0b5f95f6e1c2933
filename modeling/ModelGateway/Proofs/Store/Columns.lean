import ModelGateway.Proofs.Record.Distinct
import ModelGateway.Proofs.Record.Paging
import ModelGateway.Proofs.Store.Connection
import ModelGateway.Proofs.Store.Frame
import ModelGateway.Proofs.Store.Records

/-!
# The columns of records

In a document whose models are `Model.Columnar` every stored record has the columns of its model,
all of them and no others, in the order of their declaration.

* **Creating** (`Progress.Filling.names_eq`): a record is filled with the columns one after another.
* **Updating** (`Progress.Rewriting.names_eq`): the data of an update, the foreign keys of its
  relations and the clock write only names that the record has (`Model.Touches`), and each of these
  keeps its place.
* **Reading** (`Table.columns_eq`): showing all columns of such a record shows the record as it
  stands, so that finding records and reading relations answers with stored records
  (`Table.FindsWhole`, `Store.LeadsWhole`).

Together they give `Store.Reachable.inColumns`.
-/

namespace ModelGateway

/-! ## Models -/

namespace Model

variable {m : Model} {column : String} {data : Entries Json}

/-- The names of the columns, in declaration order. -/
def columnNames (m : Model) : List String :=
  m.scalarFields.map (·.name)

/-- The fields of a model have different names, its foreign keys are made of its columns, and what
holds the time of the last update is a column. -/
structure Columnar (m : Model) : Prop where
  names_nodup : (m.fields.map (·.name)).Nodup
  foreignKeys : ∀ f ∈ m.relationFields, ∀ column ∈ f.fromFields, column ∈ m.columnNames
  updatedAt : ∀ f ∈ m.fields, f.isUpdatedAt = true → f.isRelation = false

/-- A field that is no relation is a column. -/
theorem name_mem_columnNames {f : Field} (hf : f ∈ m.fields) (hscalar : f.isRelation = false) :
    f.name ∈ m.columnNames :=
  List.mem_map_of_mem (List.mem_filter.mpr ⟨hf, by simp [hscalar]⟩)

/-- The columns have different names. -/
theorem Columnar.nodup_columnNames (h : m.Columnar) : m.columnNames.Nodup :=
  h.names_nodup.sublist (List.filter_sublist.map _)

/-- An update touches columns only. -/
theorem Columnar.mem_columnNames_of_touches (h : m.Columnar) (ht : m.Touches data column) :
    column ∈ m.columnNames := by
  cases ht with
  | @given f found scalar named =>
    obtain rfl : f.name = column := name_of_field? found
    exact name_mem_columnNames (List.mem_of_find?_eq_some found) scalar
  | @foreignKey f declared relation named owned =>
    exact h.foreignKeys f (List.mem_filter.mpr ⟨declared, relation⟩) column owned
  | @updatedAt f declared stamped name =>
    exact name ▸ name_mem_columnNames declared (h.updatedAt f declared stamped)

end Model

/-! ## Creating -/

/-- Filling a record adds the names of the fields in their order. -/
theorem Draft.names_fill {supply : Supply} {data connected : Entries Json} {fields : List Field}
    {d d' : Draft} {r r' : Record} (hfresh : (Entries.names r ++ fields.map (·.name)).Nodup)
    (h : fill supply data connected fields r d = (d', .ok r')) :
    Entries.names r' = Entries.names r ++ fields.map (·.name) := by
  induction fields generalizing r d with
  | nil =>
    cases h
    rw [List.map_nil, List.append_nil]
  | cons f rest ih =>
    have hnew : f.name ∉ Entries.names r := by
      intro hmem
      exact (List.nodup_append.mp hfresh).2.2 _ hmem _ List.mem_cons_self rfl
    have hnames : ∀ value, Entries.names (Entries.insert r f.name value) ++ rest.map (·.name) =
        Entries.names r ++ (f :: rest).map (·.name) := by
      intro value
      rw [Entries.names_insert, if_neg hnew, List.append_assoc, List.singleton_append,
        List.map_cons]
    rw [fill_cons] at h
    rcases hcolumn : column supply data connected f d with ⟨d₁, fault | value⟩
    · rw [hcolumn] at h
      cases h
    · rw [hcolumn] at h
      rw [ih (by rwa [hnames]) h, hnames]

/-- A record that is filled has the columns of its model in their order. -/
theorem Progress.Filling.names_eq {supply : Supply} {p : Progress} {t : Table}
    {entries : Entries Json} {draft : Draft} {r : Record}
    (h : Filling supply p t entries draft (.ok r)) (hn : t.model.columnNames.Nodup) :
    Entries.names r = t.model.columnNames := by
  obtain ⟨pairs, -, hfill⟩ := h.filled_eq
  have hfresh : (Entries.names ([] : Record) ++ t.model.scalarFields.map (·.name)).Nodup := hn
  exact Draft.names_fill hfresh hfill

/-! ## Updating -/

namespace Store

variable {s : Store} {m : Model} {r r' : Record} {data : Entries Json}

/-- An entry that writes only names that the record has leaves the names as they are. -/
theorem names_applyEntry {entry : String × Json} (h : s.applyEntry m r entry = .ok r')
    (hw : ∀ column, m.Writes column entry → column ∈ Entries.names r) :
    Entries.names r' = Entries.names r := by
  cases applied_of_applyEntry h with
  | @relation f columns found relation set =>
    apply Entries.names_extend_of_subset
    intro column hc
    have hset : column ∈ f.keyColumns entry.2 := by
      by_contra hnot
      have hnone := (get?_foreignKey set column).1.mpr hnot
      rw [Entries.get?_eq_none_iff, Entries.names, List.map_reverse, List.mem_reverse] at hnone
      exact hnone hc
    exact hw column ⟨f, found, by rwa [if_pos relation]⟩
  | @column f next found scalar _ =>
    have hheld : entry.1 ∈ Entries.names r := hw entry.1 ⟨f, found, by simp [scalar]⟩
    rw [Entries.names_insert, if_pos hheld]

/-- Entries that write only names that the record has leave the names as they are. -/
theorem names_applyData (h : s.applyData m data r = .ok r')
    (hw : ∀ entry ∈ data, ∀ column, m.Writes column entry → column ∈ Entries.names r) :
    Entries.names r' = Entries.names r := by
  induction data generalizing r with
  | nil =>
    cases h
    rfl
  | cons entry rest ih =>
    obtain ⟨hentry, hrest⟩ := List.forall_mem_cons.mp hw
    rw [applyData_cons] at h
    obtain ⟨r₁, happlied, h⟩ := Except.bind_eq_ok_iff.mp h
    have hnames := names_applyEntry happlied hentry
    rw [ih h (by rwa [hnames]), hnames]

end Store

/-- Stamping adds no column to a record that holds those that are stamped. -/
theorem names_stampUpdated (supply : Supply) (data : Entries Json) {fields : List Field}
    {r : Record} (h : ∀ f ∈ fields, f.isUpdatedAt = true → f.name ∈ Entries.names r)
    (drawn : Nat) :
    Entries.names (stampUpdated supply data fields r drawn).2 = Entries.names r := by
  induction fields generalizing r drawn with
  | nil => rfl
  | cons f rest ih =>
    obtain ⟨hf, hrest⟩ := List.forall_mem_cons.mp h
    rw [stampUpdated]
    split_ifs with hstamps
    · have hmem := hf (Bool.and_eq_true_iff.mp hstamps).1
      have hnames : Entries.names (Entries.insert r f.name (.str (supply.instant drawn))) =
          Entries.names r := by
        rw [Entries.names_insert, if_pos hmem]
      rw [ih (by rwa [hnames]), hnames]
    · exact ih hrest drawn

/-- A rewritten row has the names that it had, if it had all those that the update touches. -/
theorem Progress.Rewriting.names_eq {supply : Supply} {p : Progress} {t : Table} {row : Row}
    {entries : Entries Json} {drawn : Nat} {r : Record}
    (h : Rewriting supply p t row entries drawn r)
    (hheld : ∀ column, t.model.Touches entries column → column ∈ Entries.names row.data) :
    Entries.names r = Entries.names row.data := by
  obtain ⟨applied, happlied, hstamped⟩ := h.rewritten
  have hnames : Entries.names applied = Entries.names row.data := by
    apply Store.names_applyData happlied
    intro entry hentry column hwrites
    exact hheld column (Model.touches_of_writes hentry hwrites)
  have hstamps : ∀ f ∈ t.model.fields, f.isUpdatedAt = true → f.name ∈ Entries.names applied := by
    intro f hf hupdated
    rw [hnames]
    exact hheld f.name (.updatedAt hf hupdated rfl)
  have hstampedNames := names_stampUpdated supply entries hstamps p.drawn
  rw [hstamped] at hstampedNames
  rw [hstampedNames, hnames]

/-- In a document with such models, having the columns of the model in their order is what creations
give a record and updates keep. -/
theorem recordInvariant_columns {d : Document} (hm : ∀ m ∈ d.models, m.Columnar) :
    RecordInvariant d fun m r => Entries.names r = m.columnNames where
  filled hmodel filling := filling.names_eq (hm _ hmodel).nodup_columnNames
  rewritten hmodel rewriting hrow := by
    refine (rewriting.names_eq ?_).trans hrow
    intro column htouches
    rw [hrow]
    exact (hm _ hmodel).mem_columnNames_of_touches htouches

/-! ## Reading -/

namespace Table

variable {t : Table} {r : Record} {args : Json} {records : List Record}

/-- All columns of a record that has the columns of the model in their order are the record. -/
theorem columns_eq (hn : t.model.columnNames.Nodup) (hr : Entries.names r = t.model.columnNames) :
    t.columns r = r := by
  have hpairs : (t.model.scalarFields.map fun f => (f.name, Record.value r f.name)) = r := by
    calc (t.model.scalarFields.map fun f => (f.name, Record.value r f.name))
        = (Entries.names r).map fun name => (name, Record.value r name) := by
          rw [hr, Model.columnNames, List.map_map]
          rfl
      _ = r.map fun e => (e.1, Record.value r e.1) := by
          rw [Entries.names, List.map_map]
          rfl
      _ = r := by
          refine (List.map_congr_left fun e he => ?_).trans (List.map_id r)
          have hget := (Entries.get?_eq_some_iff_mem (hr ▸ hn)).mpr he
          rw [Record.value, hget]
          rfl
  rw [columns, hpairs, Entries.ofList_of_nodup (hr ▸ hn)]

/-- The records that are selected are records of the table. -/
theorem select_subset {scope : Option Filter} (h : t.select args scope = .ok records) :
    records ⊆ t.records := by
  unfold select at h
  obtain ⟨asked, -, h⟩ := Except.bind_eq_ok_iff.mp h
  obtain ⟨keys, -, h⟩ := Except.bind_eq_ok_iff.mp h
  have hsorted : ∀ test : Record → Bool, sortRecords keys (t.records.filter test) ⊆ t.records := by
    intro test
    exact List.Subset.trans (sortRecords_perm keys _).subset List.filter_sublist.subset
  have hpage : ∀ start : List Record, start ⊆ t.records →
      paginate (distinct (fieldList (args.get? "distinct")) start) args = .ok records →
      records ⊆ t.records := by
    intro start hstart hpaged
    exact List.Subset.trans (paginate_subset hpaged)
      (List.Subset.trans (distinct_subset _ _) hstart)
  dsimp only at h
  split at h
  · exact hpage _ (hsorted _) h
  · exact hpage _ (hsorted _) h
  · obtain ⟨cursor, -, h⟩ := Except.bind_eq_ok_iff.mp h
    exact hpage _ (List.Subset.trans (List.dropWhile_sublist _).subset (hsorted _)) h

/-- A record stands in the table, with the columns of the model in their order. -/
structure Holds (t : Table) (r : Record) : Prop where
  stored : r ∈ t.records
  columns : Entries.names r = t.model.columnNames

/-- The outcomes of an operation that finds records and shows them whole: the arguments cannot be
read, or the answer has the records that they select, as these stand in the table. -/
inductive FindsWhole (t : Table) (args : Json) : Operation → Except Fault Json → Prop
  | refused {op : Operation} {fault : Fault} (unread : t.select args none = .error fault) :
      t.FindsWhole args op (.error fault)
  | nothing {op : Operation} (optional : op ∈ [.findUnique, .findFirst])
      (selected : t.select args none = .ok []) : t.FindsWhole args op (.ok .null)
  | missing {op : Operation} (required : op ∈ [.findUniqueOrThrow, .findFirstOrThrow])
      (selected : t.select args none = .ok []) :
      t.FindsWhole args op (.error (.noRecord t.model.name))
  | one {op : Operation} {r : Record} {others : List Record}
      (single : op ∈ [.findUnique, .findFirst] ∨ op ∈ [.findUniqueOrThrow, .findFirstOrThrow])
      (selected : t.select args none = .ok (r :: others)) (held : t.Holds r) :
      t.FindsWhole args op (.ok (.obj r))
  | many {records : List Record} (selected : t.select args none = .ok records)
      (held : ∀ r ∈ records, t.Holds r) :
      t.FindsWhole args .findMany (.ok (.arr (records.map .obj)))

/-- The records of a table have the columns of its model, which have different names, in their
order. -/
structure InColumns (t : Table) : Prop where
  nodup : t.model.columnNames.Nodup
  records : ∀ r ∈ t.records, Entries.names r = t.model.columnNames

/-- The records that are selected are held by the table. -/
theorem InColumns.holds_of_select (h : t.InColumns) {scope : Option Filter}
    (hselect : t.select args scope = .ok records) (hr : r ∈ records) : t.Holds r :=
  ⟨select_subset hselect hr, h.records r (select_subset hselect hr)⟩

/-- A record that is held is the same in the shape of all columns. -/
theorem InColumns.columns_of_holds (h : t.InColumns) (hr : t.Holds r) : t.columns r = r :=
  columns_eq h.nodup hr.columns

/-- Records that are held are the same in the shape of all columns. -/
theorem InColumns.map_columns (h : t.InColumns) (hrecords : ∀ r ∈ records, t.Holds r) :
    (records.map fun r => Json.obj (t.columns r)) = records.map .obj :=
  List.map_congr_left fun r hr => by rw [h.columns_of_holds (hrecords r hr)]

end Table

/-! ## Stores -/

namespace Store

variable {d : Document} {s : Store} {t : Table} {f : Field} {r : Record} {found : Related}
  {args : Json}

/-- The outcomes of reading a relation of a record that shows records whole: it cannot be followed,
or the answer has the records that it leads to, as these stand in the table of the other model. -/
inductive LeadsWhole (s : Store) (t : Table) (r : Record) (f : Field) (args : Json) :
    Except Fault Json → Prop
  | refused {fault : Fault} (unread : s.related t r f args = .error fault) :
      s.LeadsWhole t r f args (.error fault)
  | nothing {target : Table} (related : s.related t r f args = .ok (.one target none)) :
      s.LeadsWhole t r f args (.ok .null)
  | one {target : Table} {b : Record} (related : s.related t r f args = .ok (.one target (some b)))
      (found : s.tableOf f.typeName = .ok target) (held : target.Holds b) :
      s.LeadsWhole t r f args (.ok (.obj b))
  | many {target : Table} {records : List Record}
      (related : s.related t r f args = .ok (.many target records))
      (found : s.tableOf f.typeName = .ok target) (held : ∀ b ∈ records, target.Holds b) :
      s.LeadsWhole t r f args (.ok (.arr (records.map .obj)))

/-- All records have the columns of their model in their order, and reads that do not ask for
another shape show records whole: the operations that find records of a table, and a relation of the
record that a lookup finds. -/
structure InColumns (s : Store) : Prop where
  tables : ∀ model t, s.tableOf model = .ok t → t.InColumns
  finds : ∀ supply delegate t args, s.tableFor delegate = .ok t → args.Unshaped →
    ∀ op ∈ [.findUnique, .findUniqueOrThrow, .findFirst, .findFirstOrThrow, .findMany],
      t.FindsWhole args op (s.execute supply delegate op args).2
  relations : ∀ delegate t lookup e field f args, s.tableFor delegate = .ok t →
    t.findRow (lookup.get? "where") = .ok (some e) → t.model.field? field = some f →
    f.isRelation = true → args.Unshaped →
      s.LeadsWhole t e.2.data f args (s.relation delegate lookup field args)

/-- The first record that is selected is shown whole, if there is one. -/
theorem findFirst_eq (ht : t.InColumns) (hargs : args.Unshaped) :
    s.findFirst t args = (t.select args none).map fun records =>
      match records with
      | [] => .null
      | r :: _ => .obj r := by
  unfold findFirst
  cases hselect : t.select args none with
  | error fault => rfl
  | ok records =>
    cases records with
    | nil => rfl
    | cons r others =>
      have hr := ht.holds_of_select hselect List.mem_cons_self
      calc s.project t r args = .ok (.obj (t.columns r)) := project_unshaped s t r hargs
        _ = .ok (.obj r) := by rw [ht.columns_of_holds hr]

/-- The records that are selected are shown whole. -/
theorem findMany_eq (ht : t.InColumns) (hargs : args.Unshaped) :
    s.findMany t args = (t.select args none).map fun records => .arr (records.map .obj) := by
  unfold findMany
  cases hselect : t.select args none with
  | error fault => rfl
  | ok records =>
    have hheld : ∀ r ∈ records, t.Holds r := fun r => ht.holds_of_select hselect
    calc s.projectAll t records args
        = .ok (.arr (records.map fun r => .obj (t.columns r))) :=
          projectAll_unshaped s t records hargs
      _ = .ok (.arr (records.map .obj)) := by rw [ht.map_columns hheld]

/-- Finding the first record shows it whole. -/
theorem findsWhole_findFirst (ht : t.InColumns) (hargs : args.Unshaped) {op : Operation}
    (hop : op ∈ [.findUnique, .findFirst]) : t.FindsWhole args op (s.findFirst t args) := by
  rw [findFirst_eq ht hargs]
  cases hselect : t.select args none with
  | error fault => exact .refused hselect
  | ok records =>
    cases records with
    | nil => exact .nothing hop hselect
    | cons r others =>
      exact .one (.inl hop) hselect (ht.holds_of_select hselect List.mem_cons_self)

/-- Finding the first record or failing shows it whole. -/
theorem findsWhole_findFirstOrFail (ht : t.InColumns) (hargs : args.Unshaped) {op : Operation}
    (hop : op ∈ [.findUniqueOrThrow, .findFirstOrThrow]) :
    t.FindsWhole args op (s.findFirstOrFail t args) := by
  rw [findFirstOrFail, findFirst_eq ht hargs]
  cases hselect : t.select args none with
  | error fault => exact .refused hselect
  | ok records =>
    cases records with
    | nil => exact .missing hop hselect
    | cons r others =>
      exact .one (.inr hop) hselect (ht.holds_of_select hselect List.mem_cons_self)

/-- Finding records shows them whole. -/
theorem findsWhole_findMany (ht : t.InColumns) (hargs : args.Unshaped) :
    t.FindsWhole args .findMany (s.findMany t args) := by
  rw [findMany_eq ht hargs]
  cases hselect : t.select args none with
  | error fault => exact .refused hselect
  | ok records => exact .many hselect fun r => ht.holds_of_select hselect

/-- The operations that find records of a table show them whole. -/
theorem findsWhole_executeOn (ht : t.InColumns) (hargs : args.Unshaped) (supply : Supply)
    {op : Operation}
    (hop : op ∈ [.findUnique, .findUniqueOrThrow, .findFirst, .findFirstOrThrow, .findMany]) :
    t.FindsWhole args op (s.executeOn supply t op args).2 := by
  simp only [List.mem_cons, List.not_mem_nil, or_false] at hop
  rcases hop with rfl | rfl | rfl | rfl | rfl
  · exact findsWhole_findFirst ht hargs (by simp)
  · exact findsWhole_findFirstOrFail ht hargs (by simp)
  · exact findsWhole_findFirst ht hargs (by simp)
  · exact findsWhole_findFirstOrFail ht hargs (by simp)
  · exact findsWhole_findMany ht hargs

/-- What a relation leads to: records of the table of the other model. -/
inductive Leads (s : Store) (f : Field) : Related → Prop
  | many {target : Table} {records : List Record} (found : s.tableOf f.typeName = .ok target)
      (stored : records ⊆ target.records) : s.Leads f (.many target records)
  | one {target : Table} {record : Option Record} (found : s.tableOf f.typeName = .ok target)
      (stored : ∀ b, record = some b → b ∈ target.records) : s.Leads f (.one target record)

/-- A relation that can be followed leads to records of the other model. -/
theorem leads_of_related (h : s.related t r f args = .ok found) : s.Leads f found := by
  unfold related at h
  obtain ⟨target, htarget, h⟩ := Except.bind_eq_ok_iff.mp h
  obtain ⟨pairs, -, h⟩ := Except.bind_eq_ok_iff.mp h
  split at h
  · -- a null in the foreign key leads nowhere
    cases h
    split_ifs
    · exact .many htarget (List.nil_subset _)
    · exact .one htarget fun _ hb => nomatch hb
  · split_ifs at h
    · obtain ⟨records, hselect, h⟩ := Except.bind_eq_ok_iff.mp h
      cases h
      exact .many htarget (Table.select_subset hselect)
    · obtain ⟨records, hselect, h⟩ := Except.bind_eq_ok_iff.mp h
      cases h
      exact .one htarget fun b hb => Table.select_subset hselect (List.mem_of_head? hb)

/-- Reading a relation of a record shows what it leads to whole. -/
theorem leadsWhole_readRelation (hs : ∀ model t, s.tableOf model = .ok t → t.InColumns)
    (hargs : args.Unshaped) : s.LeadsWhole t r f args (s.readRelation t r f args) := by
  unfold readRelation
  cases hrelated : s.related t r f args with
  | error fault => exact .refused hrelated
  | ok found =>
    have hleads := leads_of_related hrelated
    cases hleads with
    | @many target records htarget stored =>
      have ht := hs _ _ htarget
      have hheld : ∀ b ∈ records, target.Holds b := fun b hb =>
        ⟨stored hb, ht.records b (stored hb)⟩
      show s.LeadsWhole t r f args (s.projectAll target records args)
      rw [projectAll_unshaped s target records hargs, ht.map_columns hheld]
      exact .many hrelated htarget hheld
    | @one target record htarget stored =>
      cases record with
      | none => exact .nothing hrelated
      | some b =>
        have ht := hs _ _ htarget
        have hheld : target.Holds b := ⟨stored b rfl, ht.records b (stored b rfl)⟩
        show s.LeadsWhole t r f args (s.project target b args)
        rw [project_unshaped s target b hargs, ht.columns_of_holds hheld]
        exact .one hrelated htarget hheld

/-- In a document whose models have fields of different names, foreign keys made of their columns,
and only columns that hold the time of the last update, calls keep the columns of all records: those
of their model, in the order of their declaration. So reads that do not ask for another shape show
whole records. -/
theorem Reachable.inColumns (hd : d.WellFormed) (hm : ∀ m ∈ d.models, m.Columnar)
    (h : Reachable d s) : s.InColumns := by
  have hs := h.sound hd
  have hrecords := h.allRecords hd (recordInvariant_columns hm)
  have htables : ∀ model t, s.tableOf model = .ok t → t.InColumns := by
    intro model t ht
    refine ⟨(hm _ (hs.declared model t ht)).nodup_columnNames, ?_⟩
    intro r hr
    obtain ⟨e, he, rfl⟩ := List.mem_map.mp hr
    exact hrecords model t ht e he
  refine ⟨htables, ?_, ?_⟩
  · intro supply delegate t args ht hargs op hop
    rw [execute_of_tableFor ht]
    exact findsWhole_executeOn (htables _ t (hs.named.tableOf_of_tableFor ht)) hargs supply hop
  · intro delegate t lookup e field f args ht hrow hf hrelation hargs
    rw [relation_eq_readRelation ht hf hrelation hrow]
    exact leadsWhole_readRelation htables hargs

/-- An update connects a shift to its hour and stamps the time of the update, both in the same
column. The shift has its two columns as before. -/
theorem shifts_inColumns :
    let args := Json.obj [("where", .obj [("id", .ofNat 1)]),
      ("data", .obj (Shifts.connecting []))]
    let s := (Shifts.plan.execute Shifts.noon "shift" .update args).1
    Shifts.document.WellFormed ∧ (∀ m ∈ Shifts.document.models, m.Columnar) ∧
      Reachable Shifts.document s ∧ Shifts.model.columnNames = ["id", "hourAt"] ∧
      (s.execute Shifts.noon "shift" .findMany .null).2 = .ok (.arr [.obj (Shifts.late 1)]) ∧
      s.InColumns := by
  intro args s
  have hcolumnar : ∀ m ∈ Shifts.document.models, m.Columnar := by
    intro m hm
    have hmodel : m = Shifts.hourModel ∨ m = Shifts.model := by
      simpa [Shifts.document] using hm
    rcases hmodel with rfl | rfl <;> constructor <;> decide
  have hargs : args.WellFormed := by
    simp [args, Shifts.connecting, Shifts.morning, Entries.names]
  have hs : Reachable Shifts.document s :=
    .call Shifts.noon (c := .execute "shift" .update args) Shifts.reachable_plan hargs
  have hanswer : (s.execute Shifts.noon "shift" .findMany .null).2 =
      .ok (.arr [.obj (Shifts.late 1)]) := by decide +kernel
  exact ⟨Shifts.document_wellFormed, hcolumnar, hs, rfl, hanswer,
    hs.inColumns Shifts.document_wellFormed hcolumnar⟩

end Store

end ModelGateway
