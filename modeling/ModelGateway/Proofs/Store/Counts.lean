import ModelGateway.Proofs.Record.Groups
import ModelGateway.Proofs.Store.Run
import ModelGateway.Proofs.Store.Select

/-!
# Counting

* **Records** (`Store.counts_of_filter`): every operation that counts the records of a `where` finds
  the same number of them, whether it selects records, groups them or finds the rows to delete.
* **Columns** (`Store.columnCounts_of_filter`): a selection counts a column as a `where` does that
  rules out nulls there, if a filter can speak about the column. Under a name that is declared as a
  relation first there is a count but no filter (`Store.relation_hides_column`).

Both together are `Store.counts_agree`.
-/

namespace ModelGateway

/-! ## Filters of nulls -/

/-- The `where` of the records that pass another one and have a value in a column. -/
def Json.withValue (condition : Json) (column : String) : Json :=
  .obj [("AND", .arr [condition, .obj [(column, .obj [("not", .null)])]])]

/-- Ruling out nulls in a column keeps a filter readable. -/
theorem Filter.ofArgument_withValue {m : Model} {condition : Json} {filter : Filter}
    {column : String} {f : Field} (h : ofArgument m (some condition) = .ok filter)
    (hf : m.field? column = some f) (hcolumn : f.isRelation = false)
    (hname : column ∉ ["AND", "OR", "NOT"]) :
    ofArgument m (some (condition.withValue column)) =
      .ok (.and [filter, .field column (.not (.equals .null))]) := by
  have hpart : ofJson m (.obj [(column, .obj [("not", .null)])]) =
      .ok (.field column (.not (.equals .null))) := by
    refine (ofArgument_single hname).trans ?_
    rw [ofEntry, hf]
    simp only [hcolumn]
    rfl
  have hcondition : ofJson m condition = .ok filter := h
  have hitems : ofItems m [condition, .obj [(column, .obj [("not", .null)])]] =
      .ok [filter, .field column (.not (.equals .null))] := by
    rw [ofItems, ofItems, ofItems, hcondition, hpart]
    rfl
  rw [Json.withValue, ofArgument, ofJson, ofEntries, Combinator.ofName?, hitems]
  rfl

namespace Store

variable {supply : Supply} {s : Store} {t : Table} {delegate : String} {w : Json}
  {filter : Filter} {columns : List String}

/-- The operations on a table agree that a `where` is passed by `n` records. -/
structure Counts (supply : Supply) (s : Store) (delegate : String) (w : Json)
    (columns : List String) (n : Nat) : Prop where
  findMany : ∃ items, (s.execute supply delegate .findMany (.obj [("where", w)])).2 =
    .ok (.arr items) ∧ items.length = n
  count : (s.execute supply delegate .count (.obj [("where", w)])).2 = .ok (.ofNat n)
  aggregate : (s.execute supply delegate .aggregate
    (.obj [("where", w), ("_count", countOf "_all")])).2 =
    .ok (.obj [("_count", .obj [("_all", .ofNat n)])])
  /-- The groups by some columns have sizes that add up. -/
  groupBy : ∃ rows, ∃ sizes : List Nat, (s.execute supply delegate .groupBy
    (.obj [("by", .arr (columns.map .str)), ("where", w), ("_count", countOf "_all")])).2 =
    .ok (.arr rows) ∧ rows.map groupSize? = sizes.map (fun k => some (.ofNat k)) ∧ sizes.sum = n
  deleteMany : (s.execute supply delegate .deleteMany (.obj [("where", w)])).2 =
    .ok (.obj [("count", .ofNat n)])

/-- The operations on a table agree that, of the records that pass a `where`, `k` have a value in a
column. -/
structure ColumnCounts (supply : Supply) (s : Store) (delegate : String) (w : Json)
    (column : String) (k : Nat) : Prop where
  count : (s.execute supply delegate .count
    (.obj [("where", w), ("select", countOf column)])).2 = .ok (.obj [(column, .ofNat k)])
  aggregate : (s.execute supply delegate .aggregate
    (.obj [("where", w), ("_count", countOf column)])).2 =
    .ok (.obj [("_count", .obj [(column, .ofNat k)])])
  condition : (s.execute supply delegate .count (.obj [("where", w.withValue column)])).2 =
    .ok (.ofNat k)

/-! ## Answers -/

/-- An operation on a delegate is one on its table. -/
theorem execute_of_tableFor (ht : s.tableFor delegate = .ok t) (supply : Supply) (op : Operation)
    (args : Json) : s.execute supply delegate op args = s.executeOn supply t op args := by
  rw [execute, ht]

/-- Arguments with a `where` and without an order or a page select the records that pass it. -/
theorem select_where {args : Json} (hw : Filter.ofArgument t.model (some w) = .ok filter)
    (hwhere : args.get? "where" = some w) (hargs : args.Unpaged) :
    t.select args none = .ok (t.records.filter filter.matches) := by
  rw [Table.select_eq_filter hargs, hwhere, hw]
  simp [Except.map]

/-- One count of the records that pass a `where`. -/
theorem aggregate_countOf (hw : Filter.ofArgument t.model (some w) = .ok filter)
    (column : String) :
    aggregate t (.obj [("where", w), ("_count", countOf column)]) = .ok (.obj [("_count",
      .obj [(column, .ofNat (countColumn (t.records.filter filter.matches) column))])]) := by
  rw [aggregate, select_where hw rfl (by simp [Entries.get?])]
  have hrequest : aggregateRequests (.obj [("where", w), ("_count", countOf column)]) =
      [("_count", .count, countOf column)] := rfl
  exact congrArg (Except.map Json.obj) (aggregateEntries_countOf hrequest _)

/-- The columns that a list of their names asks for. -/
theorem fieldList_arr (columns : List String) :
    fieldList (some (.arr (columns.map .str))) = columns := by
  simp [fieldList, List.filterMap_map, Function.comp_def, Json.asString?]

/-- Grouping without a condition on the groups, without an order and without a page groups the
records that pass the `where`. -/
theorem groups_where {args : Json} (hw : Filter.ofArgument t.model (some w) = .ok filter)
    (hwhere : argument args "where" = w) (hhaving : argument args "having" = .null)
    (hargs : args.Unpaged) :
    groups t args =
      (groupBy (fieldList (args.get? "by")) (t.records.filter filter.matches) args).map
        fun rows => .arr (rows.map .obj) := by
  have hselect : t.select (.obj [("where", w)]) none = .ok (t.records.filter filter.matches) :=
    select_where hw rfl (by simp [Entries.get?])
  rw [groups, hhaving, hwhere, hselect]
  simp only [bind, Except.bind, Json.isNull, Bool.not_true, Bool.false_eq_true, if_false,
    hargs "orderBy" (by simp), SortKey.ofArgument, sortRecords, List.isEmpty_nil, if_true,
    Table.paginate_eq_self (hargs "skip" (by simp)) (hargs "take" (by simp)), pure, Except.pure]
  cases groupBy (fieldList (args.get? "by")) (t.records.filter filter.matches) args <;> rfl

/-- The groups of the records that pass a `where`, with the size of each. -/
theorem groups_countAll (hw : Filter.ofArgument t.model (some w) = .ok filter)
    (hcolumns : columns ≠ []) :
    ∃ rows, ∃ sizes : List Nat, groups t (.obj [("by", .arr (columns.map .str)), ("where", w),
      ("_count", countOf "_all")]) = .ok (.arr rows) ∧
      rows.map groupSize? = sizes.map (fun k => some (.ofNat k)) ∧
      sizes.sum = (t.records.filter filter.matches).length := by
  have hrequest : aggregateRequests (.obj [("by", .arr (columns.map .str)), ("where", w),
      ("_count", countOf "_all")]) = [("_count", .count, countOf "_all")] := rfl
  obtain ⟨rows, hrows, hsizes⟩ :=
    groupBy_countAll hrequest hcolumns (t.records.filter filter.matches)
  refine ⟨rows.map .obj,
    (groupRecords columns (t.records.filter filter.matches)).map (·.members.length), ?_, ?_,
    sum_length_groupRecords _ _⟩
  · rw [groups_where hw rfl rfl (by simp [Entries.get?]), Json.get?, Entries.get?, if_pos rfl,
      fieldList_arr, hrows]
    rfl
  · rw [List.map_map, List.map_map]
    exact hsizes

/-- All operations that count the records of a `where` agree. -/
theorem counts_of_filter (ht : s.tableFor delegate = .ok t)
    (hw : Filter.ofArgument t.model (some w) = .ok filter) (hcolumns : columns ≠ [])
    (supply : Supply) :
    s.Counts supply delegate w columns (t.records.filter filter.matches).length := by
  have hselect : ∀ more : Entries Json, (Json.obj (("where", w) :: more)).Unpaged →
      t.select (.obj (("where", w) :: more)) none = .ok (t.records.filter filter.matches) :=
    fun _ => select_where hw rfl
  refine ⟨?_, ?_, ?_, ?_, ?_⟩
  · refine ⟨(t.records.filter filter.matches).map fun r => .obj (t.columns r), ?_, by simp⟩
    rw [execute_of_tableFor ht, executeOn, answer, findMany, hselect _ (by simp [Entries.get?])]
    exact projectAll_whole s t _ rfl rfl
  · rw [execute_of_tableFor ht, executeOn, answer, count, hselect _ (by simp [Entries.get?])]
    rfl
  · rw [execute_of_tableFor ht]
    exact aggregate_countOf hw "_all"
  · rw [execute_of_tableFor ht]
    exact groups_countAll hw hcolumns
  · have hrows : t.findRows (some w) = .ok (t.rows.filter fun e => filter.matches e.2.data) := by
      rw [Table.findRows_eq_filter, hw]
      rfl
    have hlength : (t.rows.filter fun e => filter.matches e.2.data).length =
        (t.records.filter filter.matches).length := by
      rw [Table.records, List.filter_map, List.length_map]
      rfl
    rw [execute_of_tableFor ht, executeOn, deleteMany, Json.get?, Entries.get?, if_pos rfl, hrows,
      ← hlength]

/-- The operations that count a column of the records of a `where` agree. -/
theorem columnCounts_of_filter (ht : s.tableFor delegate = .ok t)
    (hw : Filter.ofArgument t.model (some w) = .ok filter) {column : String} {f : Field}
    (hf : t.model.field? column = some f) (hcolumn : f.isRelation = false)
    (hname : column ∉ ["_all", "AND", "OR", "NOT"]) (supply : Supply) :
    s.ColumnCounts supply delegate w column
      ((t.records.filter filter.matches).filter fun r =>
        !(Record.value r column).isNull).length := by
  obtain ⟨hall, hname⟩ : column ≠ "_all" ∧ column ∉ ["AND", "OR", "NOT"] := by simpa using hname
  have hlength := countColumn_eq_length hall (t.records.filter filter.matches)
  refine ⟨?_, ?_, ?_⟩
  · rw [execute_of_tableFor ht, executeOn, answer, count,
      select_where hw rfl (by simp [Entries.get?]), ← hlength]
    rfl
  · rw [execute_of_tableFor ht, ← hlength]
    exact aggregate_countOf hw column
  · have hboth := Filter.ofArgument_withValue hw hf hcolumn hname
    have hpasses : (Filter.and [filter, .field column (.not (.equals .null))]).matches =
        fun r => filter.matches r && !(Record.value r column).isNull := by
      funext r
      simp [Filter.matches, Filter.matchesAll, Condition.holds, valuesEqual_null]
    rw [execute_of_tableFor ht, executeOn, answer, count,
      select_where hboth rfl (by simp [Entries.get?]), hpasses, List.filter_filter]
    simp only [Bool.and_comm]
    rfl

/-- In every store the operations that count the records of a `where` agree, on the records and on
the values of each column that is not declared as a relation first. -/
theorem counts_agree (ht : s.tableFor delegate = .ok t)
    (hw : Filter.ofArgument t.model (some w) = .ok filter) (supply : Supply) :
    (∀ columns : List String, columns ≠ [] →
      s.Counts supply delegate w columns (t.records.filter filter.matches).length) ∧
    ∀ column f, t.model.field? column = some f → f.isRelation = false →
      column ∉ ["_all", "AND", "OR", "NOT"] →
        s.ColumnCounts supply delegate w column
          ((t.records.filter filter.matches).filter fun r =>
            !(Record.value r column).isNull).length :=
  ⟨fun _ hcolumns => counts_of_filter ht hw hcolumns supply,
    fun _ _ hf hcolumn hname => columnCounts_of_filter ht hw hf hcolumn hname supply⟩

/-- Two of three seats are in the first row, and one of these has a guest. -/
theorem seats_counts_agree :
    let s := Seats.made [
      .execute "seat" .create (.obj [("data", Seats.seat (.ofNat 1) (.ofNat 1) .null)]),
      .execute "seat" .create (.obj [("data", Seats.seat (.ofNat 1) (.ofNat 2) (.ofNat 7))]),
      .execute "seat" .create (.obj [("data", Seats.seat (.ofNat 2) (.ofNat 1) .null)])]
    let t := s.current (Table.empty Seats.model)
    let w := Json.obj [("row", .ofNat 1)]
    Reachable Seats.document s ∧ s.tableFor "seat" = .ok t ∧
      Filter.ofArgument t.model (some w) = .ok (.equals "row" (.ofNat 1)) ∧
      (∀ columns : List String, columns ≠ [] → s.Counts Seats.supply "seat" w columns 2) ∧
      s.ColumnCounts Seats.supply "seat" w "guest" 1 := by
  intro s t w
  have hs : Reachable Seats.document s :=
    Seats.reachable_made (by simp [Call.WellFormed, Entries.names])
  have ht : s.tableFor "seat" = .ok t := rfl
  have hw : Filter.ofArgument t.model (some w) = .ok (.equals "row" (.ofNat 1)) := rfl
  have hagree := counts_agree ht hw Seats.supply
  exact ⟨hs, ht, hw, hagree.1,
    hagree.2 "guest" (Seats.column "guest" false) rfl rfl (by decide)⟩

/-! ## A hidden column -/

namespace Boxes

/-- The column of a box that has the name of a relation. -/
def mark : Field :=
  Seats.column "mark" false

/-- A box has a number and, under one name, other boxes and a mark. -/
def model : Model where
  name := "Box"
  fields := [
    { Seats.column "id" true with isId := true },
    { mark with kind := .object, typeName := "Box", isList := true, relationName := some "Marks" },
    mark]
  primaryKey := none

/-- The document with boxes alone. -/
def document : Document :=
  { Seats.document with models := [model] }

/-- The columns of boxes have no defaults. -/
theorem document_wellFormed : document.WellFormed := by
  simp [Document.WellFormed, Model.WellFormed, Field.WellFormed, document, model, mark,
    Seats.column]

/-- A store with one box. -/
def shelf : Store :=
  (ofModels document.models).after Seats.supply
    (.execute "box" .create (.obj [("data", .obj [("id", .ofNat 1)])]))

end Boxes

/-- A column that has the name of a relation declared before it can be counted, but no filter can
speak about it. -/
theorem relation_hides_column :
    let s := Boxes.shelf
    let t := s.current (Table.empty Boxes.model)
    Boxes.document.WellFormed ∧ Reachable Boxes.document s ∧ s.tableFor "box" = .ok t ∧
      Filter.ofArgument t.model (some (.obj [])) = .ok .all ∧
      Boxes.mark ∈ t.model.fields ∧ Boxes.mark.isRelation = false ∧
      Boxes.mark.name ∉ ["_all", "AND", "OR", "NOT"] ∧
      (s.execute Seats.supply "box" .count
        (.obj [("where", .obj []), ("select", countOf "mark")])).2 =
        .ok (.obj [("mark", .ofNat 0)]) ∧
      (s.execute Seats.supply "box" .count
        (.obj [("where", (Json.obj []).withValue "mark")])).2 =
        .error (.relationFilter "Box" "mark") ∧
      ¬ ∃ k, s.ColumnCounts Seats.supply "box" (.obj []) Boxes.mark.name k := by
  intro s t
  have hs : Reachable Boxes.document s :=
    .call Seats.supply .start (by simp [Call.WellFormed, Entries.names])
  have herror : (s.execute Seats.supply "box" .count
      (.obj [("where", (Json.obj []).withValue "mark")])).2 =
      .error (.relationFilter "Box" "mark") := rfl
  have hmark : Boxes.mark ∈ t.model.fields :=
    List.mem_cons_of_mem _ (List.mem_cons_of_mem _ List.mem_cons_self)
  refine ⟨Boxes.document_wellFormed, hs, rfl, rfl, hmark, rfl, by decide, rfl, herror, ?_⟩
  rintro ⟨k, hk⟩
  exact absurd (herror.symm.trans hk.condition) (by simp)

end Store

end ModelGateway
