import ModelGateway.Proofs.Record.Aggregate
import ModelGateway.Proofs.Record.Distinct

/-!
# Grouping as a partition

Grouping scans the groups for the first key that is equal to the values of a record. Equality of
values is not transitive, so a record may equal the keys of several groups.

* **Recursion** (`groupRecords_cons`): the first group has the first record and all later ones that
  equal it, and the others are the groups of the records that are left.
* **Partition** (`exists_splits`): so the records are split into parts (`Splits`), each of them with
  its records in their order. All records of a part equal its first one, and no first record equals
  another.
* **Rows** (`groupBy_partition`): each row shows one part (`RecordPart.Shows`): the values of its
  first record, and the aggregates of its records.
-/

namespace ModelGateway

variable {columns : List String} {args : Json} {records : List Record}

/-! ## Recursion -/

/-- The first group takes the records that equal its key, and the others go to the other groups. -/
theorem foldl_addToGroups (g : RecordGroup) (groups : List RecordGroup) (records : List Record) :
    records.foldl (fun groups r => addToGroups (r.valuesOf columns) r groups) (g :: groups) =
      { g with members :=
          g.members ++ records.filter fun r => allValuesEqual g.key (r.valuesOf columns) } ::
        (records.filter fun r => !allValuesEqual g.key (r.valuesOf columns)).foldl
          (fun groups r => addToGroups (r.valuesOf columns) r groups) groups := by
  induction records generalizing g groups with
  | nil => simp
  | cons r rest ih =>
    rw [List.foldl_cons, addToGroups]
    split_ifs with hequal
    · rw [ih]
      simp [hequal]
    · rw [ih]
      simp [hequal]

/-- The groups of some records: that of the first one, then those of the records that do not equal
it. -/
theorem groupRecords_cons (columns : List String) (r : Record) (rest : List Record) :
    groupRecords columns (r :: rest) =
      ⟨r.valuesOf columns, r :: rest.filter (equalRepeats columns r)⟩ ::
        groupRecords columns (rest.filter fun other => !equalRepeats columns r other) :=
  foldl_addToGroups ⟨r.valuesOf columns, [r]⟩ [] rest

/-! ## Partition -/

/-- Records that belong together, the first one apart. -/
structure RecordPart where
  first : Record
  rest : List Record

namespace RecordPart

/-- All records of a part. -/
def members (p : RecordPart) : List Record :=
  p.first :: p.rest

/-- The group of a part. -/
def group (columns : List String) (p : RecordPart) : RecordGroup :=
  ⟨p.first.valuesOf columns, p.members⟩

end RecordPart

/-- Records are split into parts by the values of some columns: each record is in one part, and a
part has its records in their order; the parts come in the order of their first records; the records
of a part have values equal to those of the first one, and the first records of two parts do not. -/
structure Splits (columns : List String) (records : List Record) (parts : List RecordPart) :
    Prop where
  assigned : ∃ place : Record → Nat, (∀ r ∈ records, place r < parts.length) ∧
    ∀ i p, parts[i]? = some p → p.members = records.filter (place · == i)
  ordered : parts.Pairwise fun p q => records.idxOf p.first < records.idxOf q.first
  alike : ∀ p ∈ parts, ∀ r ∈ p.members, Record.EqualIn columns r p.first
  apart : parts.Pairwise fun p q =>
    ¬Record.EqualIn columns p.first q.first ∧ ¬Record.EqualIn columns q.first p.first

/-- Of two items that pass a test, the one that comes first does so among those that pass. -/
theorem idxOf_filter_lt_iff {α : Type} [BEq α] [LawfulBEq α] {test : α → Bool} {items : List α}
    {a b : α} (ha : test a = true) (hb : test b = true) :
    (items.filter test).idxOf a < (items.filter test).idxOf b ↔ items.idxOf a < items.idxOf b := by
  induction items with
  | nil => exact Iff.rfl
  | cons x rest ih =>
    by_cases hxa : x = a
    · subst hxa
      by_cases hxb : x = b
      · simp [hxb]
      · simp [ha, hxb]
    by_cases hxb : x = b
    · subst hxb
      simp [hb, hxa]
    cases hx : test x <;> simp [hx, hxa, hxb, ih]

namespace Splits

/-- The first record of a part is one of the records. -/
theorem first_mem {parts : List RecordPart} (h : Splits columns records parts) {p : RecordPart}
    (hp : p ∈ parts) : p.first ∈ records := by
  obtain ⟨place, -, hmembers⟩ := h.assigned
  obtain ⟨i, hi⟩ := List.getElem?_of_mem hp
  have hfirst : p.first ∈ p.members := List.mem_cons_self
  rw [hmembers i p hi] at hfirst
  exact (List.mem_filter.mp hfirst).1

/-- No records are split into no parts. -/
theorem nil (columns : List String) : Splits columns [] [] where
  assigned := ⟨fun _ => 0, fun _ hr => absurd hr List.not_mem_nil, fun _ _ hi => by cases hi⟩
  ordered := .nil
  alike _ hp := absurd hp List.not_mem_nil
  apart := .nil

/-- Records are split into the part of those that equal the first one and the parts of the
others. -/
theorem cons {r : Record} {rest : List Record} {parts : List RecordPart}
    (hr : ∀ x ∈ r :: rest, Record.WellFormed x)
    (h : Splits columns (rest.filter fun x => !equalRepeats columns r x) parts) :
    Splits columns (r :: rest) (⟨r, rest.filter (equalRepeats columns r)⟩ :: parts) := by
  obtain ⟨hself, hrest⟩ := List.forall_mem_cons.mp hr
  have hrefl : equalRepeats columns r r = true := Record.allValuesEqual_valuesOf.mpr (.refl hself)
  -- the first records of the other parts do not equal the first one
  have hothers : ∀ p ∈ parts, p.first ∈ rest ∧ equalRepeats columns r p.first = false := by
    intro p hp
    simpa using List.mem_filter.mp (h.first_mem hp)
  have hapart : ∀ p ∈ parts, ¬Record.EqualIn columns r p.first := by
    intro p hp hequal
    have hfalse := (hothers p hp).2
    rw [equalRepeats, Record.allValuesEqual_valuesOf.mpr hequal] at hfalse
    cases hfalse
  have hne : ∀ p ∈ parts, r ≠ p.first := by
    intro p hp heq
    exact hapart p hp (heq ▸ .refl hself)
  constructor
  · obtain ⟨place, hplace, hmembers⟩ := h.assigned
    refine ⟨fun x => if equalRepeats columns r x then 0 else place x + 1, fun x hx => ?_,
      fun i p hi => ?_⟩
    · dsimp only
      split_ifs with hequal
      · exact Nat.succ_pos _
      · rcases List.mem_cons.mp hx with rfl | hx
        · exact absurd hrefl hequal
        · have hleft := hplace x (List.mem_filter.mpr ⟨hx, by simpa using hequal⟩)
          simpa using hleft
    · cases i with
      | zero =>
        cases hi
        rw [RecordPart.members, List.filter_cons_of_pos (by simp [hrefl])]
        refine congrArg (r :: ·) (List.filter_congr fun x _ => ?_)
        cases hequal : equalRepeats columns r x <;> simp [hequal]
      | succ i =>
        rw [hmembers i p hi, List.filter_cons_of_neg (by simp [hrefl]), List.filter_filter]
        refine List.filter_congr fun x _ => ?_
        cases hequal : equalRepeats columns r x <;> simp [hequal]
  · refine List.pairwise_cons.mpr ⟨fun p hp => ?_, h.ordered.imp_of_mem fun {p q} hp hq hlt => ?_⟩
    · simp [hne p hp]
    · rw [idxOf_filter_lt_iff (by simpa using (hothers p hp).2) (by simpa using (hothers q hq).2)]
        at hlt
      simpa [List.idxOf_cons, hne p hp, hne q hq] using hlt
  · refine List.forall_mem_cons.mpr ⟨fun x hx => ?_, h.alike⟩
    rcases List.mem_cons.mp hx with rfl | hx
    · exact .refl hself
    · obtain ⟨hx, hequal⟩ := List.mem_filter.mp hx
      exact (Record.allValuesEqual_valuesOf.mp hequal).symm hself (hrest x hx)
  · refine List.pairwise_cons.mpr ⟨fun p hp => ⟨hapart p hp, fun hequal => ?_⟩, h.apart⟩
    exact hapart p hp (hequal.symm (hrest _ (hothers p hp).1) hself)

end Splits

/-- Grouping splits the records into parts. -/
theorem exists_splits (columns : List String) : ∀ records : List Record,
    (∀ r ∈ records, Record.WellFormed r) → ∃ parts, Splits columns records parts ∧
      groupRecords columns records = parts.map (·.group columns)
  | [], _ => ⟨[], .nil columns, rfl⟩
  | r :: rest, hr => by
    have hleft : ∀ x ∈ rest.filter fun x => !equalRepeats columns r x, Record.WellFormed x :=
      fun x hx => hr x (List.mem_cons_of_mem _ (List.mem_filter.mp hx).1)
    obtain ⟨parts, hsplits, hgroups⟩ := exists_splits columns _ hleft
    refine ⟨_, hsplits.cons hr, ?_⟩
    rw [groupRecords_cons, hgroups]
    rfl
termination_by records => records.length
decreasing_by exact Nat.lt_succ_of_le (List.length_filter_le _ rest)

/-! ## Rows -/

/-- A row shows a part: the grouping columns, each once, with the values of the first record, then
the aggregates of the records. An aggregate of the name of a column stands in the place of that
column. -/
def RecordPart.Shows (columns : List String) (args : Json) (p : RecordPart) (row : Record) : Prop :=
  ∃ aggregates : Entries Json, aggregateRecords p.members args = .ok (.obj aggregates) ∧
    row = (columns.eraseDups.map fun column =>
        (column, (aggregates.get? column).getD (Record.value p.first column))) ++
      aggregates.filter fun e => e.1 ∉ columns

/-- The row of the group of a part shows the part. -/
theorem RecordPart.shows_of_row (hargs : args.WellFormed) {p : RecordPart} {row : Record}
    (h : (p.group columns).row columns args = .ok row) : p.Shows columns args row := by
  obtain ⟨aggregates, haggregates, hrow⟩ := Except.bind_eq_ok_iff.mp h
  cases hrow
  have hnames : aggregates.names = Entries.names (aggregateRequests args) :=
    Except.map_eq_of_mapM_eq_ok
      (fun _ _ hentry => (Except.pair_eq_ok_iff.mp hentry).1.symm) haggregates
  have hdistinct : aggregates.names.Nodup := hnames ▸ nodup_names_aggregateRequests hargs
  have hkey : Entries.ofList (columns.zip (p.group columns).key) =
      columns.eraseDups.map fun column => (column, Record.value p.first column) := by
    rw [← Entries.ofList_map, List.map_prod_left_eq_zip]
    rfl
  have hmem : ∀ name, name ∈ Entries.names
      (columns.eraseDups.map fun column => (column, Record.value p.first column)) ↔
        name ∈ columns := by
    intro name
    simp [Entries.names]
  refine ⟨aggregates, Except.map_eq_ok_iff.mpr ⟨_, haggregates, rfl⟩, ?_⟩
  rw [hkey, Entries.extend_eq (hkey ▸ Entries.nodup_names_ofList _) hdistinct, List.map_map]
  simp only [hmem]
  rfl

/-- Grouping shows the parts of the records, one in each row. -/
theorem groupBy_partition (hr : ∀ r ∈ records, Record.WellFormed r) (hargs : args.WellFormed)
    {rows : List Record} (h : groupBy columns records args = .ok rows) :
    ∃ parts, Splits columns records parts ∧
      List.Forall₂ (RecordPart.Shows columns args) parts rows := by
  obtain ⟨parts, hsplits, hgroups⟩ := exists_splits columns records hr
  refine ⟨parts, hsplits, ?_⟩
  rw [groupBy] at h
  split_ifs at h
  rw [hgroups, Except.mapM_eq_ok_iff, List.forall₂_map_left_iff] at h
  exact h.imp fun p row hrow => p.shows_of_row hargs hrow

/-- Readings by their time, which is asked for twice, with a column that the counts hide: two times
are of one moment, and a time that is missing is null. -/
theorem groupBy_partition_readings :
    let reading (time mark : Json) : Record := [("time", time), ("mark", mark)]
    let records := [reading (.str "2024-01-01T08:00:00Z") (.ofInt 1), reading .null (.ofInt 2),
      reading (.str "2024-01-01T09:00:00+01:00") (.ofInt 3), [("mark", .ofInt 4)],
      reading (.str "2024-01-01T17:00:00Z") (.ofInt 5)]
    let columns := ["time", "_count", "time"]
    let args : Json := .obj [("_count", .bool true), ("_max", .obj [("mark", .bool true)])]
    let row (time : Json) (count greatest : Int) : Record :=
      [("time", time), ("_count", .ofInt count), ("_max", .obj [("mark", .ofInt greatest)])]
    let rows := [row (.str "2024-01-01T08:00:00Z") 2 3, row .null 2 4,
      row (.str "2024-01-01T17:00:00Z") 1 5]
    (∀ r ∈ records, Record.WellFormed r) ∧ args.WellFormed ∧
      groupBy columns records args = .ok rows ∧
      ∃ parts, Splits columns records parts ∧
        List.Forall₂ (RecordPart.Shows columns args) parts rows := by
  intro reading records columns args row rows
  have hreading : ∀ time mark, time.WellFormed → mark.WellFormed →
      Record.WellFormed (reading time mark) := by
    intro time mark htime hmark
    refine .obj (by simp [Entries.names, reading]) (List.forall_mem_cons.mpr ⟨htime, ?_⟩)
    exact List.forall_mem_singleton.mpr hmark
  have hr : ∀ r ∈ records, Record.WellFormed r := by
    simp only [records, List.forall_mem_cons]
    refine ⟨hreading _ _ (.str _) (Json.wellFormed_ofInt 1),
      hreading _ _ .null (Json.wellFormed_ofInt 2), hreading _ _ (.str _) (Json.wellFormed_ofInt 3),
      .obj (by decide) (List.forall_mem_singleton.mpr (Json.wellFormed_ofInt 4)),
      hreading _ _ (.str _) (Json.wellFormed_ofInt 5), fun _ hr => absurd hr List.not_mem_nil⟩
  have hargs : args.WellFormed := by simp [args, Entries.names]
  have hrows : groupBy columns records args = .ok rows := by decide +kernel
  exact ⟨hr, hargs, hrows, groupBy_partition hr hargs hrows⟩

end ModelGateway
