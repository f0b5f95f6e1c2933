import Mathlib.Algebra.GroupWithZero.Nat
import Mathlib.Data.List.Perm.Basic
import ModelGateway.Proofs.Json.Entries
import ModelGateway.Record.Aggregate

/-!
# Groups of records

* **Members** (`groupRecords_perm`): grouping loses no record and repeats none, whatever the columns
  hold, since a record goes to one group, the first whose key is equal to its own values. So the
  sizes of the groups add up to the number of records (`sum_length_groupRecords`).
* **Rows** (`groupBy_keys`): without aggregates a group shows its key alone.
* **Counts** (`aggregateEntries_countOf`, `groupBy_countAll`): what a request for one count gives,
  for all records and for each group.
-/

namespace ModelGateway

variable {columns : List String} {args : Json}

/-! ## Members -/

/-- A record is added to exactly one group. -/
theorem addToGroups_perm (key : List Json) (r : Record) (groups : List RecordGroup) :
    ((addToGroups key r groups).flatMap (·.members)).Perm
      (groups.flatMap (·.members) ++ [r]) := by
  induction groups with
  | nil => exact .refl _
  | cons g rest ih =>
    rw [addToGroups]
    split
    · rw [List.flatMap_cons, List.flatMap_cons, List.append_assoc, List.append_assoc]
      exact List.perm_append_comm.append_left _
    · rw [List.flatMap_cons, List.flatMap_cons, List.append_assoc]
      exact ih.append_left _

/-- The groups hold the records, each of them once. -/
theorem groupRecords_perm (columns : List String) (records : List Record) :
    ((groupRecords columns records).flatMap (·.members)).Perm records := by
  have hfold : ∀ groups : List RecordGroup,
      ((records.foldl (fun groups r =>
        addToGroups (columns.map (Record.value r)) r groups) groups).flatMap (·.members)).Perm
      (groups.flatMap (·.members) ++ records) := by
    induction records with
    | nil => simp
    | cons r rest ih =>
      intro groups
      refine (ih _).trans ?_
      rw [List.append_cons]
      exact (addToGroups_perm _ r groups).append_right rest
  exact hfold []

/-- The sizes of the groups add up to the number of records. -/
theorem sum_length_groupRecords (columns : List String) (records : List Record) :
    ((groupRecords columns records).map (·.members.length)).sum = records.length := by
  rw [← List.length_flatMap, (groupRecords_perm columns records).length_eq]

/-! ## Rows -/

/-- Without aggregates the rows of the groups are their keys. -/
theorem groupBy_keys (h : aggregateRequests args = []) (hcolumns : columns ≠ [])
    (records : List Record) :
    groupBy columns records args =
      .ok ((groupRecords columns records).map fun g => Entries.ofList (columns.zip g.key)) := by
  have hrow : (fun g : RecordGroup => g.row columns args) =
      fun g => pure (Entries.ofList (columns.zip g.key)) := by
    funext g
    rw [RecordGroup.row, aggregateEntries, h]
    rfl
  rw [groupBy, if_neg (by simpa using hcolumns), hrow, List.mapM_pure]
  rfl

/-! ## Counts -/

/-- Of each column that is counted, the number of records that have a value there. -/
theorem countColumn_eq_length {column : String} (h : column ≠ "_all") (records : List Record) :
    countColumn records column =
      (records.filter fun r => !(Record.value r column).isNull).length := by
  rw [countColumn, if_neg h, columnValues]
  induction records with
  | nil => rfl
  | cons r rest ih =>
    cases hv : Entries.get? r column with
    | none => simpa [Record.value, hv, Json.isNull] using ih
    | some value =>
      cases hnull : value.isNull <;> simpa [Record.value, hv, hnull] using ih

/-- The selection of one count. -/
def countOf (column : String) : Json :=
  .obj [(column, .bool true)]

/-- One count alone. -/
theorem aggregateEntries_countOf {column : String}
    (h : aggregateRequests args = [("_count", .count, countOf column)]) (records : List Record) :
    aggregateEntries records args =
      .ok [("_count", .obj [(column, .ofNat (countColumn records column))])] := by
  rw [aggregateEntries, h]
  rfl

/-- The number of all records that a row of a group shows, if it does. -/
def groupSize? (row : Json) : Option Json :=
  (row.get? "_count").bind (·.get? "_all")

/-- A row with a count of all records shows the size of its group. -/
theorem RecordGroup.row_countAll (h : aggregateRequests args = [("_count", .count, countOf "_all")])
    (columns : List String) (g : RecordGroup) : ∃ row, g.row columns args = .ok row ∧
      groupSize? (.obj row) = some (.ofNat g.members.length) := by
  have hrow := aggregateEntries_countOf h g.members
  refine ⟨_, by rw [RecordGroup.row, hrow]; rfl, ?_⟩
  rw [groupSize?, Json.get?, Entries.get?_extend]
  rfl

/-- Grouping by at least one column with a count of all records shows the sizes of the groups. -/
theorem groupBy_countAll (h : aggregateRequests args = [("_count", .count, countOf "_all")])
    (hcolumns : columns ≠ []) (records : List Record) :
    ∃ rows, groupBy columns records args = .ok rows ∧
      rows.map (fun row => groupSize? (.obj row)) =
        (groupRecords columns records).map fun g => some (.ofNat g.members.length) := by
  rw [groupBy, if_neg (by simpa using hcolumns)]
  induction groupRecords columns records with
  | nil => exact ⟨[], rfl, rfl⟩
  | cons g rest ih =>
    obtain ⟨rows, hrows, hsizes⟩ := ih
    obtain ⟨row, hrow, hsize⟩ := g.row_countAll h columns
    refine ⟨row :: rows, ?_, ?_⟩
    · rw [List.mapM_cons, hrow, hrows]
      rfl
    · rw [List.map_cons, List.map_cons, hsize, hsizes]

end ModelGateway
