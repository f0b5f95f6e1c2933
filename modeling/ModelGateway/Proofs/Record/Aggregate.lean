import Mathlib.Algebra.Ring.Int.Defs
import ModelGateway.Proofs.Except
import ModelGateway.Proofs.Json.WellFormed
import ModelGateway.Record.Aggregate

/-!
# When aggregates succeed

Counts and extremes always have a value; sums and averages need numbers, and a sum of whole numbers
must not leave the signed 64-bit numbers on its way (`AddsUp`).

* **Columns** (`exists_aggregateColumn`): an aggregate of a column has a value if the column adds up
  or the aggregate adds nothing; the sum is then exact (`AddsUp.sumColumn_eq`).
* **Groups** (`aggregateGroup_obj`): an aggregate of wanted columns answers with those columns, in
  their order; no other selection gives an object (`exists_obj_of_aggregateGroup`).
* **Entries** (`aggregateEntries_eq_ok_iff`): the answers are those of the requests, one by one.
-/

namespace ModelGateway

variable {records : List Record} {kind : Aggregate} {column : String}

/-! ## Sums -/

/-- A value as a signed 64-bit whole number. -/
def Json.toInt64? : Json → Option Int
  | .num n => n.toInt64?
  | _ => none

/-- The values of a column, nulls apart, are signed 64-bit whole numbers, and so is every sum of the
first of them. -/
structure AddsUp (records : List Record) (column : String) : Prop where
  whole : ∀ value ∈ columnValues records column, (Json.toInt64? value).isSome
  partialSums : ∀ count : Nat,
    IsInt64 (((columnValues records column).filterMap Json.toInt64?).take count).sum

/-- Whole numbers add up if no partial sum leaves the signed 64-bit numbers. -/
theorem foldlM_int64? {ns : List Int} (total : Int)
    (h : ∀ count : Nat, IsInt64 (total + (ns.take count).sum)) :
    ns.foldlM (fun total n => int64? (total + n)) total = some (total + ns.sum) := by
  induction ns generalizing total with
  | nil => simp
  | cons n rest ih =>
    have hfirst : int64? (total + n) = some (total + n) := by
      rw [int64?_eq_some_iff]
      exact ⟨by simpa using h 1, rfl⟩
    have hrest : ∀ count : Nat, IsInt64 (total + n + (rest.take count).sum) := by
      intro count
      simpa [List.take_succ_cons, Int.add_assoc] using h (count + 1)
    rw [List.foldlM_cons, hfirst, List.sum_cons, ← Int.add_assoc]
    exact ih _ hrest

/-- Values that are whole numbers, as numbers. -/
theorem exists_numbersOf {values : List Json}
    (h : ∀ value ∈ values, (Json.toInt64? value).isSome) :
    ∃ ns, numbersOf column values = .ok ns ∧ ns.isEmpty = values.isEmpty ∧
      ns.mapM Number.toInt64? = some (values.filterMap Json.toInt64?) := by
  induction values with
  | nil => exact ⟨[], rfl, rfl, rfl⟩
  | cons value rest ih =>
    obtain ⟨hvalue, hrest⟩ := List.forall_mem_cons.mp h
    obtain ⟨ns, hns, -, hints⟩ := ih hrest
    cases value with
    | num n =>
      obtain ⟨i, hi⟩ := Option.isSome_iff_exists.mp hvalue
      have hn : n.toInt64? = some i := hi
      refine ⟨n :: ns, by rw [numbersOf, hns]; rfl, rfl, ?_⟩
      rw [List.mapM_cons, hn, hints, List.filterMap_cons_some hi]
      rfl
    | _ => simp [Json.toInt64?] at hvalue

/-- A column that adds up has a sum: that of its values, null without any. -/
theorem AddsUp.sumColumn_eq (h : AddsUp records column) :
    sumColumn column (columnValues records column) =
      .ok (if (columnValues records column).isEmpty then .null
        else .ofInt ((columnValues records column).filterMap Json.toInt64?).sum) := by
  obtain ⟨ns, hns, hempty, hints⟩ := exists_numbersOf h.whole
  have hsum : sumInts? ((columnValues records column).filterMap Json.toInt64?) =
      some ((columnValues records column).filterMap Json.toInt64?).sum := by
    have hfold := foldlM_int64? 0 (by simpa using h.partialSums)
    rwa [Int.zero_add] at hfold
  rw [sumColumn, hns]
  simp only [bind, Except.bind, hempty, hints, hsum]
  split <;> rfl

/-- A column that adds up has an average. -/
theorem AddsUp.exists_averageColumn (h : AddsUp records column) :
    ∃ value, averageColumn column (columnValues records column) = .ok value := by
  obtain ⟨ns, hns, -, -⟩ := exists_numbersOf h.whole
  rw [averageColumn, hns]
  simp only [bind, Except.bind]
  split
  · exact ⟨_, rfl⟩
  · exact ⟨_, rfl⟩

/-! ## Columns and groups -/

/-- An aggregate of a column has a value, if the column adds up where values are added. -/
theorem exists_aggregateColumn (h : kind = .sum ∨ kind = .avg → AddsUp records column) :
    ∃ value, aggregateColumn records kind column = .ok value := by
  cases kind with
  | count | min | max => exact ⟨_, rfl⟩
  | sum => exact ⟨_, (h (.inl rfl)).sumColumn_eq⟩
  | avg => exact (h (.inr rfl)).exists_averageColumn

/-- An aggregate of wanted columns answers with those columns. -/
theorem aggregateGroup_obj {columns : Entries Json} (hwanted : ∀ e ∈ columns, isWanted e.2 = true)
    (hcolumns : ∀ e ∈ columns, ∃ value, aggregateColumn records kind e.1 = .ok value) :
    ∃ values : Entries Json, aggregateGroup records kind (.obj columns) = .ok (.obj values) ∧
      values.names = columns.names := by
  have hstep : ∀ e ∈ columns, ∃ y : String × Json,
      (do return (e.1, ← aggregateColumn records kind e.1)) = Except.ok y := by
    intro e he
    obtain ⟨value, hvalue⟩ := hcolumns e he
    exact ⟨(e.1, value), Except.pair_eq_ok_iff.mpr ⟨rfl, hvalue⟩⟩
  obtain ⟨values, hvalues⟩ := Except.exists_mapM_eq_ok_iff.mpr hstep
  refine ⟨values, ?_, Except.map_eq_of_mapM_eq_ok (fun e y hy => ?_) hvalues⟩
  · rw [aggregateGroup, List.filter_eq_self.mpr hwanted, hvalues]
    rfl
  · exact (Except.pair_eq_ok_iff.mp hy).1.symm

/-- Only a selection of columns is answered with an object. -/
theorem exists_obj_of_aggregateGroup {selection : Json} {values : Entries Json}
    (h : aggregateGroup records kind selection = .ok (.obj values)) :
    ∃ columns, selection = .obj columns := by
  cases selection with
  | obj columns => exact ⟨columns, rfl⟩
  | _ => cases kind <;> simp [aggregateGroup, Json.ofNat] at h

/-! ## Entries -/

/-- The requests of some entries, entry by entry. -/
theorem aggregateRequests_cons (name : String) (selection : Json) (rest : Entries Json) :
    aggregateRequests (.obj ((name, selection) :: rest)) =
      match Aggregate.ofName? name with
      | some kind => (name, kind, selection) :: aggregateRequests (.obj rest)
      | none => aggregateRequests (.obj rest) := by
  simp only [aggregateRequests, List.filterMap_cons]
  cases Aggregate.ofName? name <;> rfl

/-- The names of the requests are those of the entries that are aggregates. -/
theorem names_aggregateRequests (entries : Entries Json) :
    Entries.names (aggregateRequests (.obj entries)) =
      entries.names.filter fun name => (Aggregate.ofName? name).isSome := by
  induction entries with
  | nil => rfl
  | cons e rest ih =>
    obtain ⟨name, selection⟩ := e
    have hnames : Entries.names ((name, selection) :: rest) = name :: Entries.names rest := rfl
    rw [aggregateRequests_cons, hnames, List.filter_cons, ← ih]
    cases Aggregate.ofName? name <;> rfl

/-- The names of the requests of well-formed arguments differ. -/
theorem nodup_names_aggregateRequests {args : Json} (h : args.WellFormed) :
    (Entries.names (aggregateRequests args)).Nodup := by
  cases args with
  | obj entries =>
    rw [names_aggregateRequests]
    exact (Json.wellFormed_obj.mp h).1.filter _
  | _ => exact List.nodup_nil

/-- The answers are those of the requests, under the names of the requests. -/
theorem aggregateEntries_eq_ok_iff {args : Json} {answer : Entries Json} :
    aggregateEntries records args = .ok answer ↔
      List.Forall₂ (fun request entry => request.1 = entry.1 ∧
        aggregateGroup records request.2.1 request.2.2 = .ok entry.2)
        (aggregateRequests args) answer := by
  rw [aggregateEntries, Except.mapM_eq_ok_iff]
  simp only [Except.pair_eq_ok_iff]

end ModelGateway
