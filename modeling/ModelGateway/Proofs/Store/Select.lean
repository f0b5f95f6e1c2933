import ModelGateway.Proofs.Schema.RecordKey
import ModelGateway.Store.Read

/-!
# Selecting records

Arguments that neither order nor cut the records (`Json.Unpaged`) select those that pass the filter
of their `where`, in the order of the table (`Table.select_eq_filter`), and with `distinct` the
first ones of these (`Table.select_eq_distinct`). Deleting and updating find their rows by the same
filter (`Table.findRows_eq_filter`). How records are shaped depends on `select` and `include` alone
(`Store.project_eq`). Where neither is an object (`Json.Unshaped`), the answer has whole records
(`Store.project_unshaped`, `Store.projectAll_unshaped`), so without them (`Store.project_whole`,
`Store.projectAll_whole`).
-/

namespace ModelGateway

/-- No argument asks for an order, for distinct records or for a page of the records. -/
def Json.Unpaged (args : Json) : Prop :=
  ∀ name ∈ ["orderBy", "cursor", "distinct", "skip", "take"], args.get? name = none

/-- The arguments of an object that ask for no order and no page. -/
@[simp] theorem Json.unpaged_obj {entries : Entries Json} : (Json.obj entries).Unpaged ↔
    ∀ name ∈ ["orderBy", "cursor", "distinct", "skip", "take"], entries.get? name = none :=
  .rfl

/-- Neither `select` nor `include` is an object, which alone would shape the records. -/
def Json.Unshaped (args : Json) : Prop :=
  ∀ name ∈ ["select", "include"], ∀ chosen, args.get? name ≠ some (.obj chosen)

/-- Arguments without `select` and `include` shape no records. -/
theorem Json.unshaped_of_absent {args : Json} (hselect : args.get? "select" = none)
    (hinclude : args.get? "include" = none) : args.Unshaped := by
  intro name hname chosen
  simp only [List.mem_cons, List.not_mem_nil, or_false] at hname
  rcases hname with rfl | rfl
  · simp [hselect]
  · simp [hinclude]

namespace Table

variable {t : Table} {args : Json}

/-- All records are a page of themselves. -/
theorem paginate_eq_self (hskip : args.get? "skip" = none) (htake : args.get? "take" = none)
    (records : List Record) : paginate records args = .ok records := by
  simp [paginate, integerArgument, hskip, htake, bind, Except.bind, pure, Except.pure]

/-- Without an order, a cursor or a page, the distinct ones are selected among the records that pass
the filter of `where` and the scope. -/
theorem select_eq_distinct
    (h : ∀ name ∈ ["orderBy", "cursor", "skip", "take"], args.get? name = none)
    (scope : Option Filter) :
    t.select args scope = (Filter.ofArgument t.model (args.get? "where")).map fun asked =>
      distinct (fieldList (args.get? "distinct"))
        (t.records.filter fun r => scope.all (·.matches r) && asked.matches r) := by
  unfold select
  rw [h "orderBy" (by simp), h "cursor" (by simp)]
  cases Filter.ofArgument t.model (args.get? "where") with
  | error e => rfl
  | ok asked =>
    simp only [SortKey.ofArgument, sortRecords, List.isEmpty_nil, if_true, bind, Except.bind, pure,
      Except.pure, Except.map, paginate_eq_self (h "skip" (by simp)) (h "take" (by simp))]
    cases scope <;> simp [Filter.matches, Filter.matchesAll_eq_all]

/-- Without an order or a page, the records are selected that pass the filter of `where` and the
scope. -/
theorem select_eq_filter (h : args.Unpaged) (scope : Option Filter) :
    t.select args scope = (Filter.ofArgument t.model (args.get? "where")).map fun asked =>
      t.records.filter fun r => scope.all (·.matches r) && asked.matches r := by
  have hwhole : ∀ name ∈ ["orderBy", "cursor", "skip", "take"], args.get? name = none := by
    intro name hname
    apply h name
    simp only [List.mem_cons] at hname ⊢
    tauto
  rw [select_eq_distinct hwhole, h "distinct" (by simp)]
  rfl

/-- The rows that a `where` finds are those that pass its filter. -/
theorem findRows_eq_filter (condition : Option Json) :
    t.findRows condition = (Filter.ofArgument t.model condition).map fun filter =>
      t.rows.filter fun e => filter.matches e.2.data :=
  rfl

end Table

namespace Store

/-- What is selected is what the value of `select` chooses. -/
theorem selectedPart_eq (s : Store) (t : Table) (r : Record) (args : Entries Json) :
    s.selectedPart t r args = (args.get? "select").bind (s.chosenBy t r) := by
  induction args with
  | nil => rw [selectedPart, Entries.get?_nil, Option.bind_none]
  | cons e rest ih =>
    obtain ⟨name, value⟩ := e
    rw [selectedPart, Entries.get?, ih]
    split_ifs <;> rfl

/-- What is included is what the value of `include` chooses. -/
theorem includedPart_eq (s : Store) (t : Table) (r : Record) (args : Entries Json) :
    s.includedPart t r args = (args.get? "include").bind (s.chosenBy t r) := by
  induction args with
  | nil => rw [includedPart, Entries.get?_nil, Option.bind_none]
  | cons e rest ih =>
    obtain ⟨name, value⟩ := e
    rw [includedPart, Entries.get?, ih]
    split_ifs <;> rfl

/-- The shape of a record depends on `select` and `include` alone. -/
theorem project_eq (s : Store) (t : Table) (r : Record) (args : Json) :
    s.project t r args = shapeOf t r ((args.get? "select").bind (s.chosenBy t r))
      ((args.get? "include").bind (s.chosenBy t r)) := by
  cases args with
  | obj entries => rw [project, selectedPart_eq, includedPart_eq]; rfl
  | _ => rw [project] <;> simp [Json.get?, shapeOf]

/-- Arguments that shape no records leave a record whole. -/
theorem project_unshaped (s : Store) (t : Table) (r : Record) {args : Json} (h : args.Unshaped) :
    s.project t r args = .ok (.obj (t.columns r)) := by
  have hpart : ∀ name ∈ ["select", "include"], (args.get? name).bind (s.chosenBy t r) = none := by
    intro name hname
    cases hchosen : args.get? name with
    | none => rfl
    | some wanted =>
      cases wanted with
      | obj chosen => exact absurd hchosen (h name hname chosen)
      | _ => simp [chosenBy]
  rw [project_eq, hpart "select" (by simp), hpart "include" (by simp)]
  rfl

/-- Arguments that shape no records leave records whole. -/
theorem projectAll_unshaped (s : Store) (t : Table) (records : List Record) {args : Json}
    (h : args.Unshaped) :
    s.projectAll t records args = .ok (.arr (records.map fun r => .obj (t.columns r))) := by
  have hproject : (fun r => s.project t r args) = fun r => pure (.obj (t.columns r)) :=
    funext fun r => project_unshaped s t r h
  rw [projectAll, hproject, List.mapM_pure]
  rfl

/-- Arguments without `select` and `include` leave a record whole. -/
theorem project_whole (s : Store) (t : Table) (r : Record) {args : Json}
    (hselect : args.get? "select" = none) (hinclude : args.get? "include" = none) :
    s.project t r args = .ok (.obj (t.columns r)) :=
  project_unshaped s t r (Json.unshaped_of_absent hselect hinclude)

/-- Arguments without `select` and `include` leave records whole. -/
theorem projectAll_whole (s : Store) (t : Table) (records : List Record) {args : Json}
    (hselect : args.get? "select" = none) (hinclude : args.get? "include" = none) :
    s.projectAll t records args = .ok (.arr (records.map fun r => .obj (t.columns r))) :=
  projectAll_unshaped s t records (Json.unshaped_of_absent hselect hinclude)

end Store

end ModelGateway
