import ModelGateway.Proofs.Record.Numbers
import ModelGateway.Proofs.Store.Clash
import ModelGateway.Proofs.Store.Counter
import ModelGateway.Proofs.Store.Course

/-!
# Columns that are numbered by a counter

* **Counted columns** (`Store.Counted`): the counter of a table bounds the numbers of a column as
  long as creations give no other numbers for it than 64-bit whole ones and these reach (`Admits`),
  and updates do not take it past the counter (`Spares`). One write keeps this (`Counted.create`,
  `Counted.update`, `Counted.remove`), and so does a course of such writes (`Rule.counting`,
  `Course.counted`).
* **Drawn numbers** (`Course.drawn_number_fresh`): then a creation that does not give the column
  draws a number that no row has, and is not refused for it.
* **Updates** (`update_overtakes_counter`): an update that gives the column a greater number does
  not move the counter, and a later creation draws the same number.
-/

namespace ModelGateway

/-! ## Counted values -/

namespace Json

variable {value : Json} {counter n : Int}

/-- A number beyond the counter equals no counted value. -/
theorem CountedBy.valuesEqual_ofInt (h : value.CountedBy counter) (hn : IsInt64 n)
    (hlt : counter < n) : valuesEqual (.ofInt n) value = false := by
  obtain ⟨x, hx, hxn⟩ := exists_ofInt hn
  rw [hx]
  cases value with
  | num y =>
    obtain ⟨m, hm, hle⟩ := h y rfl
    have hgt : compareNumbers x y = .gt := by
      unfold compareNumbers
      rw [hxn, hm]
      exact compare_gt_iff_gt.mpr (Int.lt_of_le_of_lt hle hlt)
    rw [valuesEqual, hgt]
    rfl
  | _ => rfl

end Json

/-- A numbered value is counted, if it is a 64-bit whole number or no number where it is given. -/
theorem Draft.Numbered.countedBy {data connected : Entries Json} {f : Field} {before counter : Int}
    {value : Json} (h : Numbered data connected f before counter value) (hbefore : IsInt64 before)
    (hcounter : IsInt64 counter)
    (hgiven : ∀ x, given? data connected f = some (.num x) → x.IsInt64) :
    value.CountedBy counter := by
  unfold Numbered at h
  intro x hx
  cases hvalue : given? data connected f with
  | some given =>
    rw [hvalue] at h
    obtain ⟨rfl, hle⟩ := h
    subst hx
    obtain ⟨n, hn⟩ := Option.isSome_iff_exists.mp (hgiven x hvalue)
    exact ⟨n, hn, hle n hn⟩
  | none =>
    rw [hvalue] at h
    obtain ⟨n, rfl, hlt, hle⟩ := h
    have hn : IsInt64 n := by
      unfold IsInt64 at hbefore hcounter ⊢
      omega
    obtain ⟨y, hy, hyn⟩ := Json.exists_ofInt hn
    obtain rfl : x = y := by
      rw [hy] at hx
      cases hx
      rfl
    exact ⟨n, hyn, hle⟩

/-- The counter of a table is a 64-bit number that bounds the numbers of a column. -/
structure Table.Counted (t : Table) (column : String) : Prop where
  int64 : IsInt64 t.counter
  rows : ∀ e ∈ t.rows, (Record.value e.2.data column).CountedBy t.counter

/-- A column of a model that takes its values from the counter. -/
structure Model.Counts (m : Model) (f : Field) : Prop where
  mem : f ∈ m.scalarFields
  counts : Draft.Counts m.scalarFields f

/-! ## What keeps a column counted -/

namespace Store

variable {d : Document} {s s₀ : Store}

/-- What a creation may give for a column of a model: no number, or a 64-bit whole number. And the
64-bit numbers must reach for the columns that it draws. -/
def Admits (model : String) (f : Field) (s : Store) (written : String) (data : Json) : Prop :=
  written = model → ∀ t entries pairs, s.tableOf model = .ok t → data = .obj entries →
    s.foreignKeys entries t.model.relationFields = .ok pairs →
    Draft.Room entries (Entries.ofList pairs) t.model.scalarFields t.counter ∧
      ∀ x, Draft.given? entries (Entries.ofList pairs) f = some (.num x) → x.IsInt64

/-- What an update may write: nothing that takes a column of a model past the counter. -/
def Spares (model : String) (f : Field) (s : Store) (written : String) (data : Json) : Prop :=
  written = model → ∀ t entries, s.tableOf model = .ok t → data = .obj entries →
    t.model.Reaches f.name t.counter entries

/-- The writes that admit and spare a column. -/
def Rule.counting (model : String) (f : Field) : Rule where
  creation _ p written data := Admits model f p.store written data
  update _ p written _ _ data := Spares model f p.store written data

/-- In a call that started at `s₀`, a column of a model that takes its values from the counter is
counted, as far as the rows are concerned that the store has and those that it had. -/
structure Counted (model : String) (f : Field) (s₀ s : Store) : Prop where
  named : s.Named
  table : ∀ t, s.tableOf model = .ok t → t.model.Counts f → t.Counted f.name
  found : ∀ t, s.tableOf model = .ok t → t.model.Counts f →
    ∀ e ∈ s₀.rowsOf model, (Record.value e.2.data f.name).CountedBy t.counter

namespace Counted

variable {model written : String} {f : Field} {t t' : Table}

/-- Replacing a table keeps a column counted if the new table has it counted and a counter that is
no lower. -/
theorem setTable (h : Counted model f s₀ s) (found : s.tableOf written = .ok t)
    (hmodel : t'.model = t.model)
    (hstep : written = model → t.model.Counts f → t.counter ≤ t'.counter ∧ t'.Counted f.name) :
    Counted model f s₀ (s.setTable t') := by
  have hname : t'.model.name = written := hmodel ▸ h.named written t found
  refine ⟨h.named.setTable t', ?_, ?_⟩
  · intro u hu hf
    rw [tableOf_setTable, hname] at hu
    split_ifs at hu with heq
    · cases hu
      rw [hmodel] at hf
      exact (hstep heq.symm hf).2
    · exact h.table u hu hf
  · intro u hu hf e he
    rw [tableOf_setTable, hname] at hu
    split_ifs at hu with heq
    · cases hu
      subst heq
      rw [hmodel] at hf
      exact (h.found t found hf e he).mono (hstep rfl hf).1
    · exact h.found u hu hf e he

/-- Filling a record moves the counter of its table up only, and the value of the column is
counted. -/
theorem filling {supply : Supply} {p : Progress} {entries : Entries Json} {draft : Draft}
    {filled : Except Fault Record} (h : Counted model f s₀ p.store)
    (found : p.store.tableOf model = .ok t) (hf : t.model.Counts f)
    (hadmits : Admits model f p.store model (.obj entries))
    (hfilling : Progress.Filling supply p t entries draft filled) :
    t.counter ≤ draft.counter ∧ IsInt64 draft.counter ∧
      ∀ r, filled = .ok r → (Record.value r f.name).CountedBy draft.counter := by
  obtain ⟨pairs, hpairs, hfill⟩ := hfilling.filled_eq
  obtain ⟨hroom, hgiven⟩ := hadmits rfl t entries pairs found rfl hpairs
  have hcounter := (h.table t found hf).int64
  have hdraft := Draft.le_counter_fill supply (d := ⟨t.counter, p.drawn⟩) [] hcounter hroom
  rw [hfill] at hdraft
  refine ⟨hdraft.1, hdraft.2, ?_⟩
  rintro r rfl
  have hnumbered := Draft.fill_numbered hf.counts hf.mem hcounter hroom hfill
  exact hnumbered.countedBy hcounter hdraft.2 hgiven

/-- A creation that admits the column keeps it counted. -/
theorem create {p : Progress} (h : Counted model f s₀ p.store) (supply : Supply) {data : Json}
    (hadmits : Admits model f p.store written data) :
    Counted model f s₀ (p.create supply written data).1.store := by
  have ho := Progress.create_outcome supply p written data
  generalize p.create supply written data = outcome at ho
  cases ho with
  | refused => exact h
  | @unfilled t entries draft fault found object filling
  | @clashing t entries draft r fault found object filling clash =>
    subst object
    refine h.setTable found rfl ?_
    rintro rfl hf
    obtain ⟨hle, hint, -⟩ := h.filling found hf hadmits filling
    refine ⟨hle, hint, ?_⟩
    intro e he
    exact ((h.table t found hf).rows e he).mono hle
  | @stored t t' entries draft r found object filling stored =>
    subst object
    obtain ⟨hmodel, hcounter, -⟩ := Table.store_frame stored
    refine h.setTable found hmodel ?_
    rintro rfl hf
    obtain ⟨hle, hint, hvalue⟩ := h.filling found hf hadmits filling
    dsimp only at hcounter
    rw [hcounter]
    refine ⟨hle, by rwa [hcounter], ?_⟩
    intro e he
    rw [hcounter]
    rcases (Table.mem_rows_store stored).mp he with rfl | hold
    · exact hvalue r rfl
    · exact ((h.table t found hf).rows e hold.1).mono hle

/-- An update that spares the column keeps it counted. -/
theorem update {p : Progress} (h : Counted model f s₀ p.store) (supply : Supply) {key : RowKey}
    {row : Row} {data : Json} (hfound : (key, row) ∈ s₀.rowsOf written)
    (hspares : Spares model f p.store written data) :
    Counted model f s₀ (p.update supply written key row data).1.store := by
  have ho := Progress.update_outcome supply p written key row data
  generalize p.update supply written key row data = outcome at ho
  cases ho with
  | refused => exact ⟨h.named, h.table, h.found⟩
  | @stored t t' entries drawn r found object rewriting stored =>
    subst object
    obtain ⟨hmodel, hcounter, -⟩ := Table.store_frame stored
    refine h.setTable found hmodel ?_
    rintro rfl hf
    refine ⟨Int.le_of_eq hcounter.symm, by rw [hcounter]; exact (h.table t found hf).int64, ?_⟩
    intro e he
    rw [hcounter]
    rcases (Table.mem_rows_store stored).mp he with rfl | hold
    · -- the row was counted when it was found, and the update does not take it past the counter
      obtain ⟨applied, happlied, hstamped⟩ := rewriting.rewritten
      have hrow := h.found t found hf _ hfound
      have hvalue := applyData_countedBy (hspares rfl t entries found rfl) hrow happlied
      have hwritten := stampUpdated_countedBy supply entries t.model.fields p.drawn hvalue
      rwa [hstamped] at hwritten
    · exact (h.table t found hf).rows e hold.1

/-- Removing a row keeps a column counted. -/
theorem remove (h : Counted model f s₀ s) (found : s.tableOf t.model.name = .ok t)
    (key : RowKey) : Counted model f s₀ (s.setTable (t.remove key)) := by
  refine h.setTable found rfl ?_
  rintro rfl hf
  refine ⟨Int.le_refl _, (h.table t found hf).int64, ?_⟩
  intro e he
  exact (h.table t found hf).rows e (List.mem_filter.mp he).1

end Counted

/-- In the course of writes that admit and spare it, a column stays counted. -/
theorem Course.counted {model : String} {f : Field}
    (h : Course d (.counting model f) s₀ s) : Counted model f s₀ s := by
  induction h with
  | start =>
    refine ⟨named_ofModels d.models, ?_, ?_⟩
    · intro t ht _
      obtain ⟨m, -, -, rfl⟩ := tableOf_ofModels ht
      have hzero : IsInt64 0 := by decide
      exact ⟨hzero, fun e he => absurd he List.not_mem_nil⟩
    · intro t ht _ e he
      obtain ⟨m, -, -, rfl⟩ := tableOf_ofModels ht
      rw [rowsOf_of_tableOf ht] at he
      exact absurd he List.not_mem_nil
  | next _ ih =>
    refine ⟨ih.named, ih.table, ?_⟩
    intro t ht hf e he
    rw [rowsOf_of_tableOf ht] at he
    exact (ih.table t ht hf).rows e he
  | create supply _ _ allowed ih => exact ih.create supply allowed
  | update supply _ _ found _ allowed ih => exact ih.update supply found allowed
  | remove key _ found ih => exact ih.remove found key

/-! ## Drawn numbers -/

/-- A creation that leaves a counted column alone draws a number for it that the counter had not
reached. -/
theorem Counted.exists_drawn {model : String} {f : Field} {supply : Supply} {p : Progress}
    {t : Table} {entries : Entries Json} {draft : Draft} {r : Record}
    (h : Counted model f s₀ p.store) (found : p.store.tableOf model = .ok t)
    (hf : t.model.Counts f) (hleaves : t.model.Leaves f.name entries)
    (hadmits : Admits model f p.store model (.obj entries))
    (hfilling : Progress.Filling supply p t entries draft (.ok r)) :
    ∃ n, Record.value r f.name = .ofInt n ∧ IsInt64 n ∧ t.counter < n := by
  obtain ⟨-, hdraft, -⟩ := h.filling found hf hadmits hfilling
  obtain ⟨pairs, hpairs, hfill⟩ := hfilling.filled_eq
  obtain ⟨hroom, -⟩ := hadmits rfl t entries pairs found rfl hpairs
  have hcounter := (h.table t found hf).int64
  have hnumbered := Draft.fill_numbered hf.counts hf.mem hcounter hroom hfill
  unfold Draft.Numbered at hnumbered
  rw [given?_of_leaves hleaves hpairs] at hnumbered
  obtain ⟨n, hvalue, hlt, hle⟩ := hnumbered
  refine ⟨n, hvalue, ?_, hlt⟩
  dsimp only at hlt
  unfold IsInt64 at hcounter hdraft ⊢
  omega

/-- In the course of writes that admit and spare a counted column, a creation that leaves it alone
draws a 64-bit number for it that equals the value of no row, and so fails on no unique group with
the column. -/
theorem Course.drawn_number_fresh {model : String} {f : Field} {p : Progress} {t : Table}
    {entries : Entries Json} (h : Course d (.counting model f) s₀ p.store)
    (found : p.store.tableOf model = .ok t) (hf : t.model.Counts f)
    (hleaves : t.model.Leaves f.name entries)
    (hadmits : Admits model f p.store model (.obj entries)) (supply : Supply) :
    (∀ draft r, Progress.Filling supply p t entries draft (.ok r) →
      ∃ n, Record.value r f.name = .ofInt n ∧ IsInt64 n ∧ t.counter < n ∧
        ∀ e ∈ t.rows,
          valuesEqual (Record.value r f.name) (Record.value e.2.data f.name) = false) ∧
    ∀ group, f.name ∈ group →
      (p.create supply model (.obj entries)).2 ≠ .error (.notUnique group) := by
  have hcounted := h.counted
  have hfresh : ∀ draft r, Progress.Filling supply p t entries draft (.ok r) →
      ∃ n, Record.value r f.name = .ofInt n ∧ IsInt64 n ∧ t.counter < n ∧
        ∀ e ∈ t.rows,
          valuesEqual (Record.value r f.name) (Record.value e.2.data f.name) = false := by
    intro draft r hfilling
    obtain ⟨n, hvalue, hint, hlt⟩ := hcounted.exists_drawn found hf hleaves hadmits hfilling
    refine ⟨n, hvalue, hint, hlt, ?_⟩
    intro e he
    rw [hvalue]
    exact ((hcounted.table t found hf).rows e he).valuesEqual_ofInt hint hlt
  refine ⟨hfresh, ?_⟩
  intro group hgroup hfail
  obtain ⟨draft, r, hfilling, -, e, he, hclash⟩ := Progress.exists_filling_of_notUnique found hfail
  obtain ⟨n, -, -, -, hdiffer⟩ := hfresh draft r hfilling
  have hequal := (hclash f.name hgroup).2.2
  rw [hdiffer e he] at hequal
  cases hequal

/-! ## Tickets -/

namespace Tickets

/-- The number of a ticket, which the counter gives if the creation does not. -/
def id : Field where
  name := "id"
  kind := .scalar
  typeName := "Int"
  isList := false
  isRequired := true
  isUnique := false
  isId := true
  isUpdatedAt := false
  hasDefault := true
  default := some (.obj [("name", .str "autoincrement"), ("args", .arr [])])
  relationName := none
  fromFields := []
  toFields := []

/-- A ticket is a number. -/
def model : Model where
  name := "Ticket"
  fields := [id]
  primaryKey := none

/-- The document with tickets alone. -/
def document : Document where
  models := [model]
  outputs := ⟨[], []⟩
  enums := ⟨[], []⟩
  mappings := []
  otherReads := []
  otherWrites := []

/-- The number of a ticket is counted. -/
theorem counts_id : model.Counts id where
  mem := List.mem_singleton_self _
  counts :=
    { automatic := rfl
      notStamped := rfl
      single := rfl
      alone := by
        intro g hg _
        exact List.mem_singleton.mp hg }

/-- Creating a ticket without data is admitted while the counter is below the last number. -/
theorem admits {s : Store} {t : Table} (found : s.tableOf "Ticket" = .ok t)
    (hmodel : t.model = model) (hcounter : t.counter + 1 ≤ 9223372036854775807) :
    Admits "Ticket" id s "Ticket" (.obj []) := by
  intro _ u entries pairs hu hdata hpairs
  obtain rfl : t = u := Except.ok.inj (found.symm.trans hu)
  cases hdata
  rw [hmodel] at hpairs ⊢
  obtain rfl : pairs = [] := (Except.ok.inj hpairs).symm
  refine ⟨⟨hcounter, ?_⟩, ?_⟩
  · intro f _ _ n hn
    cases hn
  · intro x hx
    cases hx

/-- The store in which calls leave the tickets. -/
def made (calls : List Call) : Store :=
  calls.foldl (fun s c => s.after Seats.supply c) (ofModels document.models)

end Tickets

/-- The second ticket gets a number that the first one does not have. -/
theorem second_ticket_fresh :
    let p := (Progress.create Seats.supply ⟨ofModels Tickets.document.models, 0⟩ "Ticket"
      (.obj [])).1
    let t := p.store.current (Table.empty Tickets.model)
    Course Tickets.document (.counting "Ticket" Tickets.id) (ofModels Tickets.document.models)
        p.store ∧
      p.store.tableOf "Ticket" = .ok t ∧ t.model.Counts Tickets.id ∧
      t.model.Leaves Tickets.id.name [] ∧
      Admits "Ticket" Tickets.id p.store "Ticket" (.obj []) ∧
      ((∀ draft r, Progress.Filling Seats.supply p t [] draft (.ok r) →
        ∃ n, Record.value r "id" = .ofInt n ∧ IsInt64 n ∧ t.counter < n ∧
          ∀ e ∈ t.rows,
            valuesEqual (Record.value r "id") (Record.value e.2.data "id") = false) ∧
      ∀ group, "id" ∈ group →
        (p.create Seats.supply "Ticket" (.obj [])).2 ≠ .error (.notUnique group)) := by
  intro p t
  have hfirst : Admits "Ticket" Tickets.id (ofModels Tickets.document.models) "Ticket" (.obj []) :=
    Tickets.admits rfl rfl (by decide)
  have hcourse : Course Tickets.document (.counting "Ticket" Tickets.id)
      (ofModels Tickets.document.models) p.store :=
    .create Seats.supply .start (.obj List.nodup_nil fun _ he => absurd he List.not_mem_nil) hfirst
  have found : p.store.tableOf "Ticket" = .ok t := rfl
  have hleaves : t.model.Leaves Tickets.id.name [] := fun e he => absurd he List.not_mem_nil
  have hadmits : Admits "Ticket" Tickets.id p.store "Ticket" (.obj []) :=
    Tickets.admits found rfl (by decide)
  exact ⟨hcourse, found, Tickets.counts_id, hleaves, hadmits,
    hcourse.drawn_number_fresh found Tickets.counts_id hleaves hadmits Seats.supply⟩

/-- A ticket is renumbered by an update, and the next creation draws its number: the creation, which
gives no number, is refused for it. -/
theorem update_overtakes_counter :
    let s := Tickets.made [
      .execute "ticket" .create (.obj [("data", .obj [])]),
      .execute "ticket" .update (.obj [("where", .obj [("id", .ofNat 1)]),
        ("data", .obj [("id", .ofNat 2)])])]
    let t := s.current (Table.empty Tickets.model)
    Reachable Tickets.document s ∧ s.tableOf "Ticket" = .ok t ∧ t.model.Counts Tickets.id ∧
      t.model.Leaves Tickets.id.name [] ∧
      t.rows.map (fun e => Record.value e.2.data "id") = [.ofNat 2] ∧
      (s.execute Seats.supply "ticket" .create (.obj [("data", .obj [])])).2 =
        .error (.notUnique ["id"]) := by
  intro s t
  have hs : Reachable Tickets.document s :=
    Reachable.start.foldl Seats.supply (by simp [Call.WellFormed, Entries.names])
  have hleaves : t.model.Leaves Tickets.id.name [] := fun e he => absurd he List.not_mem_nil
  exact ⟨hs, rfl, Tickets.counts_id, hleaves, rfl, rfl⟩

end Store

end ModelGateway
