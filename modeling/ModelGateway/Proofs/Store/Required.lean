import ModelGateway.Proofs.Store.Course
import ModelGateway.Proofs.Store.Nulls

/-!
# Required columns

A row is filled (`Model.Filled`) if no required column of it is null. A store need not have such
rows only: a creation is refused if a required column has no value, but not if it is given null, and
an update may set any column to null.

* **Single writes** (`FilledSince.create_iff`, `FilledSince.update_iff`): a write to a store whose
  rows are filled keeps them so exactly if it fails or gives no required column a null (`Fills`,
  `Refills`).
* **Whole runs** (`Course.filled_iff`): in a course of such writes (`Rule.filling`) all rows are
  filled.
* **Nulls** (`required_column_null`): rows of a reachable store that are not filled.
-/

namespace ModelGateway

/-- No required column of the record is null. -/
def Model.Filled (m : Model) (r : Record) : Prop :=
  ∀ f ∈ m.scalarFields, f.isRequired = true → Record.value r f.name ≠ .null

/-- Some column decides what a creation stores under the name of a column. -/
theorem Model.exists_column? {m : Model} {f : Field} (hf : f ∈ m.scalarFields) :
    ∃ g, m.column? f.name = some g := by
  refine Option.isSome_iff_exists.mp (List.find?_isSome.mpr ⟨f, List.mem_reverse.mpr hf, ?_⟩)
  exact beq_self_eq_true f.name

namespace Store

/-- In no row a required column is null. -/
def Filled (s : Store) : Prop :=
  ∀ model t, s.tableOf model = .ok t → ∀ e ∈ t.rows, t.model.Filled e.2.data

/-- The data of a creation leave no required column of the model null. -/
def Fills (s : Store) (model : String) (data : Json) : Prop :=
  ∀ t entries pairs, s.tableOf model = .ok t → data = .obj entries →
    s.foreignKeys entries t.model.relationFields = .ok pairs →
    ∀ f ∈ t.model.scalarFields, f.isRequired = true →
      ∀ g, t.model.column? f.name = some g → ¬ Draft.Nulls entries (Entries.ofList pairs) g

/-- The data of an update clear no required column of a row, other than one that is stamped with the
time of the update. -/
def Refills (s : Store) (model : String) (row : Record) (data : Json) : Prop :=
  ∀ t entries, s.tableOf model = .ok t → data = .obj entries →
    ∀ f ∈ t.model.scalarFields, f.isRequired = true → s.Clears t.model entries row f.name →
      ∃ g ∈ t.model.fields, g.name = f.name ∧ g.isUpdatedAt = true ∧
        Entries.contains entries f.name = false

end Store

/-! ## Single records -/

namespace Progress

variable {supply : Supply} {p : Progress} {model : String} {t : Table} {entries : Entries Json}
variable {r : Record}

/-- The record of a creation is filled if its data leave no required column null. -/
theorem Filling.fills_iff {draft : Draft} (h : Filling supply p t entries draft (.ok r))
    (found : p.store.tableOf model = .ok t) :
    t.model.Filled r ↔ p.store.Fills model (.obj entries) := by
  constructor
  · intro hfilled u entries' pairs hu hdata hpairs f hf hrequired g hg hnulls
    cases hdata
    cases found.symm.trans hu
    exact hfilled f hf hrequired ((h.value_eq_null_iff hpairs hg).mpr hnulls)
  · intro hfills f hf hrequired hnull
    obtain ⟨pairs, hpairs, -⟩ := h.filled_eq
    obtain ⟨g, hg⟩ := Model.exists_column? hf
    have hnulls := (h.value_eq_null_iff hpairs hg).mp hnull
    exact hfills t entries pairs found rfl hpairs f hf hrequired g hg hnulls

/-- The record of an update is filled if the row was and the data clear no required column. -/
theorem Rewriting.refills_iff {row : Row} {drawn : Nat}
    (h : Rewriting supply p t row entries drawn r) (found : p.store.tableOf model = .ok t)
    (hrow : t.model.Filled row.data) :
    t.model.Filled r ↔ p.store.Refills model row.data (.obj entries) := by
  constructor
  · intro hfilled u entries' hu hdata f hf hrequired hclears
    cases hdata
    cases found.symm.trans hu
    by_contra hstamped
    push Not at hstamped
    refine hfilled f hf hrequired ((h.value_eq_null_iff (hrow f hf hrequired)).mpr ⟨?_, hclears⟩)
    intro g hg hname hupdated
    exact Bool.not_eq_false _ ▸ hstamped g hg hname hupdated
  · intro hrefills f hf hrequired hnull
    obtain ⟨hgiven, hclears⟩ := (h.value_eq_null_iff (hrow f hf hrequired)).mp hnull
    obtain ⟨g, hg, hname, hupdated, habsent⟩ :=
      hrefills t entries found rfl f hf hrequired hclears
    rw [hgiven g hg hname hupdated] at habsent
    cases habsent

end Progress

/-! ## Single writes -/

namespace Store

variable {d : Document} {s s₀ : Store} {t t' : Table} {model : String}

/-- In a call that started at `s₀`, all rows are filled, also those that the store had. -/
structure FilledSince (s₀ s : Store) : Prop where
  named : s.Named
  filled : s.Filled
  found : ∀ model t, s.tableOf model = .ok t → ∀ e ∈ s₀.rowsOf model, t.model.Filled e.2.data

namespace FilledSince

/-- The rows are filled after a table is replaced if those of the table are. -/
theorem setTable_iff (h : FilledSince s₀ s) (found : s.tableOf model = .ok t)
    (hmodel : t'.model = t.model) :
    (s.setTable t').Filled ↔ ∀ e ∈ t'.rows, t.model.Filled e.2.data := by
  have hname : t'.model.name = model := hmodel ▸ h.named model t found
  constructor
  · intro hfilled
    have hfound : (s.setTable t').tableOf model = .ok t' :=
      h.named.tableOf_setTable_self found hmodel
    rw [← hmodel]
    exact hfilled model t' hfound
  · intro hrows name u hu
    rw [tableOf_setTable] at hu
    split_ifs at hu
    · cases hu
      rwa [hmodel]
    · exact h.filled name u hu

/-- The rows are filled after a record is stored if the record is. -/
theorem store_iff (h : FilledSince s₀ s) (found : s.tableOf model = .ok t) {u : Table} {r : Record}
    {n : Nat} {replacing : Option RowKey} (stored : u.store r n replacing = .ok t')
    (hmodel : u.model = t.model) (hrows : u.rows = t.rows) :
    (s.setTable t').Filled ↔ t.model.Filled r := by
  rw [h.setTable_iff found ((Table.store_frame stored).1.trans hmodel)]
  constructor
  · exact fun hfilled => hfilled _ ((Table.mem_rows_store stored).mpr (.inl rfl))
  · intro hr e he
    rcases (Table.mem_rows_store stored).mp he with rfl | ⟨hold, -⟩
    · exact hr
    · rw [hrows] at hold
      exact h.filled model t found e hold

/-- A creation keeps all rows filled exactly if it fails or leaves no required column null. -/
theorem create_iff {p : Progress} (h : FilledSince s₀ p.store) (supply : Supply) (model : String)
    (data : Json) :
    (p.create supply model data).1.store.Filled ↔
      ∀ r, (p.create supply model data).2 = .ok r → p.store.Fills model data := by
  have ho := Progress.create_outcome supply p model data
  generalize p.create supply model data = outcome at ho
  cases ho with
  | refused => exact iff_of_true h.filled fun _ hr => (nomatch hr)
  | @unfilled t entries draft fault found object filling
  | @clashing t entries draft r fault found object filling clash =>
    refine iff_of_true ((h.setTable_iff found ?_).mpr ?_) fun _ hr => (nomatch hr)
    · rfl
    · exact h.filled model t found
  | @stored t t' entries draft r found object filling stored =>
    subst object
    rw [h.store_iff found stored rfl rfl, filling.fills_iff found]
    exact ⟨fun hfills _ _ => hfills, fun hfills => hfills r rfl⟩

/-- An update of a row that was there at the start of the call keeps all rows filled exactly if it
fails or clears no required column. -/
theorem update_iff {p : Progress} (h : FilledSince s₀ p.store) (supply : Supply) {model : String}
    {key : RowKey} {row : Row} (hfound : (key, row) ∈ s₀.rowsOf model) (data : Json) :
    (p.update supply model key row data).1.store.Filled ↔
      ∀ r, (p.update supply model key row data).2 = .ok r →
        p.store.Refills model row.data data := by
  have ho := Progress.update_outcome supply p model key row data
  generalize p.update supply model key row data = outcome at ho
  cases ho with
  | refused => exact iff_of_true h.filled fun _ hr => (nomatch hr)
  | @stored t t' entries drawn r found object rewriting stored =>
    subst object
    have hrow := h.found model t found _ hfound
    rw [h.store_iff found stored rfl rfl, rewriting.refills_iff found hrow]
    exact ⟨fun hrefills _ _ => hrefills, fun hrefills => hrefills r rfl⟩

/-- Replacing a table of a model by another of it is a step of the call. -/
theorem setTable (h : FilledSince s₀ s) (found : s.tableOf model = .ok t)
    (hmodel : t'.model = t.model) (hfilled : (s.setTable t').Filled) :
    FilledSince s₀ (s.setTable t') := by
  have hname : t'.model.name = model := hmodel ▸ h.named model t found
  refine ⟨h.named.setTable t', hfilled, ?_⟩
  intro name u hu
  rw [tableOf_setTable, hname] at hu
  split_ifs at hu with heq
  · cases hu
    subst heq
    rw [hmodel]
    exact h.found name t found
  · exact h.found name u hu

/-- A creation that fails or leaves no required column null is a step of the call. -/
theorem create {p : Progress} (h : FilledSince s₀ p.store) (supply : Supply) {data : Json}
    (allowed : ∀ r, (p.create supply model data).2 = .ok r → p.store.Fills model data) :
    FilledSince s₀ (p.create supply model data).1.store := by
  have hfilled := (h.create_iff supply model data).mpr allowed
  have ho := Progress.create_outcome supply p model data
  generalize p.create supply model data = outcome at ho hfilled
  cases ho with
  | refused => exact h
  | unfilled found | clashing found => exact h.setTable found rfl hfilled
  | stored found _ _ stored => exact h.setTable found (Table.store_frame stored).1 hfilled

/-- An update that fails or clears no required column is a step of the call. -/
theorem update {p : Progress} (h : FilledSince s₀ p.store) (supply : Supply) {key : RowKey}
    {row : Row} {data : Json} (hfound : (key, row) ∈ s₀.rowsOf model)
    (allowed : ∀ r, (p.update supply model key row data).2 = .ok r →
      p.store.Refills model row.data data) :
    FilledSince s₀ (p.update supply model key row data).1.store := by
  have hfilled := (h.update_iff supply hfound data).mpr allowed
  have ho := Progress.update_outcome supply p model key row data
  generalize p.update supply model key row data = outcome at ho hfilled
  cases ho with
  | refused => exact ⟨h.named, h.filled, h.found⟩
  | stored found _ _ stored => exact h.setTable found (Table.store_frame stored).1 hfilled

/-- Removing a row is a step of the call. -/
theorem remove (h : FilledSince s₀ s) (found : s.tableOf t.model.name = .ok t) (key : RowKey) :
    FilledSince s₀ (s.setTable (t.remove key)) := by
  refine h.setTable found rfl ((h.setTable_iff found ?_).mpr ?_)
  · rfl
  · exact fun e he => h.filled _ t found e (List.mem_filter.mp he).1

end FilledSince

/-! ## Whole runs -/

/-- The writes that fail or leave no required column null. -/
def Rule.filling : Rule where
  creation supply p model data :=
    ∀ r, (p.create supply model data).2 = .ok r → p.store.Fills model data
  update supply p model key row data :=
    ∀ r, (p.update supply model key row data).2 = .ok r → p.store.Refills model row.data data

/-- As long as no write that succeeds leaves a required column null, all rows are filled. -/
theorem Course.filledSince (h : Course d .filling s₀ s) : FilledSince s₀ s := by
  induction h with
  | start =>
    refine ⟨named_ofModels d.models, ?_, ?_⟩
    · intro model t ht e he
      obtain ⟨m, -, -, rfl⟩ := tableOf_ofModels ht
      exact absurd he List.not_mem_nil
    · intro model t ht e he
      obtain ⟨m, -, -, rfl⟩ := tableOf_ofModels ht
      rw [rowsOf_of_tableOf ht] at he
      exact absurd he List.not_mem_nil
  | next _ ih =>
    refine ⟨ih.named, ih.filled, ?_⟩
    intro model t ht e he
    rw [rowsOf_of_tableOf ht] at he
    exact ih.filled model t ht e he
  | create supply _ _ allowed ih => exact ih.create supply allowed
  | update supply _ _ found _ allowed ih => exact ih.update supply found allowed
  | remove key _ found ih => exact ih.remove found key

/-- As long as no write that succeeds leaves a required column null, no row has one, and the next
write keeps this exactly if it fails or leaves no required column null either. -/
theorem Course.filled_iff {p : Progress} (h : Course d .filling s₀ p.store) (supply : Supply)
    (model : String) (data : Json) :
    p.store.Filled ∧
      ((p.create supply model data).1.store.Filled ↔
        ∀ r, (p.create supply model data).2 = .ok r → p.store.Fills model data) ∧
      ∀ key row, (key, row) ∈ s₀.rowsOf model →
        ((p.update supply model key row data).1.store.Filled ↔
          ∀ r, (p.update supply model key row data).2 = .ok r →
            p.store.Refills model row.data data) := by
  have hfilled := h.filledSince
  refine ⟨hfilled.filled, hfilled.create_iff supply model data, ?_⟩
  intro key row hrow
  exact hfilled.update_iff supply hrow data

/-! ## Seats -/

/-- The data of a seat leave no required column null if they give its row and its number. -/
theorem Seats.fills (found : s.tableOf "Seat" = .ok t) (hmodel : t.model = Seats.model)
    {row number guest : Json} (hrow : row ≠ .null) (hnumber : number ≠ .null) :
    s.Fills "Seat" (Seats.seat row number guest) := by
  intro u entries pairs hu hdata hpairs f hf hrequired g hg hnulls
  cases found.symm.trans hu
  cases hdata
  rw [hmodel] at hf hg
  have hgiven : ∃ value, value ≠ .null ∧ g.isList = false ∧
      Draft.given? [("row", row), ("number", number), ("guest", guest)] (Entries.ofList pairs) g =
        some value := by
    have hfields : Seats.model.scalarFields =
        [Seats.column "row" true, Seats.column "number" true, Seats.column "guest" false] := rfl
    rw [hfields] at hf
    simp only [List.mem_cons, List.not_mem_nil, or_false] at hf
    rcases hf with rfl | rfl | rfl
    · cases hg
      exact ⟨row, hrow, rfl, rfl⟩
    · cases hg
      exact ⟨number, hnumber, rfl, rfl⟩
    · cases hrequired
  obtain ⟨value, hvalue, hsingle, hgiven⟩ := hgiven
  rcases hnulls with hnull | ⟨hlist, -, -⟩ | ⟨habsent, -, -⟩ | ⟨habsent, -, -, -, -⟩
  · exact hvalue (Option.some.inj (hgiven.symm.trans hnull))
  · rw [hsingle] at hlist
    cases hlist
  all_goals
    rw [hgiven] at habsent
    cases habsent

/-- After a seat is created, the seats are filled, and the creation of a second one keeps them so
because its data leave neither its row nor its number null. -/
theorem second_seat_filled :
    let p := (Progress.create Seats.supply ⟨ofModels Seats.document.models, 0⟩ "Seat"
      (Seats.seat (.ofNat 1) (.ofNat 1) .null)).1
    let data := Seats.seat (.ofNat 1) (.ofNat 2) .null
    Course Seats.document .filling (ofModels Seats.document.models) p.store ∧
      p.store.Filled ∧ p.store.Fills "Seat" data ∧
      (p.create Seats.supply "Seat" data).1.store.Filled := by
  intro p data
  have hcourse : Course Seats.document .filling (ofModels Seats.document.models) p.store :=
    .create Seats.supply .start (by simp) fun _ _ =>
      Seats.fills rfl rfl Json.noConfusion Json.noConfusion
  have hfills : p.store.Fills "Seat" data :=
    Seats.fills rfl rfl Json.noConfusion Json.noConfusion
  obtain ⟨hfilled, hcreate, -⟩ := hcourse.filled_iff Seats.supply "Seat" data
  exact ⟨hcourse, hfilled, hfills, hcreate.mpr fun _ _ => hfills⟩

/-- A seat is created with null for its row, and another is updated to have null for its number.
Both columns are required. -/
theorem required_column_null :
    let s := Seats.made [
      .execute "seat" .create (.obj [("data", Seats.seat .null (.ofNat 1) .null)]),
      .execute "seat" .create (.obj [("data", Seats.seat (.ofNat 2) (.ofNat 1) .null)]),
      .execute "seat" .update (.obj [("where", .obj [("row", .ofNat 2)]),
        ("data", .obj [("number", .null)])])]
    let t := s.current (Table.empty Seats.model)
    Reachable Seats.document s ∧ s.tableOf "Seat" = .ok t ∧
      t.model.scalarFields.map (fun f => (f.name, f.isRequired)) =
        [("row", true), ("number", true), ("guest", false)] ∧
      t.records = [
        [("row", .null), ("number", .ofNat 1), ("guest", .null)],
        [("row", .ofNat 2), ("number", .null), ("guest", .null)]] ∧
      ¬ s.Filled := by
  intro s t
  have hs : Reachable Seats.document s :=
    Seats.reachable_made (by simp [Call.WellFormed, Entries.names])
  have ht : s.tableOf "Seat" = .ok t := rfl
  refine ⟨hs, ht, rfl, rfl, ?_⟩
  intro hfilled
  exact hfilled "Seat" t ht _ List.mem_cons_self (Seats.column "row" true) List.mem_cons_self rfl
    rfl

end Store

end ModelGateway
