import ModelGateway.Proofs.Store.Course

/-!
# What all records of a store have

A property of single records that every creation gives its record, and that every update keeps
(`RecordInvariant`), is one of all records of all tables: a single write keeps it so
(`RecordInvariant.create`, `RecordInvariant.update`), hence it holds at each point of each call
(`Store.Course.allRecords`) and of every reachable store (`Store.Reachable.allRecords`).
-/

namespace ModelGateway

variable {d : Document} {P : Model → Record → Prop}

/-- The records that are filled for the models of a document have a property, and rewriting a row
whose record has it gives a record that has it. -/
structure RecordInvariant (d : Document) (P : Model → Record → Prop) : Prop where
  filled {supply : Supply} {p : Progress} {t : Table} {entries : Entries Json} {draft : Draft}
    {r : Record} : t.model ∈ d.models →
    Progress.Filling supply p t entries draft (.ok r) → P t.model r
  rewritten {supply : Supply} {p : Progress} {t : Table} {row : Row} {entries : Entries Json}
    {drawn : Nat} {r : Record} : t.model ∈ d.models →
    Progress.Rewriting supply p t row entries drawn r → P t.model row.data → P t.model r

namespace Store

/-- All stored records have a property, with the model of their table. -/
def AllRecords (P : Model → Record → Prop) (s : Store) : Prop :=
  ∀ model t, s.tableOf model = .ok t → ∀ e ∈ t.rows, P t.model e.2.data

variable {s s₀ : Store} {t t' : Table}

/-- Replacing a table by one whose records have the property leaves no record without it. -/
theorem AllRecords.setTable (h : s.AllRecords P) (ht : ∀ e ∈ t.rows, P t.model e.2.data) :
    (s.setTable t).AllRecords P := by
  intro name u hu
  rw [tableOf_setTable] at hu
  split_ifs at hu
  · cases hu
    exact ht
  · exact h name u hu

/-- The store without rows has no record without the property. -/
theorem allRecords_ofModels (models : List Model) : (ofModels models).AllRecords P := by
  intro model t ht e he
  obtain ⟨m, -, -, rfl⟩ := tableOf_ofModels ht
  exact absurd he List.not_mem_nil

end Store

/-- Storing a record that has a property leaves no record of the table without it. -/
theorem Table.forall_rows_store {t t' : Table} {r : Record} {n : Nat} {replacing : Option RowKey}
    (ht : ∀ e ∈ t.rows, P t.model e.2.data) (hstored : t.store r n replacing = .ok t')
    (hr : P t.model r) : ∀ e ∈ t'.rows, P t'.model e.2.data := by
  intro e he
  rw [(store_frame hstored).1]
  rcases (mem_rows_store hstored).mp he with rfl | ho
  · exact hr
  · exact ht e ho.1

namespace RecordInvariant

variable {supply : Supply} {p : Progress} {model : String}

/-- A creation keeps an invariant of records. -/
theorem create (h : RecordInvariant d P) (hs : p.store.Sound d) (hall : p.store.AllRecords P)
    (supply : Supply) (model : String) (data : Json) :
    (p.create supply model data).1.store.AllRecords P := by
  have ho := Progress.create_outcome supply p model data
  generalize p.create supply model data = outcome at ho
  cases ho with
  | refused => exact hall
  | unfilled found _ _ | clashing found _ _ _ =>
    have ht := hall model _ found
    exact hall.setTable ht
  | @stored t t' _ draft r found _ filling stored =>
    have hr := h.filled (hs.declared model t found) filling
    have ht : ∀ e ∈ ({ t with counter := draft.counter, nextSequence := t.nextSequence + 1 } :
        Table).rows, P t.model e.2.data := hall model t found
    exact hall.setTable (Table.forall_rows_store ht stored hr)

/-- An update of a row whose record has the property keeps an invariant of records. -/
theorem update (h : RecordInvariant d P) (hs : p.store.Sound d) (hall : p.store.AllRecords P)
    (supply : Supply) (key : RowKey) {row : Row} (data : Json)
    (hrow : ∀ t, p.store.tableOf model = .ok t → P t.model row.data) :
    (p.update supply model key row data).1.store.AllRecords P := by
  have ho := Progress.update_outcome supply p model key row data
  generalize p.update supply model key row data = outcome at ho
  cases ho with
  | refused => exact hall
  | @stored t t' _ _ r found _ rewriting stored =>
    have hr := h.rewritten (hs.declared model t found) rewriting (hrow t found)
    exact hall.setTable (Table.forall_rows_store (hall model t found) stored hr)

end RecordInvariant

namespace Store

/-- At each point of a call all records have an invariant, and so had those at its start, which are
the ones that its updates rewrite. -/
theorem Course.allRecords {rule : Rule} (hd : d.WellFormed) (hP : RecordInvariant d P)
    (h : Course d rule s₀ s) : s₀.AllRecords P ∧ s.AllRecords P := by
  induction h with
  | start => exact ⟨allRecords_ofModels d.models, allRecords_ofModels d.models⟩
  | next _ ih => exact ⟨ih.2, ih.2⟩
  | create supply before _ _ ih =>
    exact ⟨ih.1, hP.create (before.sound hd).2.1 ih.2 supply _ _⟩
  | @update s₀ p supply model key row data before _ found _ _ ih =>
    obtain ⟨-, hs, hlater⟩ := before.sound hd
    refine ⟨ih.1, hP.update hs ih.2 supply key data ?_⟩
    intro t ht
    obtain ⟨t₀, ht₀, hrow⟩ := exists_tableOf_of_mem_rowsOf found
    obtain ⟨u, hu, hmodel, -⟩ := hlater model t₀ ht₀
    obtain rfl : u = t := Except.ok.inj (hu.symm.trans ht)
    exact hmodel ▸ ih.1 model t₀ ht₀ _ hrow
  | remove key _ found ih =>
    exact ⟨ih.1, ih.2.setTable fun e he => ih.2 _ _ found e (List.mem_filter.mp he).1⟩

/-- All records of a reachable store have an invariant. -/
theorem Reachable.allRecords (hd : d.WellFormed) (hP : RecordInvariant d P)
    (h : Reachable d s) : s.AllRecords P :=
  ((h.course hd).allRecords hd hP).2

end Store

end ModelGateway
