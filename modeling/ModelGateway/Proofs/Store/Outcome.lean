import ModelGateway.Proofs.Store.Contents
import ModelGateway.Proofs.Store.Table

/-!
# What writing a single record can do

One inversion for each of the two writes on which all others are built.

* **Creating** (`create_outcome`): a creation is refused before anything changes, or counts up the
  table's counter and finds a column missing, or uses up a sequence number and clashes, or stores
  the record that the arguments and the defaults fill.
* **Updating** (`update_outcome`): an update is refused, or stores the changed record under the
  sequence number of the row that it replaces.

So a write that fails keeps all rows (`create_error_rows`, `update_error_rows`). Several creations
are inverted one at a time (`exists_rest_of_createEach`).

Where a creation is refused before anything changes, the fault is none of those that show only while
a record is made (`Fault.Late`): nothing that comes before has one (`Early`).
-/

namespace ModelGateway

/-! ## What comes before filling -/

/-- The faults that show only while a record is made: the counter has no number for it, or it
clashes with a row. -/
inductive Fault.Late : Fault → Prop
  | panic : Late .counterOverflow
  | clash (group : List String) : Late (.notUnique group)

/-- A step has none of the faults that show only while a record is made. -/
def Early {α : Type} (step : Except Fault α) : Prop :=
  ∀ fault, step = .error fault → ¬fault.Late

namespace Early

variable {α β : Type}

/-- A step that succeeds has no fault. -/
theorem ok (a : α) : Early (.ok a) := by
  intro fault h
  cases h

/-- A step that is refused for another reason. -/
theorem error {fault : Fault} (h : ¬fault.Late) : Early (.error fault : Except Fault α) := by
  rintro _ ⟨⟩
  exact h

/-- A sequence of two steps has a late fault only if one of them does. -/
theorem bind {step : Except Fault α} {next : α → Except Fault β} (h : Early step)
    (hnext : ∀ a, Early (next a)) : Early (step >>= next) := by
  intro fault hfail
  cases hstep : step with
  | error fault' =>
    rw [hstep] at hfail
    cases hfail
    exact h fault hstep
  | ok a =>
    rw [hstep] at hfail
    exact hnext a fault hfail

end Early

namespace Store

/-- Reading a connection has no late fault. -/
theorem early_connectValues (target : Json) :
    (pairs : List (String × String)) → Early (connectValues target pairs)
  | [] => .ok []
  | (column, referred) :: rest => by
    rw [connectValues]
    split
    · exact .error nofun
    · exact (early_connectValues target rest).bind fun _ => .ok _

/-- Finding a table has no late fault. -/
theorem early_tableOf (s : Store) (model : String) : Early (s.tableOf model) := by
  unfold tableOf
  split
  · exact .ok _
  · exact .error nofun

/-- Reading a relation argument has no late fault. -/
theorem early_foreignKey (s : Store) (field : Field) (argument : Json) :
    Early (s.foreignKey field argument) := by
  cases argument with
  | obj ops =>
    rw [foreignKey]
    split
    · exact .error (by rintro ⟨⟩)
    split
    · refine (s.early_tableOf _).bind fun table => ?_
      refine (early_connectValues _ _).bind fun values => ?_
      dsimp only
      split
      · exact .ok _
      · exact .error (by rintro ⟨⟩)
    · split
      · exact .ok _
      · exact .error (by rintro ⟨⟩)
  | _ => exact .error (by rintro ⟨⟩)

/-- Reading the relation arguments of a creation has no late fault. -/
theorem early_foreignKeys (s : Store) (data : Entries Json) :
    (fields : List Field) → Early (s.foreignKeys data fields)
  | [] => .ok []
  | field :: rest => by
    rw [foreignKeys]
    split
    · exact s.early_foreignKeys data rest
    · refine (s.early_foreignKey field _).bind fun columns => ?_
      exact (s.early_foreignKeys data rest).bind fun _ => .ok _

end Store

namespace Progress

variable {supply : Supply} {p : Progress} {model : String}

/-! ## Creating -/

/-- How the columns of a new record are filled: the relation arguments give foreign keys, and the
draft gives the values of all columns or a fault. -/
structure Filling (supply : Supply) (p : Progress) (t : Table) (entries : Entries Json)
    (draft : Draft) (filled : Except Fault Record) : Prop where
  known : (entries.names.find? fun name => (t.model.field? name).isNone) = none
  filled_eq : ∃ pairs, p.store.foreignKeys entries t.model.relationFields = .ok pairs ∧
    Draft.fill supply entries (Entries.ofList pairs) t.model.scalarFields [] ⟨t.counter, p.drawn⟩ =
      (draft, filled)

/-- The outcomes of creating a record of a model. -/
inductive CreateOutcome (supply : Supply) (p : Progress) (model : String) (data : Json) :
    Progress × Except Fault Record → Prop
  /-- Nothing changes. -/
  | refused (fault : Fault) (early : ¬fault.Late) :
      CreateOutcome supply p model data (p, .error fault)
  /-- A column has no value, or the counter no number for it; the counter has moved. -/
  | unfilled {t : Table} {entries : Entries Json} {draft : Draft} {fault : Fault}
      (found : p.store.tableOf model = .ok t) (object : data = .obj entries)
      (filling : Filling supply p t entries draft (.error fault)) :
      CreateOutcome supply p model data
        (⟨p.store.setTable { t with counter := draft.counter }, draft.drawn⟩, .error fault)
  /-- The record clashes; the counter and the sequence number have moved. -/
  | clashing {t : Table} {entries : Entries Json} {draft : Draft} {r : Record} {fault : Fault}
      (found : p.store.tableOf model = .ok t) (object : data = .obj entries)
      (filling : Filling supply p t entries draft (.ok r))
      (clash : ({ t with
        counter := draft.counter, nextSequence := t.nextSequence + 1 } : Table).store
          r t.nextSequence none = .error fault) :
      CreateOutcome supply p model data
        (⟨p.store.setTable
          { t with counter := draft.counter, nextSequence := t.nextSequence + 1 }, draft.drawn⟩,
          .error fault)
  /-- The record is stored. -/
  | stored {t t' : Table} {entries : Entries Json} {draft : Draft} {r : Record}
      (found : p.store.tableOf model = .ok t) (object : data = .obj entries)
      (filling : Filling supply p t entries draft (.ok r))
      (stored : ({ t with
        counter := draft.counter, nextSequence := t.nextSequence + 1 } : Table).store
          r t.nextSequence none = .ok t') :
      CreateOutcome supply p model data (⟨p.store.setTable t', draft.drawn⟩, .ok r)

/-- Creating a record has one of the outcomes. -/
theorem create_outcome (supply : Supply) (p : Progress) (model : String) (data : Json) :
    CreateOutcome supply p model data (p.create supply model data) := by
  unfold create
  cases ht : p.store.tableOf model with
  | error fault => exact .refused fault (p.store.early_tableOf model fault ht)
  | ok t =>
    cases data with
    | obj entries =>
      simp only [createFrom]
      cases hk : (Entries.names entries).find? fun name => (t.model.field? name).isNone with
      | some unknown => exact .refused _ nofun
      | none =>
        simp only
        cases hf : p.store.foreignKeys entries t.model.relationFields with
        | error fault => exact .refused fault (p.store.early_foreignKeys entries _ fault hf)
        | ok pairs =>
          simp only
          rcases hd : Draft.fill supply entries (Entries.ofList pairs) t.model.scalarFields []
            ⟨t.counter, p.drawn⟩ with ⟨draft, filled⟩
          have hfilling : Filling supply p t entries draft filled := ⟨hk, pairs, hf, hd⟩
          cases filled with
          | error fault => exact .unfilled ht rfl hfilling
          | ok r =>
            simp only [append]
            rcases hs : ({ t with counter := draft.counter, nextSequence := t.nextSequence + 1 } :
              Table).store r t.nextSequence none with fault | t'
            · simp only [Store.setTable_setTable]
              exact .clashing ht rfl hfilling hs
            · have hmodel : t'.model = ({ t with counter := draft.counter } : Table).model :=
                (Table.store_frame hs).1
              simp only [Store.setTable_setTable _ hmodel]
              exact .stored ht rfl hfilling hs
    | _ => exact .refused .dataNotObject nofun

/-- Creating a record in a table succeeds only by storing the record that is filled. -/
theorem exists_stored_of_create {t : Table} {data : Json} {r : Record}
    (found : p.store.tableOf model = .ok t) (h : (p.create supply model data).2 = .ok r) :
    ∃ t' entries draft, data = .obj entries ∧ Filling supply p t entries draft (.ok r) ∧
      t'.model = t.model ∧ (p.create supply model data).1.store = p.store.setTable t' := by
  have ho := create_outcome supply p model data
  generalize p.create supply model data = outcome at h ho
  cases ho with
  | @stored u t' entries draft _ found' object filling stored =>
    cases h
    obtain rfl : u = t := Except.ok.inj (found'.symm.trans found)
    exact ⟨t', entries, draft, object, filling, (Table.store_frame stored).1, rfl⟩
  | _ => cases h

/-! ## Updating -/

/-- How a row is changed: the entries of the data are applied, then the time of the update is
stamped. -/
structure Rewriting (supply : Supply) (p : Progress) (t : Table) (row : Row)
    (entries : Entries Json) (drawn : Nat) (r : Record) : Prop where
  rewritten : ∃ applied, p.store.applyData t.model entries row.data = .ok applied ∧
    stampUpdated supply entries t.model.fields applied p.drawn = (drawn, r)

/-- The outcomes of updating a row of a model. -/
inductive UpdateOutcome (supply : Supply) (p : Progress) (model : String) (key : RowKey) (row : Row)
    (data : Json) : Progress × Except Fault Record → Prop
  /-- The store does not change. -/
  | refused (drawn : Nat) (fault : Fault) :
      UpdateOutcome supply p model key row data (⟨p.store, drawn⟩, .error fault)
  /-- The changed record is stored in place of the row. -/
  | stored {t t' : Table} {entries : Entries Json} {drawn : Nat} {r : Record}
      (found : p.store.tableOf model = .ok t) (object : data = .obj entries)
      (rewriting : Rewriting supply p t row entries drawn r)
      (stored : t.store r row.sequence (some key) = .ok t') :
      UpdateOutcome supply p model key row data (⟨p.store.setTable t', drawn⟩, .ok r)

/-- Updating a row has one of the outcomes. -/
theorem update_outcome (supply : Supply) (p : Progress) (model : String) (key : RowKey) (row : Row)
    (data : Json) :
    UpdateOutcome supply p model key row data (p.update supply model key row data) := by
  unfold update
  cases ht : p.store.tableOf model with
  | error fault => exact .refused p.drawn fault
  | ok t =>
    cases data with
    | obj entries =>
      simp only [updateFrom]
      cases ha : p.store.applyData t.model entries row.data with
      | error fault => exact .refused p.drawn fault
      | ok applied =>
        simp only
        rcases hr : stampUpdated supply entries t.model.fields applied p.drawn with ⟨drawn, r⟩
        simp only
        cases hs : t.store r row.sequence (some key) with
        | error fault => exact .refused drawn fault
        | ok t' => exact .stored ht rfl ⟨applied, ha, hr⟩ hs
    | _ => exact .refused p.drawn .dataNotObject

/-- Updating a row of a table succeeds only by storing the changed record in its place. -/
theorem exists_stored_of_update {p : Progress} {t : Table} {supply : Supply} {model : String}
    {key : RowKey} {row : Row} {data : Json} {r : Record} (found : p.store.tableOf model = .ok t)
    (h : (p.update supply model key row data).2 = .ok r) :
    ∃ t' entries drawn, data = .obj entries ∧ Rewriting supply p t row entries drawn r ∧
      t.store r row.sequence (some key) = .ok t' ∧
      (p.update supply model key row data).1.store = p.store.setTable t' := by
  have ho := update_outcome supply p model key row data
  generalize p.update supply model key row data = outcome at h ho
  cases ho with
  | refused => cases h
  | @stored u t' entries drawn _ found' object rewriting stored =>
    cases h
    obtain rfl : u = t := Except.ok.inj (found'.symm.trans found)
    exact ⟨t', entries, drawn, object, rewriting, stored, rfl⟩

/-! ## Failed writes -/

/-- A creation that fails keeps the rows of every model. -/
theorem create_error_rows (hs : p.store.Named) {data : Json} {fault : Fault}
    (h : (p.create supply model data).2 = .error fault) (name : String) :
    (p.create supply model data).1.store.rowsOf name = p.store.rowsOf name := by
  have ho := create_outcome supply p model data
  generalize p.create supply model data = outcome at h ho
  cases ho with
  | refused => rfl
  | stored => simp at h
  | unfilled found _ _ | clashing found _ _ _ =>
    rw [Store.rowsOf_setTable]
    split_ifs with hname
    · rw [hname, hs model _ found, Store.rowsOf_of_tableOf found]
    · rfl

/-- An update that fails keeps the rows of every model. -/
theorem update_error_rows {key : RowKey} {row : Row} {data : Json} {fault : Fault}
    (h : (p.update supply model key row data).2 = .error fault) (name : String) :
    (p.update supply model key row data).1.store.rowsOf name = p.store.rowsOf name := by
  have ho := update_outcome supply p model key row data
  generalize p.update supply model key row data = outcome at h ho
  cases ho with
  | refused => rfl
  | stored => simp at h

/-- Creating keeps tables under the names of their models. -/
theorem named_create (hs : p.store.Named) (supply : Supply) (model : String) (data : Json) :
    (p.create supply model data).1.store.Named := by
  have ho := create_outcome supply p model data
  generalize p.create supply model data = outcome at ho
  cases ho with
  | refused => exact hs
  | unfilled | clashing | stored => exact hs.setTable _

/-- Updating keeps tables under the names of their models. -/
theorem named_update (hs : p.store.Named) (supply : Supply) (model : String) (key : RowKey)
    (row : Row) (data : Json) :
    (p.update supply model key row data).1.store.Named := by
  have ho := update_outcome supply p model key row data
  generalize p.update supply model key row data = outcome at ho
  cases ho with
  | refused => exact hs
  | stored => exact hs.setTable _

/-- Creating records one after another keeps what creating each of them keeps. -/
theorem createEach_keeps {I : Store → Prop} {skip : Bool} {items : List Json}
    (h : ∀ p : Progress, ∀ item ∈ items, I p.store → I (p.create supply model item).1.store)
    (hI : I p.store) : I (createEach supply skip model items p).1.store := by
  induction items generalizing p with
  | nil => exact hI
  | cons item rest ih =>
    obtain ⟨hitem, hrest⟩ : (∀ p : Progress, I p.store → I (p.create supply model item).1.store) ∧
        ∀ p : Progress, ∀ x ∈ rest, I p.store → I (p.create supply model x).1.store :=
      ⟨fun p => h p item List.mem_cons_self, fun p x hx => h p x (List.mem_cons_of_mem _ hx)⟩
    have hI' := hitem p hI
    rw [createEach]
    split
    · rename_i p' r hp
      rw [hp] at hI'
      have hrun := ih hrest hI'
      split
      · rename_i hq
        rwa [hq] at hrun
      · rename_i hq
        rwa [hq] at hrun
    · rename_i p' e hp
      rw [hp] at hI'
      split_ifs
      · exact ih hrest hI'
      · exact hI'

/-- Where several creations succeed, the first of them has created its record or has clashed and is
skipped, and the others succeed after it. -/
theorem exists_rest_of_createEach {skip : Bool} {item : Json} {rest : List Json} {q : Progress}
    {created : List Record}
    (h : createEach supply skip model (item :: rest) p = (q, .ok created)) :
    ∃ others, createEach supply skip model rest (p.create supply model item).1 = (q, .ok others) ∧
      ((∃ r, (p.create supply model item).2 = .ok r ∧ created = r :: others) ∨
        ∃ fault, (p.create supply model item).2 = .error fault ∧
          fault.kind = .uniqueConstraint ∧ created = others) := by
  rw [createEach] at h
  split at h
  · rename_i p₁ r hp
    rw [hp]
    split at h
    · rename_i others hrun
      cases h
      exact ⟨others, hrun, .inl ⟨r, rfl, rfl⟩⟩
    · cases h
  · rename_i p₁ fault hp
    rw [hp]
    split_ifs at h with hskip
    · obtain ⟨-, hkind⟩ := Bool.and_eq_true_iff.mp hskip
      exact ⟨created, h, .inr ⟨fault, rfl, beq_iff_eq.mp hkind, rfl⟩⟩
    · cases h

end Progress

end ModelGateway
