import ModelGateway.Proofs.Store.Connection
import ModelGateway.Proofs.Store.Counts
import ModelGateway.Proofs.Store.Deletion

/-!
# Operations on different models

An operation through a delegate replaces the table of one model, and what it reads of other tables
it reads to connect records and to shape its answer.

* **Frame** (`Store.executeOn_rewrites`): whatever an operation does, it leaves the store with
  another table of its model.
* **Confined writings** (`Progress.Confined`): data without relations is written from the table of
  its model alone. So the table that an operation leaves and its answer are functions of the table
  that it finds (`Store.KeepsTo.confined`), if the answer has whole records.
* **Order** (`Store.Confined.commute`): two operations that are confined to the tables of different
  models may be exchanged.

Both for all reachable stores are `Store.Reachable.operations_independent`.
-/

namespace ModelGateway

/-! ## Writings of one table -/

/-- The data names no relation of a model. -/
def Model.Unlinked (m : Model) (data : Json) : Prop :=
  ∀ f ∈ m.relationFields, data.get? f.name = none

instance (m : Model) (data : Json) : Decidable (m.Unlinked data) :=
  inferInstanceAs (Decidable (∀ f ∈ m.relationFields, data.get? f.name = none))

namespace Progress

variable {α : Type} {m : Model} {data : Json}

/-- A writing is confined to the table of a model: it replaces this table, and what it puts there,
what it has drawn from the supply and its result depend on nothing else of the store. -/
def Confined (m : Model) (write : Progress → Progress × α) : Prop :=
  ∀ t drawn, t.model = m → ∃ t' drawn' result, t'.model = m ∧
    ∀ s : Store, s.tableOf m.name = .ok t →
      write ⟨s, drawn⟩ = (⟨s.setTable t', drawn'⟩, result)

/-- A result without a writing is confined. -/
theorem Confined.pure (m : Model) (result : α) : Confined m fun p => (p, result) := by
  rintro t drawn rfl
  refine ⟨t, drawn, result, rfl, fun s found => ?_⟩
  rw [Store.setTable_of_tableOf found]

/-- A confined writing after another one that has left a table of the model. -/
theorem Confined.after {write : Progress → Progress × α} (h : Confined m write) {t : Table}
    (hm : t.model = m) (drawn : Nat) : ∃ t' drawn' result, t'.model = m ∧
      ∀ s : Store, write ⟨s.setTable t, drawn⟩ = (⟨s.setTable t', drawn'⟩, result) := by
  obtain ⟨t', drawn', result, hm', hwrite⟩ := h t drawn hm
  refine ⟨t', drawn', result, hm', fun s => ?_⟩
  have found : (s.setTable t).tableOf m.name = .ok t := by
    rw [Store.tableOf_setTable, hm, if_pos rfl]
  rw [hwrite _ found, Store.setTable_setTable s (hm'.trans hm.symm)]

/-- A confined writing that starts with a fresh supply. -/
theorem Confined.restart {write : Progress → Progress × α} (h : Confined m write) :
    Confined m fun p => write ⟨p.store, 0⟩ :=
  fun t _ hm => h t 0 hm

/-- Data without relations sets no foreign key. -/
theorem foreignKeys_of_unlinked (s : Store) {entries : Entries Json} {fields : List Field}
    (h : ∀ f ∈ fields, entries.get? f.name = none) : s.foreignKeys entries fields = .ok [] := by
  induction fields with
  | nil => rfl
  | cons f rest ih =>
    obtain ⟨hf, hrest⟩ := List.forall_mem_cons.mp h
    rw [Store.foreignKeys, hf]
    exact ih hrest

/-- Data without relations is applied to a record without regard to the store. -/
theorem applyData_of_unlinked (s s' : Store) {entries : Entries Json}
    (h : ∀ f ∈ m.relationFields, f.name ∉ entries.names) (r : Record) :
    s.applyData m entries r = s'.applyData m entries r := by
  induction entries generalizing r with
  | nil => rfl
  | cons entry rest ih =>
    have hrest : ∀ f ∈ m.relationFields, f.name ∉ Entries.names rest :=
      fun f hf hmem => h f hf (List.mem_cons_of_mem _ hmem)
    have hentry : s.applyEntry m r entry = s'.applyEntry m r entry := by
      unfold Store.applyEntry
      cases hfound : m.field? entry.1 with
      | none => rfl
      | some f =>
        have hname : f.name = entry.1 := Model.name_of_field? hfound
        have hscalar : f.isRelation = false := by
          rw [← Bool.not_eq_true]
          intro hrelation
          apply h f (List.mem_filter.mpr ⟨List.mem_of_find?_eq_some hfound, hrelation⟩)
          rw [hname]
          exact List.mem_cons_self
        simp only [hscalar, Bool.false_eq_true, if_false]
    rw [Store.applyData_cons, Store.applyData_cons, hentry]
    congr 1
    funext r₁
    exact ih hrest r₁

/-- Creating a record from data without relations is confined to the table of its model. -/
theorem confined_create (supply : Supply) (h : m.Unlinked data) :
    Confined m fun p => p.create supply m.name data := by
  rintro t drawn rfl
  cases data with
  | obj entries =>
    have hkeys := fun s : Store => foreignKeys_of_unlinked s h
    cases hk : (Entries.names entries).find? fun name => (t.model.field? name).isNone with
    | some unknown =>
      refine ⟨t, drawn, .error (.unknownData t.model.name unknown), rfl, fun s found => ?_⟩
      simp only [create, found, createFrom, hk, fail, Store.setTable_of_tableOf found]
    | none =>
      rcases hfill : Draft.fill supply entries (Entries.ofList []) t.model.scalarFields []
        ⟨t.counter, drawn⟩ with ⟨draft, fault | r⟩
      · refine ⟨{ t with counter := draft.counter }, draft.drawn, .error fault, rfl,
          fun s found => ?_⟩
        simp only [create, found, createFrom, hk, hkeys, hfill, fail]
      · rcases hstored : ({ t with counter := draft.counter, nextSequence := t.nextSequence + 1 } :
          Table).store r t.nextSequence none with fault | t'
        · refine ⟨{ t with counter := draft.counter, nextSequence := t.nextSequence + 1 },
            draft.drawn, .error fault, rfl, fun s found => ?_⟩
          simp only [create, found, createFrom, hk, hkeys, hfill, append, hstored,
            Store.setTable_setTable]
        · have hmodel : t'.model = ({ t with counter := draft.counter } : Table).model :=
            (Table.store_frame hstored).1
          refine ⟨t', draft.drawn, .ok r, hmodel, fun s found => ?_⟩
          simp only [create, found, createFrom, hk, hkeys, hfill, append, hstored,
            Store.setTable_setTable _ hmodel]
  | _ =>
    refine ⟨t, drawn, .error .dataNotObject, rfl, fun s found => ?_⟩
    simp only [create, found, fail, Store.setTable_of_tableOf found]

/-- Updating a row from data without relations is confined to the table of its model. -/
theorem confined_update (supply : Supply) (h : m.Unlinked data) (key : RowKey) (row : Row) :
    Confined m fun p => p.update supply m.name key row data := by
  rintro t drawn rfl
  cases data with
  | obj entries =>
    have hnames : ∀ f ∈ t.model.relationFields, f.name ∉ Entries.names entries :=
      fun f hf => Entries.get?_eq_none_iff.mp (h f hf)
    have happly := fun s : Store =>
      applyData_of_unlinked s (Store.ofModels []) hnames row.data
    cases hr : (Store.ofModels []).applyData t.model entries row.data with
    | error fault =>
      refine ⟨t, drawn, .error fault, rfl, fun s found => ?_⟩
      simp only [update, found, updateFrom, happly, hr, fail, Store.setTable_of_tableOf found]
    | ok applied =>
      rcases hstamped : stampUpdated supply entries t.model.fields applied drawn with ⟨drawn', r⟩
      rcases hstored : t.store r row.sequence (some key) with fault | t'
      · refine ⟨t, drawn', .error fault, rfl, fun s found => ?_⟩
        simp only [update, found, updateFrom, happly, hr, hstamped, hstored, fail,
          Store.setTable_of_tableOf found]
      · refine ⟨t', drawn', .ok r, (Table.store_frame hstored).1, fun s found => ?_⟩
        simp only [update, found, updateFrom, happly, hr, hstamped, hstored]
  | _ =>
    refine ⟨t, drawn, .error .dataNotObject, rfl, fun s found => ?_⟩
    simp only [update, found, fail, Store.setTable_of_tableOf found]

/-- Creating records from data without relations is confined to the table of their model, also if it
stops at a fault. -/
theorem confined_createEach (supply : Supply) (skip : Bool) {items : List Json}
    (h : ∀ item ∈ items, m.Unlinked item) :
    Confined m (createEach supply skip m.name items) := by
  induction items with
  | nil =>
    show Confined m fun p => (p, Except.ok [])
    exact .pure m _
  | cons item rest ih =>
    obtain ⟨hitem, hrest⟩ := List.forall_mem_cons.mp h
    intro t drawn hm
    obtain ⟨t₁, drawn₁, result₁, hm₁, hfirst⟩ := confined_create supply hitem t drawn hm
    dsimp only at hfirst
    obtain ⟨t₂, drawn₂, result₂, hm₂, hsecond⟩ := (ih hrest).after hm₁ drawn₁
    cases result₁ with
    | ok r =>
      refine ⟨t₂, drawn₂, result₂.map (r :: ·), hm₂, fun s found => ?_⟩
      rw [createEach, hfirst s found]
      dsimp only
      rw [hsecond s]
      cases result₂ <;> rfl
    | error e =>
      by_cases hskip : (skip && e.kind == .uniqueConstraint) = true
      · refine ⟨t₂, drawn₂, result₂, hm₂, fun s found => ?_⟩
        rw [createEach, hfirst s found]
        dsimp only
        rw [if_pos hskip, hsecond s]
      · refine ⟨t₁, drawn₁, .error e, hm₁, fun s found => ?_⟩
        rw [createEach, hfirst s found]
        dsimp only
        rw [if_neg hskip]

/-- Updating rows from data without relations is confined to the table of their model, also if it
stops at a fault. -/
theorem confined_updateEach (supply : Supply) (h : m.Unlinked data) (rows : List (RowKey × Row)) :
    Confined m (updateEach supply m.name data rows) := by
  induction rows with
  | nil =>
    show Confined m fun p => (p, Except.ok [])
    exact .pure m _
  | cons e rest ih =>
    obtain ⟨key, row⟩ := e
    intro t drawn hm
    obtain ⟨t₁, drawn₁, result₁, hm₁, hfirst⟩ := confined_update supply h key row t drawn hm
    dsimp only at hfirst
    obtain ⟨t₂, drawn₂, result₂, hm₂, hsecond⟩ := ih.after hm₁ drawn₁
    cases result₁ with
    | ok r =>
      refine ⟨t₂, drawn₂, result₂.map (r :: ·), hm₂, fun s found => ?_⟩
      rw [updateEach, hfirst s found]
      dsimp only
      rw [hsecond s]
      cases result₂ <;> rfl
    | error e =>
      refine ⟨t₁, drawn₁, .error e, hm₁, fun s found => ?_⟩
      rw [updateEach, hfirst s found]

end Progress

namespace Store

variable {α β : Type} {d : Document} {s s' : Store} {t t' t₁ t₂ : Table} {supply : Supply}
  {op : Operation} {args : Json}

/-! ## Operations on one table -/

/-- A store is another one with another table of one model. -/
def Rewrites (s : Store) (t : Table) (s' : Store) : Prop :=
  ∃ t', t'.model = t.model ∧ s' = s.setTable t'

/-- Replacing the table once more. -/
theorem Rewrites.setTable (h : s.Rewrites t s') (hm : t'.model = t.model) :
    s.Rewrites t (s'.setTable t') := by
  obtain ⟨u, hu, rfl⟩ := h
  exact ⟨t', hm, setTable_setTable s (hm.trans hu.symm)⟩

/-- The table that is found is one of the model. -/
theorem Rewrites.model_eq (h : s.Rewrites t s') (found : s'.tableOf t.model.name = .ok t') :
    t'.model = t.model := by
  obtain ⟨u, hu, rfl⟩ := h
  rw [tableOf_setTable, hu, if_pos rfl] at found
  rwa [← Except.ok.inj found]

/-- Creating a record replaces the table of its model. -/
theorem Rewrites.create {p : Progress} (h : s.Rewrites t p.store) (supply : Supply) (data : Json) :
    s.Rewrites t (p.create supply t.model.name data).1.store := by
  have ho := Progress.create_outcome supply p t.model.name data
  generalize p.create supply t.model.name data = outcome at ho
  cases ho with
  | refused => exact h
  | unfilled found _ _ | clashing found _ _ _ =>
    have hm := h.model_eq found
    exact h.setTable hm
  | stored found _ _ stored =>
    have hm := h.model_eq found
    exact h.setTable ((Table.store_frame stored).1.trans hm)

/-- Updating a row replaces the table of its model. -/
theorem Rewrites.update {p : Progress} (h : s.Rewrites t p.store) (supply : Supply) (key : RowKey)
    (row : Row) (data : Json) :
    s.Rewrites t (p.update supply t.model.name key row data).1.store := by
  have ho := Progress.update_outcome supply p t.model.name key row data
  generalize p.update supply t.model.name key row data = outcome at ho
  cases ho with
  | refused => exact h
  | stored found _ _ stored =>
    exact h.setTable ((Table.store_frame stored).1.trans (h.model_eq found))

/-- Whatever an operation on a table does, it replaces this table alone. -/
theorem executeOn_rewrites (found : s.tableOf t.model.name = .ok t) (supply : Supply)
    (op : Operation) (args : Json) : s.Rewrites t (s.executeOn supply t op args).1 := by
  have hself : s.Rewrites t s := ⟨t, rfl, (setTable_of_tableOf found).symm⟩
  have hcreate := fun data => hself.create (p := ⟨s, 0⟩) supply data
  have hupdate := fun key row data => hself.update (p := ⟨s, 0⟩) supply key row data
  cases op with
  | create =>
    rw [executeOn, answerWith_store]
    exact hcreate _
  | createMany | createManyAndReturn =>
    rw [executeOn, answerWith_store, createMany]
    split
    · exact hself
    · exact Progress.createEach_keeps (fun p item _ hp => hp.create supply item) hself
  | update =>
    rw [executeOn, answerWith_store, updateFirst]
    split
    · exact hself
    · exact hself
    · exact hupdate _ _ _
  | updateMany | updateManyAndReturn =>
    rw [executeOn, answerWith_store, updateMany]
    split
    · exact hself
    · exact Progress.updateEach_keeps (fun p e _ hp => hp.update supply e.1 e.2 _) hself
  | upsert =>
    rw [executeOn, answerWith_store, upsert]
    split
    · exact hself
    · exact hupdate _ _ _
    · exact hcreate _
  | delete =>
    rw [executeOn, deleteFirst]
    split
    · exact hself
    · exact hself
    · split
      · exact hself
      · exact hself.setTable rfl
  | deleteMany =>
    rw [executeOn, deleteMany]
    split
    · exact hself
    · exact hself.setTable (by rw [Table.removeEach_eq])
  | _ => exact hself

/-! ## Confined operations -/

/-- An operation is confined to a table: it replaces this table, and what it puts there and its
answer depend on nothing else of the store. -/
def Confined (t : Table) (operate : Store → Store × β) : Prop :=
  ∃ t' answer, t'.model = t.model ∧
    ∀ s : Store, s.tableOf t.model.name = .ok t → operate s = (s.setTable t', answer)

/-- An answer that does not depend on the store is confined to any table. -/
theorem Confined.pure (t : Table) (answer : β) : Confined t fun s => (s, answer) := by
  refine ⟨t, answer, rfl, fun s found => ?_⟩
  rw [setTable_of_tableOf found]

/-- A confined writing is answered by a confined operation if its result is rendered alike in all
stores. -/
theorem Confined.answerWith {write : Store → Progress × Except Fault α}
    (h : Progress.Confined t.model fun p => write p.store) {render : Store → α → Except Fault β}
    {rendered : α → Except Fault β}
    (hrender : ∀ (s : Store) (t' : Table), t'.model = t.model → s.tableOf t.model.name = .ok t' →
      ∀ value, render s value = rendered value) :
    Confined t fun s => Store.answerWith (write s) render := by
  obtain ⟨t', drawn', result, hm, hwrite⟩ := h t 0 rfl
  dsimp only at hwrite
  have hkept : ∀ s : Store, (s.setTable t').tableOf t.model.name = .ok t' := by
    intro s
    rw [tableOf_setTable, hm, if_pos rfl]
  refine ⟨t', result >>= rendered, hm, fun s found => ?_⟩
  dsimp only
  rw [hwrite s found]
  cases result with
  | error fault => rfl
  | ok value => exact congrArg (Prod.mk _) (hrender _ t' hm (hkept s) value)

/-- The data that an operation writes: of the records to create and of the rows to update. -/
def writtenData (args : Json) : Operation → List Json
  | .create | .update | .updateMany | .updateManyAndReturn => [argument args "data"]
  | .createMany | .createManyAndReturn => (creations (args.get? "data")).toOption.getD []
  | .upsert => [argument args "create", argument args "update"]
  | _ => []

/-- Nothing in the arguments of an operation leads to another model: the data that it writes names
no relation, and its answer has whole records. -/
structure KeepsTo (m : Model) (op : Operation) (args : Json) : Prop where
  unlinked : ∀ data ∈ writtenData args op, m.Unlinked data
  unselected : args.get? "select" = none
  unincluded : args.get? "include" = none

/-- Creating the records of data without relations is confined. -/
theorem confined_createMany (supply : Supply)
    (h : ∀ data ∈ (creations (args.get? "data")).toOption.getD [], t.model.Unlinked data) :
    Progress.Confined t.model fun p => p.store.createMany supply t args := by
  unfold createMany
  cases hitems : creations (args.get? "data") with
  | error fault => exact (Progress.Confined.pure t.model _).restart
  | ok items =>
    rw [hitems] at h
    exact (Progress.confined_createEach supply _ h).restart

/-- Updating the rows that `where` selects from data without relations is confined. -/
theorem confined_updateMany (supply : Supply) (h : t.model.Unlinked (argument args "data")) :
    Progress.Confined t.model fun p => p.store.updateMany supply t args := by
  unfold updateMany
  cases t.findRows (args.get? "where") with
  | error fault => exact (Progress.Confined.pure t.model _).restart
  | ok rows => exact (Progress.confined_updateEach supply h rows).restart

/-- Updating the first row that `where` selects from data without relations is confined. -/
theorem confined_updateFirst (supply : Supply) (h : t.model.Unlinked (argument args "data")) :
    Progress.Confined t.model fun p => p.store.updateFirst supply t args := by
  unfold updateFirst
  rcases t.findRow (args.get? "where") with fault | _ | ⟨key, row⟩
  · exact (Progress.Confined.pure t.model _).restart
  · exact (Progress.Confined.pure t.model _).restart
  · exact (Progress.confined_update supply h key row).restart

/-- Updating the first row that `where` selects, or creating one, from data without relations is
confined. -/
theorem confined_upsert (supply : Supply) (hcreate : t.model.Unlinked (argument args "create"))
    (hupdate : t.model.Unlinked (argument args "update")) :
    Progress.Confined t.model fun p => p.store.upsert supply t args := by
  unfold upsert
  rcases t.findRow (args.get? "where") with fault | _ | ⟨key, row⟩
  · exact (Progress.Confined.pure t.model _).restart
  · exact (Progress.confined_create supply hcreate).restart
  · exact (Progress.confined_update supply hupdate key row).restart

/-- An operation whose arguments lead to no other model is confined to its table. -/
theorem KeepsTo.confined (h : KeepsTo t.model op args) (supply : Supply) :
    Confined t fun s => s.executeOn supply t op args := by
  have hone : ∀ (s : Store) (t' : Table), t'.model = t.model →
      s.tableOf t.model.name = .ok t' → ∀ r, renderOne t args s r = .ok (.obj (t.columns r)) := by
    intro s t' hm found r
    rw [renderOne, project_whole _ _ _ h.unselected h.unincluded, current,
      tableOf_eq_ok_iff.mp found, Option.getD_some, Table.columns, hm]
    rfl
  have hall : ∀ (s : Store) (t' : Table), t'.model = t.model →
      s.tableOf t.model.name = .ok t' → ∀ records,
        renderAll t args s records = .ok (.arr (records.map fun r => .obj (t.columns r))) := by
    intro s t' hm found records
    rw [renderAll, projectAll_whole _ _ _ h.unselected h.unincluded, current,
      tableOf_eq_ok_iff.mp found, Option.getD_some]
    simp only [Table.columns, hm]
  have hcount : ∀ (s : Store) (t' : Table), t'.model = t.model →
      s.tableOf t.model.name = .ok t' → ∀ records : List Record,
        renderCount s records = .ok (.obj [("count", .ofNat records.length)]) :=
    fun _ _ _ _ _ => rfl
  have hfound : ∀ (s : Store) r, s.project t r args = .ok (.obj (t.columns r)) :=
    fun s r => project_whole s t r h.unselected h.unincluded
  have hunlinked := h.unlinked
  cases op with
  | findUnique | findFirst =>
    show Confined t fun s => (s, s.findFirst t args)
    simp only [findFirst, hfound]
    exact .pure t _
  | findUniqueOrThrow | findFirstOrThrow =>
    show Confined t fun s => (s, s.findFirstOrFail t args)
    simp only [findFirstOrFail, findFirst, hfound]
    exact .pure t _
  | findMany =>
    show Confined t fun s => (s, s.findMany t args)
    simp only [findMany, fun s records => projectAll_whole s t records h.unselected h.unincluded]
    exact .pure t _
  | count | aggregate | groupBy | findRaw | aggregateRaw => exact .pure t _
  | create =>
    have hdata := hunlinked _ (List.mem_singleton_self _)
    exact .answerWith (Progress.confined_create supply hdata).restart hone
  | createMany => exact .answerWith (confined_createMany supply hunlinked) hcount
  | createManyAndReturn => exact .answerWith (confined_createMany supply hunlinked) hall
  | update =>
    have hdata := hunlinked _ (List.mem_singleton_self _)
    exact .answerWith (confined_updateFirst supply hdata) hone
  | updateMany =>
    have hdata := hunlinked _ (List.mem_singleton_self _)
    exact .answerWith (confined_updateMany supply hdata) hcount
  | updateManyAndReturn =>
    have hdata := hunlinked _ (List.mem_singleton_self _)
    exact .answerWith (confined_updateMany supply hdata) hall
  | upsert =>
    have hcreate := hunlinked _ List.mem_cons_self
    have hupdate := hunlinked _ (List.mem_cons_of_mem _ List.mem_cons_self)
    exact .answerWith (confined_upsert supply hcreate hupdate) hone
  | delete =>
    show Confined t fun s => s.deleteFirst t args
    unfold deleteFirst
    rcases t.findRow (args.get? "where") with fault | _ | ⟨key, row⟩
    · exact .pure t _
    · exact .pure t _
    · simp only [hfound]
      exact ⟨t.remove key, _, rfl, fun s _ => rfl⟩
  | deleteMany =>
    show Confined t fun s => s.deleteMany t args
    unfold deleteMany
    cases t.findRows (args.get? "where") with
    | error fault => exact .pure t _
    | ok rows =>
      refine ⟨rows.foldl (fun t e => t.remove e.1) t, _, ?_, fun s _ => rfl⟩
      rw [Table.removeEach_eq]

/-! ## Order -/

/-- Two operations may be exchanged: in either order they leave the same store and answer alike. -/
structure Commute (s : Store) (first second : Store → Store × β) : Prop where
  store : (second (first s).1).1 = (first (second s).1).1
  first_answer : (first (second s).1).2 = (first s).2
  second_answer : (second (first s).1).2 = (second s).2

/-- Operations that are confined to the tables of different models may be exchanged. -/
theorem Confined.commute {first second : Store → Store × β} (h₁ : Confined t₁ first)
    (h₂ : Confined t₂ second) (found₁ : s.tableOf t₁.model.name = .ok t₁)
    (found₂ : s.tableOf t₂.model.name = .ok t₂) (hne : t₁.model.name ≠ t₂.model.name) :
    s.Commute first second := by
  obtain ⟨t₁', answer₁, hm₁, hfirst⟩ := h₁
  obtain ⟨t₂', answer₂, hm₂, hsecond⟩ := h₂
  have found₂' : (s.setTable t₁').tableOf t₂.model.name = .ok t₂ := by
    rw [tableOf_setTable, hm₁, if_neg hne.symm, found₂]
  have found₁' : (s.setTable t₂').tableOf t₁.model.name = .ok t₁ := by
    rw [tableOf_setTable, hm₂, if_neg hne, found₁]
  have hexchange : (s.setTable t₁').setTable t₂' = (s.setTable t₂').setTable t₁' := by
    apply setTable_comm
    · rwa [hm₁, hm₂]
    · rw [hm₁, found₁]
  constructor
  · rw [hfirst s found₁, hsecond _ found₂', hsecond s found₂, hfirst _ found₁', hexchange]
  · rw [hsecond s found₂, hfirst _ found₁', hfirst s found₁]
  · rw [hfirst s found₁, hsecond _ found₂', hsecond s found₂]

/-! ## Reachable stores -/

/-- All that an operation through a delegate may change: the rows and the counters of the table that
the delegate addresses. -/
structure WithinTable (s : Store) (delegate : String) (s' : Store) : Prop where
  unknown : ∀ fault, s.tableFor delegate = .error fault → s' = s
  addressed : ∀ t, s.tableFor delegate = .ok t →
    ∃ t', s'.tableFor delegate = .ok t' ∧ t'.model = t.model
  others : ∀ t, s.tableFor delegate = .ok t → ∀ model, model ≠ t.model.name →
    s'.tableOf model = s.tableOf model
  delegates : s'.delegates = s.delegates

/-- An operation through a delegate changes no other table. -/
theorem Named.withinTable (hs : s.Named) (supply : Supply) (delegate : String) (op : Operation)
    (args : Json) : s.WithinTable delegate (s.execute supply delegate op args).1 := by
  cases ht : s.tableFor delegate with
  | error fault =>
    have hself : (s.execute supply delegate op args).1 = s := by
      rw [execute, ht]
      rfl
    rw [hself]
    exact ⟨fun _ _ => rfl, fun t h => ⟨t, h, rfl⟩, fun _ _ _ _ => rfl, rfl⟩
  | ok t =>
    obtain ⟨t', hm, hstore⟩ := executeOn_rewrites (hs.tableOf_of_tableFor ht) supply op args
    rw [execute_of_tableFor ht, hstore]
    refine ⟨fun fault h => ?_, fun u hu => ?_, fun u hu model hne => ?_, rfl⟩
    · cases ht.symm.trans h
    · obtain rfl : t = u := Except.ok.inj (ht.symm.trans hu)
      exact ⟨t', hs.tableFor_setTable_self ht hm, hm⟩
    · obtain rfl : t = u := Except.ok.inj (ht.symm.trans hu)
      rw [tableOf_setTable, hm, if_neg hne]

/-- Operations through delegates of different models whose arguments lead to no other model may be
exchanged. -/
theorem Named.commute (hs : s.Named) {delegate₁ delegate₂ : String}
    (h₁ : s.tableFor delegate₁ = .ok t₁) (h₂ : s.tableFor delegate₂ = .ok t₂)
    (hne : t₁.model.name ≠ t₂.model.name) {supply₁ supply₂ : Supply} {op₁ op₂ : Operation}
    {args₁ args₂ : Json} (hargs₁ : KeepsTo t₁.model op₁ args₁)
    (hargs₂ : KeepsTo t₂.model op₂ args₂) :
    s.Commute (fun s => s.execute supply₁ delegate₁ op₁ args₁)
      (fun s => s.execute supply₂ delegate₂ op₂ args₂) := by
  have found₁ := hs.tableOf_of_tableFor h₁
  have found₂ := hs.tableOf_of_tableFor h₂
  -- each operation leaves the table alone that the other delegate addresses
  have hafter₁ : (s.executeOn supply₁ t₁ op₁ args₁).1.tableFor delegate₂ = .ok t₂ := by
    obtain ⟨t', hm, hstore⟩ := executeOn_rewrites found₁ supply₁ op₁ args₁
    rw [hstore]
    exact hs.tableFor_setTable_of_ne h₂ (hm ▸ hne.symm)
  have hafter₂ : (s.executeOn supply₂ t₂ op₂ args₂).1.tableFor delegate₁ = .ok t₁ := by
    obtain ⟨t', hm, hstore⟩ := executeOn_rewrites found₂ supply₂ op₂ args₂
    rw [hstore]
    exact hs.tableFor_setTable_of_ne h₁ (hm ▸ hne)
  obtain ⟨hstore, hfirst, hsecond⟩ :=
    (hargs₁.confined supply₁).commute (hargs₂.confined supply₂) found₁ found₂ hne
  constructor <;> simp only [execute_of_tableFor h₁, execute_of_tableFor h₂,
    execute_of_tableFor hafter₁, execute_of_tableFor hafter₂]
  · exact hstore
  · exact hfirst
  · exact hsecond

/-- In every reachable store an operation through a delegate changes the rows and the counters of
the table that it addresses and nothing else; and two operations on the tables of different models
whose arguments lead to no other model leave the same store in either order, with the same
answers. -/
theorem Reachable.operations_independent (hd : d.WellFormed) (h : Reachable d s) :
    (∀ supply delegate op args,
      s.WithinTable delegate (s.execute supply delegate op args).1) ∧
    ∀ delegate₁ delegate₂ t₁ t₂, s.tableFor delegate₁ = .ok t₁ → s.tableFor delegate₂ = .ok t₂ →
      t₁.model.name ≠ t₂.model.name → ∀ supply₁ supply₂ op₁ op₂ args₁ args₂,
        KeepsTo t₁.model op₁ args₁ → KeepsTo t₂.model op₂ args₂ →
          s.Commute (fun s => s.execute supply₁ delegate₁ op₁ args₁)
            (fun s => s.execute supply₂ delegate₂ op₂ args₂) := by
  have hs := (h.sound hd).named
  refine ⟨hs.withinTable, ?_⟩
  intro delegate₁ delegate₂ t₁ t₂ h₁ h₂ hne supply₁ supply₂ op₁ op₂ args₁ args₂ hargs₁ hargs₂
  exact hs.commute h₁ h₂ hne hargs₁ hargs₂

/-- Of two hours the first is created and the second is there already. The shift gets another number
before or after that. -/
theorem plan_operations_independent :
    let s := Shifts.plan
    let hours := s.current (Table.empty Shifts.hourModel)
    let shifts := s.current (Table.empty Shifts.model)
    let creation := Json.obj [("data", .arr [.obj [("at", .str "2024-01-01T10:00:00Z")],
      .obj Shifts.morning])]
    let update := Json.obj [("where", .obj [("id", .ofNat 1)]), ("data", .obj [("id", .ofNat 5)])]
    Shifts.document.WellFormed ∧ Reachable Shifts.document s ∧ s.tableFor "hour" = .ok hours ∧
      s.tableFor "shift" = .ok shifts ∧ hours.model.name ≠ shifts.model.name ∧
      KeepsTo hours.model .createMany creation ∧ KeepsTo shifts.model .update update ∧
      (s.execute Seats.supply "hour" .createMany creation).2 = .error (.notUnique ["at"]) ∧
      (s.execute Seats.supply "hour" .createMany creation).1.rowCount "Hour" = 2 ∧
      s.WithinTable "hour" (s.execute Seats.supply "hour" .createMany creation).1 ∧
      s.Commute (fun s => s.execute Seats.supply "hour" .createMany creation)
        (fun s => s.execute Shifts.noon "shift" .update update) := by
  intro s hours shifts creation update
  have hhours : s.tableFor "hour" = .ok hours := rfl
  have hshifts : s.tableFor "shift" = .ok shifts := rfl
  have hne : hours.model.name ≠ shifts.model.name := by decide
  have hcreation : KeepsTo hours.model .createMany creation := by
    refine ⟨?_, rfl, rfl⟩
    decide
  have hupdate : KeepsTo shifts.model .update update := by
    refine ⟨?_, rfl, rfl⟩
    decide
  have hfails : (s.execute Seats.supply "hour" .createMany creation).2 =
      .error (.notUnique ["at"]) := by decide +kernel
  obtain ⟨hwithin, hcommute⟩ :=
    Shifts.reachable_plan.operations_independent Shifts.document_wellFormed
  exact ⟨Shifts.document_wellFormed, Shifts.reachable_plan, hhours, hshifts, hne, hcreation,
    hupdate, hfails, by decide +kernel, hwithin _ _ _ _,
    hcommute _ _ _ _ hhours hshifts hne _ _ _ _ _ _ hcreation hupdate⟩

end Store

end ModelGateway
