import ModelGateway.Proofs.Store.Outcome
import ModelGateway.Proofs.Store.Values
import ModelGateway.Store.Client

/-!
# Runs of calls on a store

* **Reachable stores** (`Store.Reachable`): what a sequence of calls makes of the store without
  rows of a document. A call creates the records of seed data or executes an operation, with any
  arguments, and may succeed or fail. Arguments are well formed, as all values are that are read.
  The store of a client is reachable (`LiveStore.reachable_execute`, `LiveStore.reachable_seed`).
* **One call** (`Store.Kept.after`): whatever the operation, a call is a sequence of creations, of
  updates of rows that the store had at the start of the call, and of removals. What each of these
  keeps (`Store.Kept`), every call keeps.

An update of several rows works on rows as they were at the start. Each still stands where it stood
if its sequence number is in the table at all (`Store.Settled`), since no other update of the call
writes that number. The seats at the end (`Store.Seats`) are a document for concrete runs.
-/

namespace ModelGateway

/-! ## Calls -/

/-- A call on a store that may change it. -/
inductive Call where
  /-- Creates the records of seed data. -/
  | seed (data : Json)
  /-- Executes an operation on a model's delegate. -/
  | execute (delegate : String) (op : Operation) (args : Json)

/-- The arguments of the call are well formed. -/
def Call.WellFormed : Call → Prop
  | .seed data => data.WellFormed
  | .execute _ _ args => args.WellFormed

namespace Store

/-- The store that a call leaves, whether it succeeds or fails. -/
def after (s : Store) (supply : Supply) : Call → Store
  | .seed data => (s.seed supply data).1
  | .execute delegate op args => (s.execute supply delegate op args).1

/-- The stores that calls make of the store without rows of a document. -/
inductive Reachable (d : Document) : Store → Prop
  | start : Reachable d (ofModels d.models)
  | call {s : Store} (supply : Supply) {c : Call} (before : Reachable d s)
      (wellFormed : c.WellFormed) : Reachable d (s.after supply c)

/-- Further calls make further reachable stores. -/
theorem Reachable.foldl {d : Document} (supply : Supply) {calls : List Call}
    (hc : ∀ c ∈ calls, c.WellFormed) {s : Store} (h : Reachable d s) :
    Reachable d (calls.foldl (fun s c => s.after supply c) s) := by
  induction calls generalizing s with
  | nil => exact h
  | cons c rest ih =>
    obtain ⟨hfirst, hrest⟩ := List.forall_mem_cons.mp hc
    exact ih hrest (.call supply h hfirst)

/-! ## What a call consists of -/

/-- If the sequence number of a row is in the table of a model, then it stands under the row's
key. -/
def Settled (s : Store) (model : String) (e : RowKey × Row) : Prop :=
  ∀ x ∈ s.rowsOf model, x.2.sequence = e.2.sequence → x.1 = e.1

/-- In no table do two rows have the same sequence number. -/
def Distinct (s : Store) : Prop :=
  ∀ model, ((s.rowsOf model).map (·.2.sequence)).Nodup

/-- What the single steps of a call that starts at `s₀` keep. -/
structure Kept (supply : Supply) (s₀ : Store) (I : Store → Prop) : Prop where
  create : ∀ (p : Progress) (model : String) (data : Json), data.WellFormed → p.store.Named →
    I p.store → I (p.create supply model data).1.store
  update : ∀ (p : Progress) (model : String) (key : RowKey) (row : Row) (data : Json),
    data.WellFormed → p.store.Named → (key, row) ∈ s₀.rowsOf model →
    p.store.Settled model (key, row) → I p.store → I (p.update supply model key row data).1.store
  remove : ∀ (s : Store) (t : Table) (key : RowKey), s.Named → s.tableOf t.model.name = .ok t →
    I s → I (s.setTable (t.remove key))

variable {supply : Supply} {s₀ : Store} {I : Store → Prop}

/-- An update leaves a row settled that has another sequence number. -/
theorem Settled.update {p : Progress} {model : String} {key : RowKey} {row : Row} {data : Json}
    (hs : p.store.Named) {e : RowKey × Row} (hne : e.2.sequence ≠ row.sequence)
    (h : p.store.Settled model e) :
    (p.update supply model key row data).1.store.Settled model e := by
  have ho := Progress.update_outcome supply p model key row data
  generalize p.update supply model key row data = outcome at ho
  cases ho with
  | refused => exact h
  | @stored t t' _ _ _ found _ _ stored =>
    have hname : model = t'.model.name := by
      rw [(Table.store_frame stored).1, hs model t found]
    intro x hx hseq
    rw [rowsOf_setTable, if_pos hname, Table.mem_rows_store stored] at hx
    rcases hx with rfl | hx
    · exact absurd hseq.symm hne
    · exact h x (by rw [rowsOf_of_tableOf found]; exact hx.1) hseq

namespace Kept

/-- Creating records one after another keeps what creating one keeps. -/
theorem createEach (h : Kept supply s₀ I) {skip : Bool} {model : String} {items : List Json}
    (hd : ∀ x ∈ items, x.WellFormed) {p : Progress} (hs : p.store.Named) (hI : I p.store) :
    I (Progress.createEach supply skip model items p).1.store := by
  have hstep : ∀ p : Progress, ∀ x ∈ items, p.store.Named ∧ I p.store →
      (p.create supply model x).1.store.Named ∧ I (p.create supply model x).1.store :=
    fun p x hx hp =>
      ⟨Progress.named_create hp.1 supply model x, h.create p model x (hd x hx) hp.1 hp.2⟩
  exact (Progress.createEach_keeps (I := fun s => s.Named ∧ I s) hstep ⟨hs, hI⟩).2

/-- Updating rows one after another keeps what updating one keeps. -/
theorem updateEach (h : Kept supply s₀ I) {model : String} {data : Json} (hd : data.WellFormed) :
    {rows : List (RowKey × Row)} →
    (rows.map (·.2.sequence)).Nodup → (∀ e ∈ rows, e ∈ s₀.rowsOf model) →
    {p : Progress} → (∀ e ∈ rows, p.store.Settled model e) → p.store.Named → I p.store →
    I (Progress.updateEach supply model data rows p).1.store
  | [], _, _, p, _, _, hI => hI
  | (key, row) :: rest, hp, hmem, p, hset, hs, hI => by
    obtain ⟨hnot, hrest⟩ := List.nodup_cons.mp hp
    obtain ⟨hm, hmems⟩ := List.forall_mem_cons.mp hmem
    obtain ⟨hst, hsets⟩ := List.forall_mem_cons.mp hset
    have hI' := h.update p model key row data hd hs hm hst hI
    have hs' := Progress.named_update hs supply model key row data
    have hsets' : ∀ e ∈ rest, (p.update supply model key row data).1.store.Settled model e :=
      fun e he => (hsets e he).update hs fun heq => hnot (List.mem_map.mpr ⟨e, he, heq⟩)
    rw [Progress.updateEach]
    split
    · rename_i hq
      rwa [hq] at hI'
    · rename_i hq
      rw [hq] at hI' hs' hsets'
      have ih := updateEach h hd hrest hmems hsets' hs' hI'
      split
      · rename_i hu
        rwa [hu] at ih
      · rename_i hu
        rwa [hu] at ih

/-- Creating the records of one model keeps what creating one keeps. -/
theorem seedModel (h : Kept supply s₀ I) {model : String} :
    {items : List Json} → (∀ x ∈ items, x.WellFormed) → {p : Progress} → {n : Nat} →
    p.store.Named → I p.store →
    (Store.seedModel supply model items p n).1.store.Named ∧
      I (Store.seedModel supply model items p n).1.store
  | [], _, p, _, hs, hI => ⟨hs, hI⟩
  | item :: rest, hd, p, n, hs, hI => by
    obtain ⟨hitem, hrest⟩ := List.forall_mem_cons.mp hd
    have hI' := h.create p model item hitem hs hI
    have hs' := Progress.named_create hs supply model item
    rw [Store.seedModel]
    split
    · rename_i hp
      rw [hp] at hI' hs'
      exact ⟨hs', hI'⟩
    · rename_i hp
      rw [hp] at hI' hs'
      exact seedModel h hrest hs' hI'

/-- Seeding keeps what creating one record keeps. -/
theorem seedModels (h : Kept supply s₀ I) :
    {models : List (String × Json)} → (∀ e ∈ models, e.2.WellFormed) → {p : Progress} → {n : Nat} →
    p.store.Named → I p.store → I (Store.seedModels supply models p n).1.store
  | [], _, p, _, _, hI => hI
  | (model, records) :: rest, hd, p, n, hs, hI => by
    obtain ⟨hrecords, hrest⟩ := List.forall_mem_cons.mp hd
    unfold Store.seedModels
    split
    · exact hI
    · split
      · rename_i items
        have hm : (Store.seedModel supply model items p n).1.store.Named ∧
            I (Store.seedModel supply model items p n).1.store :=
          seedModel h (Json.wellFormed_arr.mp hrecords) hs hI
        split
        · rename_i hq
          rw [hq] at hm
          exact hm.2
        · rename_i hq
          rw [hq] at hm
          exact seedModels h hrest hm.1 hm.2
      · exact hI

/-- Removing rows one after another keeps what removing one keeps. -/
theorem removeEach (h : Kept supply s₀ I) :
    {rows : List (RowKey × Row)} → {s : Store} → {t : Table} → s.Named →
    s.tableOf t.model.name = .ok t → I s →
    I (s.setTable (rows.foldl (fun t e => t.remove e.1) t))
  | [], s, t, _, ht, hI => by
    rw [List.foldl_nil, setTable_of_tableOf ht]
    exact hI
  | e :: rest, s, t, hs, ht, hI => by
    have hmodel : ∀ (rows : List (RowKey × Row)) (t : Table),
        (rows.foldl (fun t e => t.remove e.1) t).model = t.model := by
      intro rows
      induction rows with
      | nil => exact fun _ => rfl
      | cons e rest ih => exact fun t => ih (t.remove e.1)
    have ht' : (s.setTable (t.remove e.1)).tableOf (t.remove e.1).model.name =
        .ok (t.remove e.1) := by
      rw [tableOf_setTable, if_pos rfl]
    have ih : I ((s.setTable (t.remove e.1)).setTable
        (rest.foldl (fun t e => t.remove e.1) (t.remove e.1))) :=
      removeEach h (hs.setTable (t.remove e.1)) ht' (h.remove s t e.1 hs ht hI)
    rwa [setTable_setTable _ (hmodel rest (t.remove e.1))] at ih

end Kept

/-! ## Arguments -/

/-- An argument of a well-formed call is well formed. -/
theorem argument_wellFormed {args : Json} (h : args.WellFormed) (name : String) :
    (argument args name).WellFormed := by
  unfold argument
  cases hv : args.get? name with
  | none => exact .null
  | some value => exact h.of_get? hv

/-- The records to create of a well-formed call are well formed. -/
theorem creations_wellFormed {args : Json} (h : args.WellFormed) {name : String}
    {items : List Json} (hc : creations (args.get? name) = .ok items) :
    ∀ x ∈ items, x.WellFormed := by
  unfold creations at hc
  split at hc
  · rename_i hv
    cases hc
    exact Json.wellFormed_arr.mp (h.of_get? hv)
  · rename_i entries hv
    cases hc
    exact List.forall_mem_singleton.mpr (h.of_get? hv)
  · cases hc

/-- Rendering an answer leaves the store as the writing left it. -/
theorem answerWith_store {α β : Type} (outcome : Progress × Except Fault α)
    (render : Store → α → Except Fault β) : (answerWith outcome render).1 = outcome.1.store := by
  unfold answerWith
  split <;> rfl

/-- An answer that is given is rendered from a writing that succeeded. -/
theorem answerWith_eq_ok_iff {α β : Type} {outcome : Progress × Except Fault α}
    {render : Store → α → Except Fault β} {answer : β} :
    (answerWith outcome render).2 = .ok answer ↔
      ∃ value, outcome.2 = .ok value ∧ render outcome.1.store value = .ok answer := by
  unfold answerWith
  split <;> simp

/-- An answer that fails is that of a writing that failed, or cannot be rendered. -/
theorem answerWith_eq_error_iff {α β : Type} {outcome : Progress × Except Fault α}
    {render : Store → α → Except Fault β} {fault : Fault} :
    (answerWith outcome render).2 = .error fault ↔
      outcome.2 = .error fault ∨
        ∃ value, outcome.2 = .ok value ∧ render outcome.1.store value = .error fault := by
  unfold answerWith
  split <;> simp

/-! ## Calls keep what their steps keep -/

/-- At the start of a call every row stands where it was found. -/
theorem Distinct.settled (hd : s₀.Distinct) {model : String} {e : RowKey × Row}
    (he : e ∈ s₀.rowsOf model) : s₀.Settled model e := by
  intro x hx hseq
  rw [List.inj_on_of_nodup_map (hd model) hx he hseq]

namespace Kept

variable {t : Table} {args : Json}

/-- Creating the records of `data` keeps what creating one keeps. -/
theorem createMany (h : Kept supply s₀ I) (hs : s₀.Named) (hI : I s₀) (ha : args.WellFormed) :
    I (s₀.createMany supply t args).1.store := by
  unfold Store.createMany
  dsimp only
  split
  · exact hI
  · rename_i items hitems
    exact createEach h (creations_wellFormed ha hitems) hs hI

/-- Updating the rows that `where` selects keeps what updating one keeps. -/
theorem updateMany (h : Kept supply s₀ I) (hs : s₀.Named) (hd : s₀.Distinct) (hI : I s₀)
    (ht : s₀.tableOf t.model.name = .ok t) (ha : args.WellFormed) :
    I (s₀.updateMany supply t args).1.store := by
  unfold Store.updateMany
  split
  · exact hI
  · rename_i rows hrows
    have hsub : rows.Sublist (s₀.rowsOf t.model.name) := by
      rw [rowsOf_of_tableOf ht]
      exact sublist_of_findRows hrows
    have hmem : ∀ e ∈ rows, e ∈ s₀.rowsOf t.model.name := fun e he => hsub.subset he
    exact updateEach h (argument_wellFormed ha "data") ((hd _).sublist (hsub.map _)) hmem
      (fun e he => hd.settled (hmem e he)) hs hI

/-- Updating the first row that `where` selects keeps what updating one keeps. -/
theorem updateFound (h : Kept supply s₀ I) (hs : s₀.Named) (hd : s₀.Distinct) (hI : I s₀)
    (ht : s₀.tableOf t.model.name = .ok t) {condition : Option Json} {key : RowKey} {row : Row}
    (hf : t.findRow condition = .ok (some (key, row))) {data : Json} (hdata : data.WellFormed) :
    I (Progress.update supply ⟨s₀, 0⟩ t.model.name key row data).1.store := by
  have hmem : (key, row) ∈ s₀.rowsOf t.model.name := by
    rw [rowsOf_of_tableOf ht]
    exact mem_of_findRow hf
  exact h.update ⟨s₀, 0⟩ t.model.name key row data hdata hs hmem (hd.settled hmem) hI

/-- An operation on a table keeps what the steps of a call keep. -/
theorem executeOn (h : Kept supply s₀ I) (hs : s₀.Named) (hd : s₀.Distinct) (hI : I s₀)
    (ht : s₀.tableOf t.model.name = .ok t) (op : Operation) (ha : args.WellFormed) :
    I (s₀.executeOn supply t op args).1 := by
  have hdata := fun name => argument_wellFormed ha name
  cases op with
  | create =>
    rw [Store.executeOn, answerWith_store]
    exact h.create ⟨s₀, 0⟩ t.model.name _ (hdata "data") hs hI
  | createMany | createManyAndReturn =>
    rw [Store.executeOn, answerWith_store]
    exact h.createMany hs hI ha
  | update =>
    rw [Store.executeOn, answerWith_store, updateFirst]
    split
    · exact hI
    · exact hI
    · rename_i hf
      exact h.updateFound hs hd hI ht hf (hdata "data")
  | updateMany | updateManyAndReturn =>
    rw [Store.executeOn, answerWith_store]
    exact h.updateMany hs hd hI ht ha
  | upsert =>
    rw [Store.executeOn, answerWith_store, upsert]
    split
    · exact hI
    · rename_i hf
      exact h.updateFound hs hd hI ht hf (hdata "update")
    · exact h.create ⟨s₀, 0⟩ t.model.name _ (hdata "create") hs hI
  | delete =>
    rw [Store.executeOn, deleteFirst]
    split
    · exact hI
    · exact hI
    · split
      · exact hI
      · exact h.remove s₀ t _ hs ht hI
  | deleteMany =>
    rw [Store.executeOn, deleteMany]
    split
    · exact hI
    · exact h.removeEach hs ht hI
  | _ => exact hI

/-- A call keeps what its steps keep. -/
theorem after (h : Kept supply s₀ I) (hs : s₀.Named) (hd : s₀.Distinct) (hI : I s₀) {c : Call}
    (hc : c.WellFormed) : I (s₀.after supply c) := by
  cases c with
  | seed data =>
    rw [Store.after]
    unfold Store.seed
    split
    · rw [answerWith_store]
      exact h.seedModels (Json.wellFormed_obj.mp hc).2 hs hI
    · exact hI
  | execute delegate op args =>
    rw [Store.after, Store.execute]
    split
    · exact hI
    · rename_i ht
      exact h.executeOn hs hd hI (hs.tableOf_of_tableFor ht) op hc

end Kept

end Store

/-! ## Clients -/

namespace LiveStore

variable {d : Document} {s : LiveStore}

/-- A client of a document starts with a reachable store. -/
theorem reachable_ofDocument (d : Document) : Store.Reachable d (ofDocument d).store :=
  .start

/-- Executing an operation leaves a client with a reachable store. -/
theorem reachable_execute (h : Store.Reachable d s.store) (supplies : Nat → Supply)
    (delegate : String) (op : Operation) {args : Json} (ha : args.WellFormed) :
    Store.Reachable d (execute supplies s delegate op args).1.store :=
  h.call (supplies s.calls) (show Call.WellFormed (.execute delegate op args) from ha)

/-- Seeding leaves a client with a reachable store. -/
theorem reachable_seed (h : Store.Reachable d s.store) (supplies : Nat → Supply) {data : Json}
    (hd : data.WellFormed) : Store.Reachable d (seed supplies s data).1.store :=
  h.call (supplies s.calls) (show Call.WellFormed (.seed data) from hd)

end LiveStore

/-! ## A document of seats -/

namespace Store.Seats

/-- A column of whole numbers. -/
def column (name : String) (isRequired : Bool) : Field where
  name := name
  kind := .scalar
  typeName := "Int"
  isList := false
  isRequired := isRequired
  isUnique := false
  isId := false
  isUpdatedAt := false
  hasDefault := false
  default := none
  relationName := none
  fromFields := []
  toFields := []

/-- A seat is identified by its row and its number in the row, and may have a guest. -/
def model : Model where
  name := "Seat"
  fields := [column "row" true, column "number" true, column "guest" false]
  primaryKey := some { name := none, fields := ["row", "number"] }

/-- The document with seats alone. -/
def document : Document where
  models := [model]
  outputs := ⟨[], []⟩
  enums := ⟨[], []⟩
  mappings := []
  otherReads := []
  otherWrites := []

/-- No column of a seat takes a value from the supply. -/
def supply : Supply where
  instant _ := ""
  uuid _ := ""
  cuid _ := ""

/-- The data of a seat. -/
def seat (row number guest : Json) : Json :=
  .obj [("row", row), ("number", number), ("guest", guest)]

/-- The store that calls make of the store without seats. -/
def made (calls : List Call) : Store :=
  calls.foldl (fun s c => s.after supply c) (ofModels document.models)

/-- The columns of seats have no defaults. -/
theorem document_wellFormed : document.WellFormed := by
  simp [Document.WellFormed, Model.WellFormed, Field.WellFormed, document, model, column]

/-- The data of a seat is well formed if its values are. -/
@[simp] theorem wellFormed_seat {row number guest : Json} :
    (seat row number guest).WellFormed ↔
      row.WellFormed ∧ number.WellFormed ∧ guest.WellFormed := by
  simp [seat, Entries.names]

/-- Calls with well-formed arguments make reachable stores. -/
theorem reachable_made {calls : List Call} (h : ∀ c ∈ calls, c.WellFormed) :
    Reachable document (made calls) :=
  Reachable.start.foldl supply h

end Store.Seats

end ModelGateway
