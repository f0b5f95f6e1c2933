import Mathlib.Data.List.Perm.Basic
import ModelGateway.Proofs.Store.Sound

/-!
# What a failed write leaves

The store has no way to take back what it has written, so what a failed call leaves depends on where
it failed.

* **One record** (`Store.Reachable.failed_write_keeps_rows_iff`): `create`, `update` and `upsert`
  write their record and then shape the answer, which may fail. They leave all rows as they were
  exactly if they fail before the writing or write back the record that was there. `delete` shapes
  its answer first.
* **Several records** (`Store.Reachable.failed_bulk_write_rows_eq`): the records before the one that
  fails are written, that one has no effect and the others are not tried.
-/

namespace ModelGateway

/-! ## Writing back -/

namespace Table

variable {t t' : Table} {key : RowKey} {row : Row} {r : Record}

/-- Storing a record under the sequence number of a row keeps all rows only if it is the record of
that row. -/
theorem Sound.eq_of_rows_store_eq (h : t.Sound) (he : (key, row) ∈ t.rows)
    {replacing : Option RowKey} (hs : t.store r row.sequence replacing = .ok t')
    (hrows : t'.rows = t.rows) : r = row.data := by
  have hmem : (t.keyFor r row.sequence, ⟨row.sequence, r⟩) ∈ t.rows := by
    rw [← hrows, mem_rows_store hs]
    exact .inl rfl
  have heq := List.inj_on_of_nodup_map h.nodup_sequences hmem he rfl
  exact congrArg (·.2.data) heq

/-- Storing the record of a row in its place keeps all rows. -/
theorem Sound.rows_store_self (h : t.Sound) (he : (key, row) ∈ t.rows)
    (hs : t.store row.data row.sequence (some key) = .ok t') : t'.rows = t.rows := by
  have hkey : key = t.keyFor row.data row.sequence := h.keyed _ he
  have hmem : ∀ e, e ∈ t'.rows ↔ e ∈ t.rows := by
    intro e
    rw [mem_rows_store hs, ← hkey]
    constructor
    · rintro (rfl | ho)
      · exact he
      · exact ho.1
    · intro ho
      by_cases heq : e.1 = key
      · exact .inl (List.inj_on_of_nodup_map h.keys_nodup ho he heq)
      · exact .inr ⟨ho, heq, fun hsome => heq (Option.some.inj hsome).symm⟩
  have hfresh : ∀ e ∈ t.rows, e.2.sequence = row.sequence → some key = some e.1 := by
    intro e ho hseq
    rw [List.inj_on_of_nodup_map h.nodup_sequences ho he hseq]
  have ht' : t'.Sound := h.store hs (h.wellFormed _ he) (h.bounded _ he) hfresh
  -- both lists are in strict order, and they have the same rows
  have hperm : t'.rows.Perm t.rows :=
    (List.perm_ext_iff_of_nodup ht'.nodup_sequences.of_map h.nodup_sequences.of_map).mpr hmem
  exact hperm.eq_of_pairwise (fun a b _ _ hab hba => absurd hab (Nat.lt_asymm hba))
    ht'.sorted h.sorted

end Table

namespace Store

variable {d : Document} {s s' : Store} {t : Table} {supply : Supply} {model : String} {r : Record}

/-- Creating a record keeps all rows exactly if it fails. -/
theorem Sound.create_rows_eq_iff (hs : s.Sound d) (data : Json) :
    (∀ name, (Progress.create supply ⟨s, 0⟩ model data).1.store.rowsOf name = s.rowsOf name) ↔
      ∀ r, (Progress.create supply ⟨s, 0⟩ model data).2 ≠ .ok r := by
  cases hresult : (Progress.create supply ⟨s, 0⟩ model data).2 with
  | error fault => exact iff_of_true (Progress.create_error_rows hs.named hresult) (by simp)
  | ok r =>
    refine iff_of_false (fun hrows => ?_) fun hnot => hnot r rfl
    have ho := Progress.create_outcome supply ⟨s, 0⟩ model data
    generalize Progress.create supply ⟨s, 0⟩ model data = outcome at hresult ho hrows
    cases ho with
    | refused | unfilled | clashing => cases hresult
    | @stored t t' entries draft filled found object filling stored =>
      have hname : model = t'.model.name := by
        rw [(Table.store_frame stored).1, hs.named model t found]
      have hsame := hrows model
      rw [rowsOf_setTable, if_pos hname, rowsOf_of_tableOf found] at hsame
      -- the new row has a sequence number that no row had
      have hmem : (t.keyFor filled t.nextSequence, ⟨t.nextSequence, filled⟩) ∈ t.rows := by
        rw [← hsame, Table.mem_rows_store stored]
        exact .inl rfl
      exact Nat.lt_irrefl _ ((hs.table model t found).bounded _ hmem)

/-- Updating a row keeps all rows exactly if it fails or writes back the record of the row. -/
theorem Sound.update_rows_eq_iff (hs : s.Sound d) {key : RowKey} {row : Row}
    (he : (key, row) ∈ s.rowsOf model) (data : Json) :
    (∀ name, (Progress.update supply ⟨s, 0⟩ model key row data).1.store.rowsOf name =
        s.rowsOf name) ↔
      ∀ r, (Progress.update supply ⟨s, 0⟩ model key row data).2 = .ok r → row.data = r := by
  cases hresult : (Progress.update supply ⟨s, 0⟩ model key row data).2 with
  | error fault => exact iff_of_true (Progress.update_error_rows hresult) (by simp)
  | ok r =>
    have ho := Progress.update_outcome supply ⟨s, 0⟩ model key row data
    generalize Progress.update supply ⟨s, 0⟩ model key row data = outcome at hresult ho
    cases ho with
    | refused => cases hresult
    | @stored t t' entries drawn written found object rewriting stored =>
      cases hresult
      have hname : model = t'.model.name := by
        rw [(Table.store_frame stored).1, hs.named model t found]
      have ht := hs.table model t found
      rw [rowsOf_of_tableOf found] at he
      constructor
      · intro hrows r hr
        cases hr
        have hsame := hrows model
        rw [rowsOf_setTable, if_pos hname, rowsOf_of_tableOf found] at hsame
        exact (ht.eq_of_rows_store_eq he stored hsame).symm
      · intro hsame name
        obtain rfl := hsame r rfl
        rw [rowsOf_setTable]
        split_ifs with hmodel
        · rw [hmodel, ← hname, rowsOf_of_tableOf found, ht.rows_store_self he stored]
        · rfl

/-! ## Writes of one record -/

/-- The record that an operation has written when it begins to shape its answer, with the row that
it replaces. A deletion shapes its answer before it removes the row. -/
inductive Writes (supply : Supply) (s : Store) (t : Table) (args : Json) :
    Operation → Option Row → Record → Prop
  | create {r : Record}
      (written : (Progress.create supply ⟨s, 0⟩ t.model.name (argument args "data")).2 = .ok r) :
      Writes supply s t args .create none r
  | update {key : RowKey} {row : Row} {r : Record}
      (found : t.findRow (args.get? "where") = .ok (some (key, row)))
      (written : (Progress.update supply ⟨s, 0⟩ t.model.name key row (argument args "data")).2 =
        .ok r) :
      Writes supply s t args .update (some row) r
  | upsertUpdate {key : RowKey} {row : Row} {r : Record}
      (found : t.findRow (args.get? "where") = .ok (some (key, row)))
      (written : (Progress.update supply ⟨s, 0⟩ t.model.name key row (argument args "update")).2 =
        .ok r) :
      Writes supply s t args .upsert (some row) r
  | upsertCreate {r : Record} (absent : t.findRow (args.get? "where") = .ok none)
      (written : (Progress.create supply ⟨s, 0⟩ t.model.name (argument args "create")).2 = .ok r) :
      Writes supply s t args .upsert none r

variable {args : Json} {op : Operation}

/-- The argument that holds the data of an update. -/
def updateArgument : Operation → String
  | .upsert => "update"
  | _ => "data"

/-- A record that replaces a row is what an update has made of the first row that `where` finds. -/
theorem Writes.exists_update {row : Row} (hw : s.Writes supply t args op (some row) r) :
    ∃ key, t.findRow (args.get? "where") = .ok (some (key, row)) ∧
      (Progress.update supply ⟨s, 0⟩ t.model.name key row
        (argument args (updateArgument op))).2 = .ok r ∧
      (s.executeOn supply t op args).1 = (Progress.update supply ⟨s, 0⟩ t.model.name key row
        (argument args (updateArgument op))).1.store := by
  cases hw with
  | update found written =>
    refine ⟨_, found, written, ?_⟩
    rw [executeOn, answerWith_store, updateFirst, found]
    rfl
  | upsertUpdate found written =>
    refine ⟨_, found, written, ?_⟩
    rw [executeOn, answerWith_store, upsert, found]
    rfl

/-- The argument that holds the data of a creation. -/
def createArgument : Operation → String
  | .upsert => "create"
  | _ => "data"

/-- A record that replaces no row has been created. -/
theorem Writes.created (hw : s.Writes supply t args op none r) :
    (Progress.create supply ⟨s, 0⟩ t.model.name (argument args (createArgument op))).2 = .ok r ∧
      (s.executeOn supply t op args).1 = (Progress.create supply ⟨s, 0⟩ t.model.name
        (argument args (createArgument op))).1.store := by
  cases hw with
  | create written =>
    refine ⟨written, ?_⟩
    rw [executeOn, answerWith_store]
    rfl
  | upsertCreate absent written =>
    refine ⟨written, ?_⟩
    rw [executeOn, answerWith_store, upsert, absent]
    rfl

/-- The operations that answer with the record that they have written. -/
def answersWritten : List Operation :=
  [.create, .update, .upsert]

/-- Such an operation answers with a record that it has written, in the shape that the arguments ask
for. -/
theorem exists_writes_of_ok (hop : op ∈ answersWritten) {answer : Json}
    (h : (s.executeOn supply t op args).2 = .ok answer) :
    ∃ old r, s.Writes supply t args op old r ∧
      renderOne t args (s.executeOn supply t op args).1 r = .ok answer := by
  cases op with
  | create =>
    rw [executeOn] at h ⊢
    rw [answerWith_store]
    obtain ⟨r, hr, hanswer⟩ := answerWith_eq_ok_iff.mp h
    exact ⟨none, r, .create hr, hanswer⟩
  | update =>
    rw [executeOn] at h ⊢
    rw [answerWith_store]
    obtain ⟨r, hr, hanswer⟩ := answerWith_eq_ok_iff.mp h
    cases hf : t.findRow (args.get? "where") with
    | error fault => simp [updateFirst, hf] at hr
    | ok found =>
      cases found with
      | none => simp [updateFirst, hf] at hr
      | some e =>
        have hwritten := hr
        simp only [updateFirst, hf] at hwritten
        exact ⟨some e.2, r, .update hf hwritten, hanswer⟩
  | upsert =>
    rw [executeOn] at h ⊢
    rw [answerWith_store]
    obtain ⟨r, hr, hanswer⟩ := answerWith_eq_ok_iff.mp h
    cases hf : t.findRow (args.get? "where") with
    | error fault => simp [upsert, hf] at hr
    | ok found =>
      have hwritten := hr
      cases found with
      | none =>
        simp only [upsert, hf] at hwritten
        exact ⟨none, r, .upsertCreate hf hwritten, hanswer⟩
      | some e =>
        simp only [upsert, hf] at hwritten
        exact ⟨some e.2, r, .upsertUpdate hf hwritten, hanswer⟩
  | _ => exact absurd hop (by decide)

/-- A row that `where` finds is a row of the model. -/
theorem mem_rowsOf_of_findRow (found : s.tableOf t.model.name = .ok t) {condition : Option Json}
    {e : RowKey × Row} (h : t.findRow condition = .ok (some e)) : e ∈ s.rowsOf t.model.name := by
  rw [rowsOf_of_tableOf found]
  exact mem_of_findRow h

/-- An update keeps all rows exactly if it writes none, or the record that was there. -/
theorem Sound.updateFirst_rows_eq_iff (hs : s.Sound d) (found : s.tableOf t.model.name = .ok t) :
    (∀ name, (s.updateFirst supply t args).1.store.rowsOf name = s.rowsOf name) ↔
      ∀ old r, s.Writes supply t args .update old r → old.map (·.data) = some r := by
  rw [updateFirst]
  split
  · rename_i hf
    refine iff_of_true (fun _ => rfl) fun old r hw => ?_
    cases hw with
    | update hfound _ => cases hf.symm.trans hfound
  · rename_i hf
    refine iff_of_true (fun _ => rfl) fun old r hw => ?_
    cases hw with
    | update hfound _ => cases hf.symm.trans hfound
  · rename_i key row hf
    rw [hs.update_rows_eq_iff (mem_rowsOf_of_findRow found hf)]
    constructor
    · intro hsame old r hw
      cases hw with
      | update hfound written =>
        cases hf.symm.trans hfound
        exact congrArg some (hsame r written)
    · intro hsame r hr
      exact Option.some.inj (hsame (some row) r (.update hf hr))

/-- An upsert keeps all rows exactly if it writes none, or the record that was there. -/
theorem Sound.upsert_rows_eq_iff (hs : s.Sound d) (found : s.tableOf t.model.name = .ok t) :
    (∀ name, (s.upsert supply t args).1.store.rowsOf name = s.rowsOf name) ↔
      ∀ old r, s.Writes supply t args .upsert old r → old.map (·.data) = some r := by
  rw [upsert]
  split
  · rename_i hf
    refine iff_of_true (fun _ => rfl) fun old r hw => ?_
    cases hw with
    | upsertUpdate hfound _ | upsertCreate hfound _ => cases hf.symm.trans hfound
  · rename_i key row hf
    rw [hs.update_rows_eq_iff (mem_rowsOf_of_findRow found hf)]
    constructor
    · intro hsame old r hw
      cases hw with
      | upsertUpdate hfound written =>
        cases hf.symm.trans hfound
        exact congrArg some (hsame r written)
      | upsertCreate hfound _ => cases hf.symm.trans hfound
    · intro hsame r hr
      exact Option.some.inj (hsame (some row) r (.upsertUpdate hf hr))
  · rename_i hf
    rw [hs.create_rows_eq_iff]
    constructor
    · intro hnot old r hw
      cases hw with
      | upsertCreate _ written => exact absurd written (hnot r)
      | upsertUpdate hfound _ => cases hf.symm.trans hfound
    · intro hsame r hr
      exact absurd (hsame none r (.upsertCreate hf hr)) (by simp)

/-- A deletion that fails leaves the store as it was. -/
theorem deleteFirst_error_store {fault : Fault} (h : (s.deleteFirst t args).2 = .error fault) :
    (s.deleteFirst t args).1 = s := by
  unfold deleteFirst at h ⊢
  cases hf : t.findRow (args.get? "where") with
  | error e => rfl
  | ok found =>
    cases found with
    | none => rfl
    | some e =>
      obtain ⟨key, row⟩ := e
      simp only [hf] at h ⊢
      cases hshape : s.project t row.data args with
      | error e => rfl
      | ok deleted => simp [hshape] at h

/-- The operations that write one record. -/
def writesOne : List Operation :=
  [.create, .update, .upsert, .delete]

/-- A failed operation on one record keeps all rows exactly if it has written none before it
shaped its answer, or the very record that it replaced. -/
theorem Sound.failed_write_rows_eq_iff (hs : s.Sound d) (found : s.tableOf t.model.name = .ok t)
    (hop : op ∈ writesOne) {fault : Fault}
    (hfail : (s.executeOn supply t op args).2 = .error fault) :
    (∀ name, (s.executeOn supply t op args).1.rowsOf name = s.rowsOf name) ↔
      ∀ old r, s.Writes supply t args op old r → old.map (·.data) = some r := by
  cases op with
  | create =>
    rw [executeOn, answerWith_store, hs.create_rows_eq_iff]
    constructor
    · intro hnot old r hw
      cases hw with
      | create written => exact absurd written (hnot r)
    · intro hsame r hr
      exact absurd (hsame none r (.create hr)) (by simp)
  | update =>
    rw [executeOn, answerWith_store]
    exact hs.updateFirst_rows_eq_iff found
  | upsert =>
    rw [executeOn, answerWith_store]
    exact hs.upsert_rows_eq_iff found
  | delete =>
    have hstore : (s.deleteFirst t args).1 = s := deleteFirst_error_store hfail
    refine iff_of_true (fun name => ?_) fun old r hw => by cases hw
    rw [executeOn, hstore]
  | _ => exact absurd hop (by decide)

/-- A failed `create`, `update`, `upsert` or `delete` keeps the rows of every model exactly if it
has written no record before it shaped its answer, or the very record that it replaced. -/
theorem Reachable.failed_write_keeps_rows_iff (hd : d.WellFormed) (h : Reachable d s)
    {delegate : String} (hop : op ∈ writesOne) {fault : Fault}
    (hfail : s.execute supply delegate op args = (s', .error fault)) :
    (∀ name, s'.rowsOf name = s.rowsOf name) ↔
      ∀ t, s.tableFor delegate = .ok t →
        ∀ old r, s.Writes supply t args op old r → old.map (·.data) = some r := by
  have hs := h.sound hd
  rw [execute] at hfail
  cases ht : s.tableFor delegate with
  | error e =>
    rw [ht] at hfail
    cases hfail
    exact iff_of_true (fun _ => rfl) fun t hfound => by cases hfound
  | ok t =>
    rw [ht] at hfail
    have hiff := hs.failed_write_rows_eq_iff (hs.named.tableOf_of_tableFor ht) hop
      (congrArg Prod.snd hfail)
    rw [congrArg Prod.fst hfail] at hiff
    rw [hiff]
    exact ⟨fun hsame u hu => Except.ok.inj hu ▸ hsame, fun hsame => hsame t rfl⟩

/-- A seat that is taken is not created a second time. -/
theorem failed_creation_keeps_rows_seat :
    let s := Seats.made [
      .execute "seat" .create (.obj [("data", Seats.seat (.ofNat 1) (.ofNat 1) .null)])]
    let args := Json.obj [("data", Seats.seat (.ofNat 1) (.ofNat 1) .null)]
    let outcome := s.execute Seats.supply "seat" .create args
    Seats.document.WellFormed ∧ Reachable Seats.document s ∧ Operation.create ∈ writesOne ∧
      outcome.2 = .error (.notUnique ["row", "number"]) ∧
      ((∀ name, outcome.1.rowsOf name = s.rowsOf name) ↔
        ∀ t, s.tableFor "seat" = .ok t →
          ∀ old r, s.Writes Seats.supply t args .create old r → old.map (·.data) = some r) := by
  intro s args outcome
  have hs : Reachable Seats.document s :=
    Seats.reachable_made (by simp [Call.WellFormed, Entries.names])
  have hop : Operation.create ∈ writesOne := by decide
  have hfail : outcome = (outcome.1, .error (.notUnique ["row", "number"])) := rfl
  exact ⟨Seats.document_wellFormed, hs, hop, rfl,
    hs.failed_write_keeps_rows_iff Seats.document_wellFormed hop hfail⟩

/-- A creation whose answer cannot be shaped fails, and its seat is stored. -/
theorem failed_creation_stores_seat :
    let s := Seats.made []
    let outcome := s.execute Seats.supply "seat" .create
      (.obj [("data", Seats.seat (.ofNat 1) (.ofNat 1) .null),
        ("select", .obj [("owner", .bool true)])])
    Reachable Seats.document s ∧ outcome.2 = .error (.unknownSelection "Seat" "owner") ∧
      s.rowsOf "Seat" = [] ∧ (outcome.1.rowsOf "Seat").length = 1 ∧
      ¬ ∀ name, outcome.1.rowsOf name = s.rowsOf name :=
  ⟨.start, rfl, rfl, rfl, fun hrows => List.cons_ne_nil _ _ (hrows "Seat")⟩

end Store

/-! ## Writes of several records -/

namespace Progress

variable {supply : Supply} {skip : Bool} {model : String} {fault : Fault}

/-- Creations that fail stop at a record: those before it are created or skipped, and creating it
fails. -/
theorem createEach_eq_error :
    {items : List Json} → {p q : Progress} →
    createEach supply skip model items p = (q, .error fault) →
    ∃ before item rest p' created, items = before ++ item :: rest ∧
      createEach supply skip model before p = (p', .ok created) ∧
      p'.create supply model item = (q, .error fault)
  | [], _, _, h => by cases h
  | item :: rest, p, q, h => by
    rw [createEach] at h
    split at h
    · rename_i p₁ r hp
      split at h
      · cases h
      · rename_i hrun
        cases h
        obtain ⟨before, item', rest', p', created, rfl, hbefore, hitem⟩ := createEach_eq_error hrun
        refine ⟨item :: before, item', rest', p', r :: created, rfl, ?_, hitem⟩
        rw [createEach, hp]
        simp only [hbefore]
    · rename_i p₁ e hp
      split_ifs at h with hskip
      · obtain ⟨before, item', rest', p', created, rfl, hbefore, hitem⟩ := createEach_eq_error h
        refine ⟨item :: before, item', rest', p', created, rfl, ?_, hitem⟩
        rw [createEach, hp]
        simp only [hskip, if_true, hbefore]
      · cases h
        exact ⟨[], item, rest, p, [], rfl, rfl, hp⟩

/-- Updates that fail stop at a row: those before it are updated, and updating it fails. -/
theorem updateEach_eq_error {data : Json} :
    {rows : List (RowKey × Row)} → {p q : Progress} →
    updateEach supply model data rows p = (q, .error fault) →
    ∃ before key row rest p' updated, rows = before ++ (key, row) :: rest ∧
      updateEach supply model data before p = (p', .ok updated) ∧
      p'.update supply model key row data = (q, .error fault)
  | [], _, _, h => by cases h
  | (key, row) :: rest, p, q, h => by
    rw [updateEach] at h
    split at h
    · rename_i hp
      cases h
      exact ⟨[], key, row, rest, p, [], rfl, rfl, hp⟩
    · rename_i p₁ r hp
      split at h
      · cases h
      · rename_i hrun
        cases h
        obtain ⟨before, key', row', rest', p', updated, rfl, hbefore, hrow⟩ :=
          updateEach_eq_error hrun
        refine ⟨(key, row) :: before, key', row', rest', p', r :: updated, rfl, ?_, hrow⟩
        rw [updateEach, hp]
        simp only [hbefore]

end Progress

namespace Store

variable {d : Document} {s s' : Store} {t : Table} {supply : Supply} {args : Json} {op : Operation}
  {fault : Fault}

/-- The arguments ask to skip records that clash. -/
def skipsDuplicates (args : Json) : Bool :=
  ((args.get? "skipDuplicates").bind Json.asBool?).getD false

/-- The progress of a creation of several records when it meets its fault. -/
inductive CreationStops (supply : Supply) (s : Store) (t : Table) (args : Json) (fault : Fault) :
    Progress → Prop
  /-- The arguments give no list of records. -/
  | refused (items : creations (args.get? "data") = .error fault) :
      CreationStops supply s t args fault ⟨s, 0⟩
  /-- The records before the one that fails are created or skipped. -/
  | stopped {before rest : List Json} {item : Json} {created : List Record} {p : Progress}
      (items : creations (args.get? "data") = .ok (before ++ item :: rest))
      (written : Progress.createEach supply (skipsDuplicates args) t.model.name before ⟨s, 0⟩ =
        (p, .ok created))
      (failed : (p.create supply t.model.name item).2 = .error fault) :
      CreationStops supply s t args fault p

/-- The progress of an update of several rows when it meets its fault. -/
inductive UpdateStops (supply : Supply) (s : Store) (t : Table) (args : Json) (fault : Fault) :
    Progress → Prop
  /-- The condition cannot be read. -/
  | refused (found : t.findRows (args.get? "where") = .error fault) :
      UpdateStops supply s t args fault ⟨s, 0⟩
  /-- The rows before the one that fails are updated. -/
  | stopped {before rest : List (RowKey × Row)} {key : RowKey} {row : Row} {updated : List Record}
      {p : Progress} (found : t.findRows (args.get? "where") = .ok (before ++ (key, row) :: rest))
      (written : Progress.updateEach supply t.model.name (argument args "data") before ⟨s, 0⟩ =
        (p, .ok updated))
      (failed : (p.update supply t.model.name key row (argument args "data")).2 = .error fault) :
      UpdateStops supply s t args fault p

/-- A creation of several records that fails leaves the rows as its progress has made them. -/
theorem createMany_error_rows (hs : s.Named) (h : (s.createMany supply t args).2 = .error fault) :
    ∃ p, s.CreationStops supply t args fault p ∧
      ∀ name, (s.createMany supply t args).1.store.rowsOf name = p.store.rowsOf name := by
  rw [createMany] at h ⊢
  split at h
  · rename_i e hitems
    cases h
    exact ⟨⟨s, 0⟩, .refused hitems, fun _ => rfl⟩
  · rename_i items hitems
    obtain ⟨before, item, rest, p, created, rfl, hrun, hitem⟩ :=
      Progress.createEach_eq_error (Prod.ext rfl h)
    have hbefore : Progress.createEach supply (skipsDuplicates args) t.model.name before ⟨s, 0⟩ =
        (p, .ok created) := hrun
    have hfailed : (p.create supply t.model.name item).2 = .error fault := by rw [hitem]
    have hp : (Progress.createEach supply (skipsDuplicates args) t.model.name before
        ⟨s, 0⟩).1.store.Named :=
      Progress.createEach_keeps (fun _ x _ hp => Progress.named_create hp supply t.model.name x) hs
    rw [hbefore] at hp
    refine ⟨p, .stopped hitems hbefore hfailed, fun name => ?_⟩
    rw [← Progress.create_error_rows hp hfailed name, hitem]

/-- An update of several rows that fails leaves the rows as its progress has made them. -/
theorem updateMany_error_rows (h : (s.updateMany supply t args).2 = .error fault) :
    ∃ p, s.UpdateStops supply t args fault p ∧
      ∀ name, (s.updateMany supply t args).1.store.rowsOf name = p.store.rowsOf name := by
  rw [updateMany] at h ⊢
  split at h
  · rename_i e hfound
    cases h
    exact ⟨⟨s, 0⟩, .refused hfound, fun _ => rfl⟩
  · rename_i rows hfound
    obtain ⟨before, key, row, rest, p, updated, rfl, hbefore, hrow⟩ :=
      Progress.updateEach_eq_error (Prod.ext rfl h)
    have hfailed : (p.update supply t.model.name key row (argument args "data")).2 =
        .error fault := by rw [hrow]
    refine ⟨p, .stopped hfound hbefore hfailed, fun name => ?_⟩
    rw [← Progress.update_error_rows hfailed name, hrow]

/-- The operations that write several records. -/
def writesMany : List Operation :=
  [.createMany, .createManyAndReturn, .updateMany, .updateManyAndReturn]

/-- The progress of an operation on several records when it meets its fault. -/
def BulkStops (supply : Supply) (s : Store) (t : Table) (args : Json) (fault : Fault) :
    Operation → Progress → Prop
  | .createMany | .createManyAndReturn => s.CreationStops supply t args fault
  | .updateMany | .updateManyAndReturn => s.UpdateStops supply t args fault
  | _ => fun _ => False

/-- An operation that answers with its records has written them all. -/
inductive WritesAll (supply : Supply) (s : Store) (t : Table) (args : Json) : Operation → Prop
  | created {records : List Record} (written : (s.createMany supply t args).2 = .ok records) :
      WritesAll supply s t args .createManyAndReturn
  | updated {records : List Record} (written : (s.updateMany supply t args).2 = .ok records) :
      WritesAll supply s t args .updateManyAndReturn

/-- A failed operation on several records leaves the rows as the records before the one that fails
have made them, unless it has written all records and cannot shape its answer. -/
theorem Named.failed_bulk_write_rows (hs : s.Named) (hop : op ∈ writesMany)
    (hfail : (s.executeOn supply t op args).2 = .error fault) :
    (∃ p, s.BulkStops supply t args fault op p ∧
      ∀ name, (s.executeOn supply t op args).1.rowsOf name = p.store.rowsOf name) ∨
    s.WritesAll supply t args op := by
  cases op with
  | createMany =>
    rw [executeOn] at hfail ⊢
    rw [answerWith_store]
    rcases answerWith_eq_error_iff.mp hfail with hfault | ⟨records, -, hrender⟩
    · exact .inl (createMany_error_rows hs hfault)
    · cases hrender
  | createManyAndReturn =>
    rw [executeOn] at hfail ⊢
    rw [answerWith_store]
    rcases answerWith_eq_error_iff.mp hfail with hfault | ⟨records, hrecords, -⟩
    · exact .inl (createMany_error_rows hs hfault)
    · exact .inr (.created hrecords)
  | updateMany =>
    rw [executeOn] at hfail ⊢
    rw [answerWith_store]
    rcases answerWith_eq_error_iff.mp hfail with hfault | ⟨records, -, hrender⟩
    · exact .inl (updateMany_error_rows hfault)
    · cases hrender
  | updateManyAndReturn =>
    rw [executeOn] at hfail ⊢
    rw [answerWith_store]
    rcases answerWith_eq_error_iff.mp hfail with hfault | ⟨records, hrecords, -⟩
    · exact .inl (updateMany_error_rows hfault)
    · exact .inr (.updated hrecords)
  | _ => exact absurd hop (by decide)

/-- A failed `createMany`, `createManyAndReturn`, `updateMany` or `updateManyAndReturn` leaves the
rows of every model as the records before the one that fails have made them, unless it has written
all records and cannot shape its answer. -/
theorem Reachable.failed_bulk_write_rows_eq (hd : d.WellFormed) (h : Reachable d s)
    {delegate : String} (hop : op ∈ writesMany)
    (hfail : s.execute supply delegate op args = (s', .error fault)) :
    (s.tableFor delegate = .error fault ∧ s' = s) ∨
    ∃ t, s.tableFor delegate = .ok t ∧
      ((∃ p, s.BulkStops supply t args fault op p ∧
          ∀ name, s'.rowsOf name = p.store.rowsOf name) ∨
        s.WritesAll supply t args op) := by
  rw [execute] at hfail
  cases ht : s.tableFor delegate with
  | error e =>
    rw [ht] at hfail
    cases hfail
    exact .inl ⟨rfl, rfl⟩
  | ok t =>
    rw [ht] at hfail
    have hrows := (h.sound hd).named.failed_bulk_write_rows hop (congrArg Prod.snd hfail)
    rw [congrArg Prod.fst hfail] at hrows
    exact .inr ⟨t, rfl, hrows⟩

/-- Of two equal seats the first is created before the second one fails. -/
theorem failed_bulk_write_rows_seats :
    let s := Seats.made []
    let args := Json.obj [("data", .arr [Seats.seat (.ofNat 1) (.ofNat 1) .null,
      Seats.seat (.ofNat 1) (.ofNat 1) .null])]
    let outcome := s.execute Seats.supply "seat" .createMany args
    Seats.document.WellFormed ∧ Reachable Seats.document s ∧ Operation.createMany ∈ writesMany ∧
      outcome.2 = .error (.notUnique ["row", "number"]) ∧
      ((s.tableFor "seat" = .error (.notUnique ["row", "number"]) ∧ outcome.1 = s) ∨
      ∃ t, s.tableFor "seat" = .ok t ∧
        ((∃ p, s.BulkStops Seats.supply t args (.notUnique ["row", "number"]) .createMany p ∧
            ∀ name, outcome.1.rowsOf name = p.store.rowsOf name) ∨
          s.WritesAll Seats.supply t args .createMany)) := by
  intro s args outcome
  have hs : Reachable Seats.document s := .start
  have hop : Operation.createMany ∈ writesMany := by decide
  have hfail : outcome = (outcome.1, .error (.notUnique ["row", "number"])) := rfl
  exact ⟨Seats.document_wellFormed, hs, hop, rfl,
    hs.failed_bulk_write_rows_eq Seats.document_wellFormed hop hfail⟩

/-- A creation of two equal seats fails, and the first of them is stored. -/
theorem failed_bulk_write_stores_seat :
    let s := Seats.made []
    let outcome := s.execute Seats.supply "seat" .createMany
      (.obj [("data", .arr [Seats.seat (.ofNat 1) (.ofNat 1) .null,
        Seats.seat (.ofNat 1) (.ofNat 1) .null])])
    Reachable Seats.document s ∧ outcome.2 = .error (.notUnique ["row", "number"]) ∧
      s.rowsOf "Seat" = [] ∧ (outcome.1.rowsOf "Seat").length = 1 ∧
      ¬ ∀ name, outcome.1.rowsOf name = s.rowsOf name :=
  ⟨.start, rfl, rfl, rfl, fun hrows => List.cons_ne_nil _ _ (hrows "Seat")⟩

end Store

end ModelGateway
