import ModelGateway.Proofs.Store.Address
import ModelGateway.Proofs.Store.Counts
import ModelGateway.Proofs.Store.Delegate
import ModelGateway.Proofs.Store.Failure
import ModelGateway.Proofs.Store.Join
import ModelGateway.Proofs.Store.Order

/-!
# Reading back what was written

A write of one record answers with the record that it has in hand. A point lookup by the key of that
record goes another way: it reads a filter, selects rows and shapes the first of them.

* **Rows** (`Store.Sound.exists_row_of_writes`): the record that was written is that of a row, also
  where the write has moved a row to another key.
* **Lookups** (`Store.Sound.findUnique_key`): a point lookup by the key of a row is answered with
  the record of this row, in the shape that the lookup asks for.
* **Both** (`Store.Reachable.write_reads_back`): so a lookup that asks for the shape of the write is
  answered as the write was, relations included, since both read them from the same store.
-/

namespace ModelGateway.Store

variable {d : Document} {s s' : Store} {t : Table} {supply : Supply} {args : Json}
  {op : Operation} {old : Option Row} {r : Record}

/-! ## Rows -/

/-- The record that an operation has written is that of a row of the table, which belongs to the
same model as before. -/
theorem Sound.exists_row_of_writes (hs : s.Sound d) (found : s.tableOf t.model.name = .ok t)
    (hw : s.Writes supply t args op old r) :
    ∃ t', (s.executeOn supply t op args).1.tableOf t.model.name = .ok t' ∧
      ∃ e ∈ t'.rows, e.2.data = r := by
  cases old with
  | none =>
    obtain ⟨hr, hstore⟩ := hw.created
    obtain ⟨t', ht', happends⟩ := hs.create_appends found hr
    have hnew : (t.keyFor r t.nextSequence, ⟨t.nextSequence, r⟩) ∈ t'.rows := by
      rw [happends]
      exact List.mem_append_right _ (List.mem_singleton_self _)
    exact ⟨t', by rw [hstore, ht'], _, hnew, rfl⟩
  | some row =>
    obtain ⟨key, hfound, hr, hstore⟩ := hw.exists_update
    obtain ⟨t', ht', before, after, -, hrows⟩ :=
      hs.update_replaces found (mem_of_findRow hfound) hr
    have hmoved : (t.keyFor r row.sequence, ⟨row.sequence, r⟩) ∈ t'.rows := by
      rw [hrows]
      exact List.mem_append_right _ List.mem_cons_self
    exact ⟨t', by rw [hstore, ht'], _, hmoved, rfl⟩

/-! ## Lookups -/

/-- A lookup asks for the records under an address, in the shape that other arguments ask for. -/
structure LooksUp (address args lookup : Json) : Prop where
  address : lookup.get? "where" = some address
  select : lookup.get? "select" = args.get? "select"
  included : lookup.get? "include" = args.get? "include"
  unpaged : lookup.Unpaged

/-- A point lookup by the key of a row is answered with the record of the row. -/
theorem Sound.findUnique_key (hs : s.Sound d) (hunique : s.Unique) {delegate : String}
    (ht : s.tableFor delegate = .ok t) (hm : t.model.Addressable) {e : RowKey × Row}
    (he : e ∈ t.rows) (hr : t.model.KeyGiven e.2.data) :
    ∃ key, RecordKey.ofModel? t.model = some key ∧
      ∀ (supply : Supply) (args lookup : Json), LooksUp (key.filter e.2.data) args lookup →
        s.execute supply delegate .findUnique lookup = (s, s.project t e.2.data args) := by
  have found := hs.named.tableOf_of_tableFor ht
  obtain ⟨key, filter, hkey, hfilter, hrows⟩ :=
    (hunique _ t found).filter_key (hs.table _ t found) hm he hr
  refine ⟨key, hkey, ?_⟩
  intro supply args lookup hlookup
  have hrecords : t.records.filter filter.matches = [e.2.data] := by
    have hmap := congrArg (List.map (·.2.data)) hrows
    rw [Table.records, List.filter_map]
    exact hmap
  have hselect : t.select lookup none = .ok [e.2.data] := by
    rw [select_where hfilter hlookup.address hlookup.unpaged, hrecords]
  have hshape : s.project t e.2.data lookup = s.project t e.2.data args := by
    rw [project_eq, project_eq, hlookup.select, hlookup.included]
  rw [execute_of_tableFor ht, executeOn, answer, findFirst, hselect, ← hshape]
  rfl

/-! ## Reachable stores -/

/-- A `create`, `update` or `upsert` that succeeds has written a record. If this has a key that
gives no null and no object, then a point lookup by the key which asks for the same shape is
answered as the write was. -/
theorem Reachable.write_reads_back (hd : d.WellFormed) (h : Reachable d s) {delegate : String}
    (ht : s.tableFor delegate = .ok t) (hm : t.model.Addressable) (hargs : args.WellFormed)
    (hop : op ∈ answersWritten) {answer : Json}
    (hok : s.execute supply delegate op args = (s', .ok answer)) :
    ∃ old r, s.Writes supply t args op old r ∧ (∃ e ∈ s'.rowsOf t.model.name, e.2.data = r) ∧
      (t.model.KeyGiven r → ∃ key, RecordKey.ofModel? t.model = some key ∧
        ∀ (supply' : Supply) (lookup : Json), LooksUp (key.filter r) args lookup →
          s'.execute supply' delegate .findUnique lookup = (s', .ok answer)) := by
  have hs := h.sound hd
  have found := hs.named.tableOf_of_tableFor ht
  have hcall : (Call.execute delegate op args).WellFormed := hargs
  have hafter : s.after supply (.execute delegate op args) = s' := congrArg Prod.fst hok
  have h' : Reachable d s' := by
    rw [← hafter]
    exact h.call supply hcall
  rw [execute_of_tableFor ht] at hok
  obtain ⟨old, r, hw, hrender⟩ := exists_writes_of_ok hop (congrArg Prod.snd hok)
  obtain ⟨t', ht', e, he, rfl⟩ := hs.exists_row_of_writes found hw
  rw [congrArg Prod.fst hok] at hrender ht'
  refine ⟨old, e.2.data, hw, ⟨e, by rwa [rowsOf_of_tableOf ht'], rfl⟩, ?_⟩
  intro hgiven
  -- the table is the one that the delegate addresses now, and it belongs to the same model
  have hmodel : t'.model = t.model := by
    obtain ⟨u, hu, hum, -⟩ := (hs.after hd supply hcall).2 _ t found
    rw [hafter, ht'] at hu
    rw [Except.ok.inj hu, hum]
  have htable : s'.tableFor delegate = .ok t' := by
    rw [h.tableFor_eq_tableOf hd h' ht, ht']
  rw [← hmodel] at hm hgiven
  obtain ⟨key, hkey, hlookup⟩ := (h'.sound hd).findUnique_key (h'.unique hd) htable hm he hgiven
  refine ⟨key, by rw [← hmodel, hkey], ?_⟩
  intro supply' lookup hlooks
  have hcurrent : s'.current t = t' := by
    rw [current, tableOf_eq_ok_iff.mp ht', Option.getD_some]
  rw [hlookup supply' args lookup hlooks, ← hrender, renderOne, hcurrent]

/-- A desk is addressed by its row and its number. -/
theorem Desks.addressable : Desks.model.Addressable where
  identified := by decide
  names_nodup := by decide
  declared := by decide
  columns := by decide
  no_combinator key hkey := by
    cases hkey
    decide
  no_field name parts hkey := by
    cases hkey
    decide

/-- A desk that gets another number is read back under its new key, with the desk to its left. -/
theorem desks_write_reads_back :
    let s := Desks.office
    let t : Table := { Table.empty Desks.model with rows := Desks.rows, nextSequence := 5 }
    let address := fun number : Nat =>
      Json.obj [("row_number", .obj [("row", .ofNat 1), ("number", .ofNat number)])]
    let shape := ("include", Json.obj [("left", .bool true)])
    let args := Json.obj [("where", address 2), ("data", .obj [("number", .ofNat 5)]), shape]
    let outcome := s.execute Seats.supply "desk" .update args
    let answer := Json.obj [("row", .ofNat 1), ("number", .ofNat 5), ("leftRow", .ofNat 1),
      ("leftNumber", .ofNat 1), ("left", .obj [("row", .ofNat 1), ("number", .ofNat 1),
        ("leftRow", .null), ("leftNumber", .null)])]
    Desks.document.WellFormed ∧ Reachable Desks.document s ∧ s.tableFor "desk" = .ok t ∧
      t.model.Addressable ∧ args.WellFormed ∧ Operation.update ∈ answersWritten ∧
      outcome.2 = .ok answer ∧
      (outcome.1.execute Seats.supply "desk" .findUnique (.obj [("where", address 5), shape])).2 =
        .ok answer ∧
      ∃ old r, s.Writes Seats.supply t args .update old r ∧
        (∃ e ∈ outcome.1.rowsOf "Desk", e.2.data = r) ∧ t.model.KeyGiven r ∧
        ∃ key, RecordKey.ofModel? t.model = some key ∧
          ∀ (supply' : Supply) (lookup : Json), LooksUp (key.filter r) args lookup →
            outcome.1.execute supply' "desk" .findUnique lookup = (outcome.1, .ok answer) := by
  intro s t address shape args outcome answer
  have hs : Reachable Desks.document s := Desks.reachable_office
  have ht : s.tableFor "desk" = .ok t := rfl
  have hm : t.model.Addressable := Desks.addressable
  have hargs : args.WellFormed := by simp [args, address, shape, Entries.names]
  have hop : Operation.update ∈ answersWritten := by decide
  have hanswer : outcome.2 = .ok answer := by decide +kernel
  have hok : outcome = (outcome.1, .ok answer) := by rw [← hanswer]
  have hlookup : (outcome.1.execute Seats.supply "desk" .findUnique
      (.obj [("where", address 5), shape])).2 = .ok answer := by decide +kernel
  have hgiven : ∀ e ∈ outcome.1.rowsOf "Desk", t.model.KeyGiven e.2.data := by decide +kernel
  obtain ⟨old, r, hw, ⟨e, he, hdata⟩, hread⟩ :=
    hs.write_reads_back Desks.document_wellFormed ht hm hargs hop hok
  have hr : t.model.KeyGiven r := hdata ▸ hgiven e he
  exact ⟨Desks.document_wellFormed, hs, ht, hm, hargs, hop, hanswer, hlookup,
    old, r, hw, ⟨e, he, hdata⟩, hr, hread hr⟩

end ModelGateway.Store
