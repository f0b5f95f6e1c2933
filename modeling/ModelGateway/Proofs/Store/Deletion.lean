import ModelGateway.Proofs.Store.Counts
import ModelGateway.Proofs.Store.Frame

/-!
# What a deletion removes

A deletion finds its rows by their values and removes them by their keys.

* **Tables** (`Table.Sound.removeEach_eq_filter`, `Table.Sound.remove_eq`): in a sound table a key
  stands for one row, so the rows that were found go and no others. Those that stay keep their
  order.
* **Stores** (`Store.Reachable.deletion_exact`): a deletion of several records leaves exactly the
  rows that do not pass its filter, so none is left to count. A deletion of one record removes the
  first row that passes and answers with its shape. It shapes the answer before it removes the row,
  so a deletion that fails leaves the store as it was.
-/

namespace ModelGateway

/-! ## Tables -/

namespace Table

variable {t : Table} {e : RowKey × Row} {before after : List (RowKey × Row)}

/-- Removing rows by their keys one after another removes the rows that stand under these keys. -/
theorem removeEach_eq (rows : List (RowKey × Row)) (t : Table) :
    rows.foldl (fun t e => t.remove e.1) t =
      { t with rows := t.rows.filter fun e => e.1 ∉ rows.map (·.1) } := by
  induction rows generalizing t with
  | nil => simp
  | cons e rest ih =>
    rw [List.foldl_cons, ih, remove]
    simp only [List.filter_filter, List.map_cons, List.mem_cons, not_or, Bool.decide_and,
      Bool.and_comm]

/-- A row stands under a key of the rows that pass a test exactly if it passes the test itself. -/
theorem Sound.mem_keys_filter_iff (h : t.Sound) {p : RowKey × Row → Bool} (he : e ∈ t.rows) :
    e.1 ∈ (t.rows.filter p).map (·.1) ↔ p e = true := by
  constructor
  · intro hkey
    obtain ⟨x, hx, heq⟩ := List.mem_map.mp hkey
    obtain ⟨hmem, hpass⟩ := List.mem_filter.mp hx
    rwa [← List.inj_on_of_nodup_map h.keys_nodup hmem he heq]
  · intro hpass
    exact List.mem_map_of_mem (List.mem_filter.mpr ⟨he, hpass⟩)

/-- Removing the rows that pass a test leaves those that do not pass it. -/
theorem Sound.removeEach_eq_filter (h : t.Sound) (p : RowKey × Row → Bool) :
    (t.rows.filter p).foldl (fun t e => t.remove e.1) t =
      { t with rows := t.rows.filter fun e => !p e } := by
  rw [removeEach_eq]
  have hrows : (t.rows.filter fun e => e.1 ∉ (t.rows.filter p).map (·.1)) =
      t.rows.filter fun e => !p e := by
    apply List.filter_congr
    intro e he
    rw [Bool.eq_iff_iff, decide_eq_true_iff, h.mem_keys_filter_iff he]
    simp
  rw [hrows]

/-- Removing a row by its key leaves the rows before it and those after it. -/
theorem Sound.remove_eq (h : t.Sound) (hrows : t.rows = before ++ e :: after) :
    t.remove e.1 = { t with rows := before ++ after } := by
  have hkeys : ((before ++ e :: after).map (·.1)).Nodup := by
    rw [← hrows]
    exact h.keys_nodup
  rw [List.map_append, List.map_cons, List.nodup_middle, List.nodup_cons, List.mem_append] at hkeys
  have hstay : ∀ part : List (RowKey × Row), e.1 ∉ part.map (·.1) →
      part.filter (·.1 ≠ e.1) = part := by
    intro part hnot
    rw [List.filter_eq_self]
    intro x hx
    have hne : x.1 ≠ e.1 := by
      intro heq
      exact hnot (heq ▸ List.mem_map_of_mem hx)
    simpa using hne
  rw [Table.remove, hrows, List.filter_append, List.filter_cons_of_neg (by simp),
    hstay before fun hmem => hkeys.1 (.inl hmem), hstay after fun hmem => hkeys.1 (.inr hmem)]

/-- The row that a `where` finds is the first of those that pass its filter. -/
theorem findRow_eq_head? (condition : Option Json) :
    t.findRow condition = (Filter.ofArgument t.model condition).map fun filter =>
      (t.rows.filter fun e => filter.matches e.2.data).head? := by
  rw [findRow, findRows_eq_filter]
  cases Filter.ofArgument t.model condition <;> rfl

end Table

/-! ## Stores -/

namespace Store

variable {d : Document} {s s' : Store} {t : Table} {supply : Supply} {delegate : String}
  {args : Json}

/-- Of the rows of a table only some are left, and all other tables are as they were. -/
structure Leaves (s s' : Store) (t : Table) (rows : List (RowKey × Row)) : Prop where
  table : s'.tableOf t.model.name = .ok { t with rows := rows }
  others : ∀ model, model ≠ t.model.name → s'.tableOf model = s.tableOf model

/-- What deleting one record comes to: a fault and the same store if its filter cannot be read, if
no row passes the filter or if the answer cannot be shaped, and else the store without the first row
that passes. -/
inductive DeletedFirst (s : Store) (t : Table) (args : Json) : Store × Except Fault Json → Prop
  | unreadable {fault : Fault}
      (refused : Filter.ofArgument t.model (args.get? "where") = .error fault) :
      DeletedFirst s t args (s, .error fault)
  | absent {filter : Filter}
      (read : Filter.ofArgument t.model (args.get? "where") = .ok filter)
      (none_passes : ∀ e ∈ t.rows, filter.matches e.2.data = false) :
      DeletedFirst s t args (s, .error .nothingToDelete)
  | unshaped {filter : Filter} {before after : List (RowKey × Row)} {e : RowKey × Row}
      {fault : Fault} (read : Filter.ofArgument t.model (args.get? "where") = .ok filter)
      (first : t.FirstMatch filter before e after)
      (shape : s.project t e.2.data args = .error fault) :
      DeletedFirst s t args (s, .error fault)
  | removed {filter : Filter} {before after : List (RowKey × Row)} {e : RowKey × Row} {s' : Store}
      {answer : Json} (read : Filter.ofArgument t.model (args.get? "where") = .ok filter)
      (first : t.FirstMatch filter before e after)
      (shape : s.project t e.2.data args = .ok answer)
      (left : s.Leaves s' t (before ++ after)) :
      DeletedFirst s t args (s', .ok answer)

/-- A count of the records that a `where` argument finds in a store gives none, through whichever
other arguments that name no column and ask for no page. -/
def CountsNone (s : Store) (delegate : String) (condition : Option Json) : Prop :=
  ∀ (supply : Supply) (args : Json), args.get? "where" = condition → args.get? "select" = none →
    args.Unpaged → s.execute supply delegate .count args = (s, .ok (.ofNat 0))

/-- What deleting several records comes to: a fault and the same store if their filter cannot be
read, and else the store without the rows that pass it, and their number. -/
inductive DeletedMany (s : Store) (delegate : String) (t : Table) (args : Json) :
    Store × Except Fault Json → Prop
  | unreadable {fault : Fault}
      (refused : Filter.ofArgument t.model (args.get? "where") = .error fault) :
      DeletedMany s delegate t args (s, .error fault)
  | removed {filter : Filter} {s' : Store} {n : Nat}
      (read : Filter.ofArgument t.model (args.get? "where") = .ok filter)
      (left : s.Leaves s' t (t.rows.filter fun e => !filter.matches e.2.data))
      (counted : s'.rowCount t.model.name + n = s.rowCount t.model.name)
      (emptied : s'.CountsNone delegate (args.get? "where")) :
      DeletedMany s delegate t args (s', .ok (.obj [("count", .ofNat n)]))

/-- Replacing a table by one of the same model with other rows leaves these and all other tables. -/
theorem Named.leaves_setTable (hs : s.Named) (found : s.tableOf t.model.name = .ok t)
    (rows : List (RowKey × Row)) :
    s.Leaves (s.setTable { t with rows := rows }) t rows where
  table := hs.tableOf_setTable_self found rfl
  others model hne := by rw [tableOf_setTable, if_neg hne]

/-- Deleting one record removes the first row that passes its filter, or leaves the store as it
was. -/
theorem Sound.deletedFirst (hs : s.Sound d) (found : s.tableOf t.model.name = .ok t)
    (args : Json) : s.DeletedFirst t args (s.deleteFirst t args) := by
  have htable := hs.table _ t found
  have hrow := Table.findRow_eq_head? (t := t) (args.get? "where")
  rw [deleteFirst]
  cases hread : Filter.ofArgument t.model (args.get? "where") with
  | error fault =>
    rw [hrow, hread]
    exact .unreadable hread
  | ok filter =>
    cases hhead : (t.rows.filter fun e => filter.matches e.2.data).head? with
    | none =>
      rw [hrow, hread, Except.map, hhead]
      rw [List.head?_eq_none_iff, List.filter_eq_nil_iff] at hhead
      exact .absent hread fun e he => by simpa using hhead e he
    | some e =>
      have hfound : t.findRow (args.get? "where") = .ok (some e) := by
        rw [hrow, hread, Except.map, hhead]
      obtain ⟨_, before, after, hread, hfirst⟩ := htable.firstMatch_of_findRow hfound
      rw [hfound]
      dsimp only
      cases hshape : s.project t e.2.data args with
      | error fault => exact .unshaped hread hfirst hshape
      | ok answer =>
        refine .removed hread hfirst hshape ?_
        rw [htable.remove_eq hfirst.rows]
        exact hs.named.leaves_setTable found _

/-- Where no record passes a filter, its `where` counts none. -/
theorem countsNone_of_none_pass {filter : Filter} {condition : Option Json}
    (ht : s.tableFor delegate = .ok t) (hread : Filter.ofArgument t.model condition = .ok filter)
    (hnone : ∀ e ∈ t.rows, filter.matches e.2.data = false) :
    s.CountsNone delegate condition := by
  intro supply args hwhere hselect hargs
  have hselected : t.select args none = .ok [] := by
    rw [Table.select_eq_filter hargs, hwhere, hread, Except.map, Table.records, List.filter_map]
    have hrows : t.rows.filter ((fun r => filter.matches r) ∘ (·.2.data)) = [] := by
      rw [List.filter_eq_nil_iff]
      intro e he
      simpa using hnone e he
    simpa using hrows
  rw [execute_of_tableFor ht, executeOn, answer, count, hselected, hselect]
  rfl

/-- Deleting several records removes all rows that pass their filter, or leaves the store as it
was. -/
theorem Sound.deletedMany (hs : s.Sound d) (ht : s.tableFor delegate = .ok t) (args : Json) :
    s.DeletedMany delegate t args (s.deleteMany t args) := by
  have found := hs.named.tableOf_of_tableFor ht
  have htable := hs.table _ t found
  have hrows := Table.findRows_eq_filter (t := t) (args.get? "where")
  rw [deleteMany, hrows]
  cases hread : Filter.ofArgument t.model (args.get? "where") with
  | error fault => exact .unreadable hread
  | ok filter =>
    rw [Except.map]
    dsimp only
    rw [htable.removeEach_eq_filter]
    let left : Table := { t with rows := t.rows.filter fun e => !filter.matches e.2.data }
    have hleaves := hs.named.leaves_setTable found left.rows
    refine .removed hread hleaves ?_ ?_
    · -- every row passes the filter or stays
      have hlength : t.rows.length = (t.rows.filter fun e => filter.matches e.2.data).length +
          (t.rows.filter fun e => !filter.matches e.2.data).length := by
        rw [← List.length_append]
        exact (List.filter_append_perm (fun e => filter.matches e.2.data) t.rows).length_eq.symm
      rw [rowCount_eq_length, rowCount_eq_length, rowsOf_of_tableOf hleaves.table,
        rowsOf_of_tableOf found, hlength, Nat.add_comm]
    · have ht' : (s.setTable left).tableFor delegate = .ok left :=
        hs.named.tableFor_setTable_self ht rfl
      refine countsNone_of_none_pass ht' hread fun e he => ?_
      simpa using (List.mem_filter.mp he).2

/-- In a reachable store a deletion is exact: one of several records removes the rows that pass its
filter and no others, and one of a single record removes the first of them after its answer is
shaped. -/
theorem Reachable.deletion_exact (hd : d.WellFormed) (h : Reachable d s)
    (ht : s.tableFor delegate = .ok t) (supply : Supply) (args : Json) :
    s.DeletedMany delegate t args (s.execute supply delegate .deleteMany args) ∧
      s.DeletedFirst t args (s.execute supply delegate .delete args) := by
  have hs := h.sound hd
  rw [execute_of_tableFor ht, execute_of_tableFor ht]
  exact ⟨hs.deletedMany ht args, hs.deletedFirst (hs.named.tableOf_of_tableFor ht) args⟩

/-- Of three seats two are in the first row: a deletion of that row removes both, one of a single
record the first of them, and one whose answer cannot be shaped none. -/
theorem seats_deletion_exact :
    let s := Seats.made [
      .execute "seat" .create (.obj [("data", Seats.seat (.ofNat 1) (.ofNat 1) .null)]),
      .execute "seat" .create (.obj [("data", Seats.seat (.ofNat 2) (.ofNat 1) .null)]),
      .execute "seat" .create (.obj [("data", Seats.seat (.ofNat 1) (.ofNat 2) .null)])]
    let t := s.current (Table.empty Seats.model)
    let asking (name : String) := Json.obj [("where", .obj [("row", .ofNat 1)]),
      ("select", .obj [(name, .bool true)])]
    let many := s.execute Seats.supply "seat" .deleteMany (asking "number")
    let first := s.execute Seats.supply "seat" .delete (asking "number")
    let refused := s.execute Seats.supply "seat" .delete (asking "owner")
    Seats.document.WellFormed ∧ Reachable Seats.document s ∧ s.tableFor "seat" = .ok t ∧
      t.sequences = [1, 2, 3] ∧
      many.2 = .ok (.obj [("count", .ofNat 2)]) ∧
      (many.1.rowsOf "Seat").map (·.2.sequence) = [2] ∧
      first.2 = .ok (.obj [("number", .ofNat 1)]) ∧
      (first.1.rowsOf "Seat").map (·.2.sequence) = [2, 3] ∧
      refused.2 = .error (.unknownSelection "Seat" "owner") ∧
      (refused.1.rowsOf "Seat").map (·.2.sequence) = [1, 2, 3] ∧
      s.DeletedMany "seat" t (asking "number") many ∧ s.DeletedFirst t (asking "number") first ∧
      s.DeletedFirst t (asking "owner") refused := by
  intro s t asking many first refused
  have hs : Reachable Seats.document s :=
    Seats.reachable_made (by simp [Call.WellFormed, Entries.names])
  have ht : s.tableFor "seat" = .ok t := rfl
  have hexact := fun name =>
    hs.deletion_exact Seats.document_wellFormed ht Seats.supply (asking name)
  have hmany : many.2 = .ok (.obj [("count", .ofNat 2)]) := by decide +kernel
  have hfirst : first.2 = .ok (.obj [("number", .ofNat 1)]) := by decide +kernel
  have hrefused : refused.2 = .error (.unknownSelection "Seat" "owner") := by decide +kernel
  have hleft : (many.1.rowsOf "Seat").map (·.2.sequence) = [2] ∧
      (first.1.rowsOf "Seat").map (·.2.sequence) = [2, 3] ∧
      (refused.1.rowsOf "Seat").map (·.2.sequence) = [1, 2, 3] := by decide +kernel
  exact ⟨Seats.document_wellFormed, hs, ht, rfl, hmany, hleft.1, hfirst, hleft.2.1, hrefused,
    hleft.2.2, (hexact "number").1, (hexact "number").2, (hexact "owner").2⟩

end Store

end ModelGateway
