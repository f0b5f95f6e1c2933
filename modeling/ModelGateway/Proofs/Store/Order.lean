import Mathlib.Data.List.Sort
import ModelGateway.Proofs.Store.Sound

/-!
# The order of rows

The rows of a table stand in the order in which they were created, each of them once.

* **One table**: a new row is put after all others (`Table.Sound.appends_of_store`), and a row that
  is updated stays where it stands (`Table.Sound.replaces_of_store`). In both cases a row that
  stood under the same key is gone.
* **Calls** (`Store.Sound.after_continues`): the rows that a call finds keep their order, and those
  that it creates come after them.
* **Reachable stores** (`Store.Reachable.creationOrder`): all of this for each table and each call.
-/

namespace ModelGateway

/-! ## Tables -/

namespace Table

/-- The sequence numbers of the rows, in the order of the rows. -/
def sequences (t : Table) : List Nat :=
  t.rows.map (·.2.sequence)

/-- The rows with a new one for a record at the end, and without the one that stood under its
key. -/
def Appends (t t' : Table) (r : Record) : Prop :=
  t'.rows = t.rows.filter (·.1 ≠ t.keyFor r t.nextSequence) ++
    [(t.keyFor r t.nextSequence, ⟨t.nextSequence, r⟩)]

/-- The rows with that of a record in the place of the row `e`, and without the one that stood under
its key. -/
def Replaces (t t' : Table) (e : RowKey × Row) (r : Record) : Prop :=
  ∃ before after, t.rows = before ++ e :: after ∧
    t'.rows = before.filter (·.1 ≠ t.keyFor r e.2.sequence) ++
      (t.keyFor r e.2.sequence, ⟨e.2.sequence, r⟩) ::
        after.filter (·.1 ≠ t.keyFor r e.2.sequence)

/-- Of the rows that were there some stand first, in the same order; the others have been created
since. -/
def Continues (t t' : Table) : Prop :=
  ∃ kept created, t'.sequences = kept ++ created ∧ kept.Sublist t.sequences ∧
    ∀ n ∈ created, t.nextSequence ≤ n

variable {t t' : Table} {e : RowKey × Row} {r : Record}

/-- A row is put between those with smaller and those with greater sequence numbers. -/
theorem insertInOrder_append {key : RowKey} {row : Row} {before after : List (RowKey × Row)}
    (hbefore : ∀ e ∈ before, e.2.sequence < row.sequence)
    (hafter : ∀ e ∈ after, row.sequence < e.2.sequence) :
    insertInOrder key row (before ++ after) = before ++ (key, row) :: after := by
  induction before with
  | nil =>
    cases after with
    | nil => rfl
    | cons e rest => rw [List.nil_append, insertInOrder, if_pos (hafter e List.mem_cons_self)]; rfl
  | cons e rest ih =>
    obtain ⟨he, hrest⟩ := List.forall_mem_cons.mp hbefore
    rw [List.cons_append, insertInOrder, if_neg (Nat.lt_asymm he), ih hrest]
    rfl

/-- The sequence numbers of a sound table increase. -/
theorem Sound.sequences_increase (h : t.Sound) : t.sequences.Pairwise (· < ·) :=
  List.pairwise_map.mpr h.sorted

/-- The sequence numbers of a sound table have been given out. -/
theorem Sound.sequences_bounded (h : t.Sound) : ∀ n ∈ t.sequences, n < t.nextSequence := by
  intro n hn
  obtain ⟨e, he, rfl⟩ := List.mem_map.mp hn
  exact h.bounded e he

/-- A record that is stored as a new row is put after all others. -/
theorem Sound.appends_of_store (h : t.Sound) {counter : Int} {next : Nat}
    (hs : ({ t with counter := counter, nextSequence := next } : Table).store r t.nextSequence
      none = .ok t') : t.Appends t' r := by
  obtain ⟨-, rfl⟩ := store_eq_ok_iff.mp hs
  rw [bystanders_none]
  have hlast : ∀ e ∈ t.rows.filter (·.1 ≠ t.keyFor r t.nextSequence),
      e.2.sequence < t.nextSequence :=
    fun e he => h.bounded e (List.mem_filter.mp he).1
  rw [Appends, ← insertInOrder_append hlast (by simp), List.append_nil]
  rfl

/-- A record that is stored for a row takes the place of that row. -/
theorem Sound.replaces_of_store (h : t.Sound) (he : e ∈ t.rows)
    (hs : t.store r e.2.sequence (some e.1) = .ok t') : t.Replaces t' e r := by
  obtain ⟨before, after, hrows⟩ := List.append_of_mem he
  have hsorted := h.sorted
  have hkeys : t.rows.Pairwise fun a b => a.1 ≠ b.1 := List.pairwise_map.mp h.keys_nodup
  rw [hrows] at hsorted hkeys
  obtain ⟨-, hsorted', hbefore⟩ := List.pairwise_append.mp hsorted
  obtain ⟨-, hkeys', hkeysBefore⟩ := List.pairwise_append.mp hkeys
  have hafter := (List.pairwise_cons.mp hsorted').1
  -- of the rows on either side none stands under the key of `e`
  have hstay : ∀ x ∈ before ++ after, x.1 ≠ e.1 := by
    intro x hx
    rcases List.mem_append.mp hx with hx | hx
    · exact hkeysBefore x hx e List.mem_cons_self
    · exact ((List.pairwise_cons.mp hkeys').1 x hx).symm
  obtain ⟨-, rfl⟩ := store_eq_ok_iff.mp hs
  refine ⟨before, after, hrows, ?_⟩
  have hothers : t.bystanders (t.keyFor r e.2.sequence) (some e.1) =
      before.filter (·.1 ≠ t.keyFor r e.2.sequence) ++
        after.filter (·.1 ≠ t.keyFor r e.2.sequence) := by
    rw [bystanders, hrows, List.filter_append, List.filter_cons_of_neg (by simp)]
    congr 1
    · refine List.filter_congr fun x hx => decide_eq_decide.mpr (and_iff_left ?_)
      exact fun heq => hstay x (List.mem_append_left _ hx) (Option.some.inj heq).symm
    · refine List.filter_congr fun x hx => decide_eq_decide.mpr (and_iff_left ?_)
      exact fun heq => hstay x (List.mem_append_right _ hx) (Option.some.inj heq).symm
  rw [hothers]
  exact insertInOrder_append
    (fun x hx => hbefore x (List.mem_filter.mp hx).1 e List.mem_cons_self)
    (fun x hx => hafter x (List.mem_filter.mp hx).1)

/-- Among increasing numbers those that occur in other increasing numbers stand in the same
order. -/
theorem sublist_of_increasing {xs ys : List Nat} (hx : xs.Pairwise (· < ·))
    (hy : ys.Pairwise (· < ·)) (hsub : xs ⊆ ys) : xs.Sublist ys :=
  List.sublist_of_subperm_of_pairwise (List.subperm_of_subset (hx.imp Nat.ne_of_lt) hsub) hx hy

/-- If each row was there or has a sequence number that was not given out, then the rows continue
those that were there. -/
theorem Sound.continues (h : t.Sound) (h' : t'.Sound)
    (horigin : ∀ n ∈ t'.sequences, n ∈ t.sequences ∨ t.nextSequence ≤ n) : t.Continues t' := by
  have hincrease := h'.sequences_increase
  have hsplit : t'.sequences.filter (· < t.nextSequence) ++
      t'.sequences.filter (t.nextSequence ≤ ·) = t'.sequences := by
    have hperm := List.filter_append_perm (fun n => decide (n < t.nextSequence)) t'.sequences
    simp only [← decide_not, Nat.not_lt] at hperm
    refine hperm.eq_of_pairwise (fun a b _ _ hab hba => absurd hab (Nat.lt_asymm hba)) ?_ hincrease
    refine List.pairwise_append.mpr
      ⟨hincrease.sublist List.filter_sublist, hincrease.sublist List.filter_sublist, ?_⟩
    intro a ha b hb
    simp only [List.mem_filter, decide_eq_true_eq] at ha hb
    exact Nat.lt_of_lt_of_le ha.2 hb.2
  refine ⟨_, _, hsplit.symm, ?_, ?_⟩
  · refine sublist_of_increasing (hincrease.sublist List.filter_sublist) h.sequences_increase ?_
    intro n hn
    simp only [List.mem_filter, decide_eq_true_eq] at hn
    exact (horigin n hn.1).resolve_right (Nat.not_le.mpr hn.2)
  · intro n hn
    simp only [List.mem_filter, decide_eq_true_eq] at hn
    exact hn.2

end Table

/-! ## Calls -/

namespace Progress

variable {supply : Supply} {model : String} {data : Json}

/-- Updating rows one after another keeps what updating each of them keeps. -/
theorem updateEach_keeps {I : Store → Prop} {rows : List (RowKey × Row)}
    (h : ∀ p : Progress, ∀ e ∈ rows, I p.store → I (p.update supply model e.1 e.2 data).1.store)
    {p : Progress} (hI : I p.store) : I (updateEach supply model data rows p).1.store := by
  induction rows generalizing p with
  | nil => exact hI
  | cons e rest ih =>
    obtain ⟨key, row⟩ := e
    have hI' := h p (key, row) List.mem_cons_self hI
    have hrest := fun p : Progress => ih (fun p x hx => h p x (List.mem_cons_of_mem _ hx)) (p := p)
    rw [updateEach]
    split
    · rename_i hp
      rwa [hp] at hI'
    · rename_i p' r hp
      rw [hp] at hI'
      have hrun := hrest p' hI'
      split
      · rename_i hq
        rwa [hq] at hrun
      · rename_i hq
        rwa [hq] at hrun

end Progress

namespace Store

variable {d : Document} {s s₀ : Store} {t t' : Table} {e : RowKey × Row} {model : String}
  {supply : Supply} {data : Json} {r : Record}

/-- Each row of a model was there at the start, going by its sequence number, or was created
since. -/
def Originates (s₀ s : Store) : Prop :=
  ∀ model t₀, s₀.tableOf model = .ok t₀ →
    ∀ e ∈ s.rowsOf model, e.2.sequence ∈ t₀.sequences ∨ t₀.nextSequence ≤ e.2.sequence

/-- The rows of a store originate from themselves. -/
theorem Originates.refl (s : Store) : s.Originates s := by
  intro model t ht e he
  rw [rowsOf_of_tableOf ht] at he
  exact .inl (List.mem_map_of_mem he)

/-- Replacing the table of a model keeps the origin of rows if each row of the new table has a
sequence number that was there or was not given out. -/
theorem Originates.setTable (h : s₀.Originates s) (hs : s.Named) (found : s.tableOf model = .ok t)
    (hm : t'.model = t.model)
    (hrows : ∀ e ∈ t'.rows, e ∈ t.rows ∨ ∀ t₀, s₀.tableOf model = .ok t₀ →
      e.2.sequence ∈ t₀.sequences ∨ t₀.nextSequence ≤ e.2.sequence) :
    s₀.Originates (s.setTable t') := by
  intro name t₀ h₀ e he
  rw [rowsOf_setTable] at he
  split_ifs at he with hname
  · rw [hm, hs model t found] at hname
    subst hname
    rcases hrows e he with ho | hn
    · exact h name t₀ h₀ e (by rwa [rowsOf_of_tableOf found])
    · exact hn t₀ h₀
  · exact h name t₀ h₀ e he

/-- The steps of a call keep the origin of rows. -/
theorem Originates.kept (hd : d.WellFormed) (supply : Supply) (h₀ : s₀.Sound d) :
    Kept supply s₀ fun s => (s.Sound d ∧ s₀.Later s) ∧ s₀.Originates s where
  create p model data hdata hs hI := by
    obtain ⟨hI, horigin⟩ := hI
    refine ⟨(h₀.kept hd supply).create p model data hdata hs hI, ?_⟩
    have ho := Progress.create_outcome supply p model data
    generalize p.create supply model data = outcome at ho
    cases ho with
    | refused => exact horigin
    | unfilled found _ _ | clashing found _ _ _ =>
      exact horigin.setTable hs found rfl fun e he => .inl he
    | @stored t t' _ draft r found _ _ stored =>
      refine horigin.setTable hs found (Table.store_frame stored).1 fun e he => ?_
      rcases (Table.mem_rows_store stored).mp he with rfl | ho
      · -- the number was the next one of the table, which has only moved forward
        refine .inr fun t₀ ht₀ => .inr ?_
        obtain ⟨u, hu, -, hle⟩ := hI.2 model t₀ ht₀
        rwa [Except.ok.inj (hu.symm.trans found)] at hle
      · exact .inl ho.1
  update p model key row data hdata hs hmem hsettled hI := by
    obtain ⟨hI, horigin⟩ := hI
    refine ⟨(h₀.kept hd supply).update p model key row data hdata hs hmem hsettled hI, ?_⟩
    have ho := Progress.update_outcome supply p model key row data
    generalize p.update supply model key row data = outcome at ho
    cases ho with
    | refused => exact horigin
    | @stored t t' _ _ r found _ _ stored =>
      refine horigin.setTable hs found (Table.store_frame stored).1 fun e he => ?_
      rcases (Table.mem_rows_store stored).mp he with rfl | ho
      · refine .inr fun t₀ ht₀ => .inl ?_
        rw [rowsOf_of_tableOf ht₀] at hmem
        exact List.mem_map.mpr ⟨(key, row), hmem, rfl⟩
      · exact .inl ho.1
  remove s t key hs found hI := by
    refine ⟨(h₀.kept hd supply).remove s t key hs found hI.1, ?_⟩
    exact hI.2.setTable hs found rfl fun e he => .inl (List.mem_filter.mp he).1

/-- A call keeps the order of the rows that it finds and puts those that it creates after them. -/
theorem Sound.after_continues (hd : d.WellFormed) (h : s.Sound d) (ht : s.tableOf model = .ok t)
    (supply : Supply) {c : Call} (hc : c.WellFormed) :
    ∃ t', (s.after supply c).tableOf model = .ok t' ∧ t.Continues t' := by
  obtain ⟨⟨hsound, hlater⟩, horigin⟩ :=
    (Originates.kept hd supply h).after h.named h.distinct ⟨⟨h, .refl s⟩, .refl s⟩ hc
  obtain ⟨t', ht', -, -⟩ := hlater model t ht
  refine ⟨t', ht', (h.table model t ht).continues (hsound.table model t' ht') ?_⟩
  intro n hn
  obtain ⟨e, he, rfl⟩ := List.mem_map.mp hn
  exact horigin model t ht e (by rwa [rowsOf_of_tableOf ht'])

/-- A record that is created stands after all others. -/
theorem Sound.create_appends (h : s.Sound d) (ht : s.tableOf model = .ok t)
    (hr : (Progress.create supply ⟨s, 0⟩ model data).2 = .ok r) :
    ∃ t', (Progress.create supply ⟨s, 0⟩ model data).1.store.tableOf model = .ok t' ∧
      t.Appends t' r := by
  have ho := Progress.create_outcome supply ⟨s, 0⟩ model data
  generalize Progress.create supply ⟨s, 0⟩ model data = outcome at hr ho
  cases ho with
  | refused | unfilled | clashing => cases hr
  | @stored u t' _ _ _ found _ _ stored =>
    cases hr
    obtain rfl : u = t := Except.ok.inj (found.symm.trans ht)
    exact ⟨t', h.named.tableOf_setTable_self found (Table.store_frame stored).1,
      (h.table model u found).appends_of_store stored⟩

/-- A row that is updated stays where it stands. -/
theorem Sound.update_replaces (h : s.Sound d) (ht : s.tableOf model = .ok t) (he : e ∈ t.rows)
    (hr : (Progress.update supply ⟨s, 0⟩ model e.1 e.2 data).2 = .ok r) :
    ∃ t', (Progress.update supply ⟨s, 0⟩ model e.1 e.2 data).1.store.tableOf model = .ok t' ∧
      t.Replaces t' e r := by
  obtain ⟨t', -, -, -, -, hstored, hstore⟩ := Progress.exists_stored_of_update ht hr
  rw [hstore]
  exact ⟨t', h.named.tableOf_setTable_self ht (Table.store_frame hstored).1,
    (h.table model t ht).replaces_of_store he hstored⟩

/-- A row that an update of the rows `found` leaves in the place of the row `e`: the same row, or
what an update has made of it. -/
def LeftBy (supply : Supply) (model : String) (data : Json) (found : List (RowKey × Row))
    (e e' : RowKey × Row) : Prop :=
  e' = e ∨ e ∈ found ∧ e'.2.sequence = e.2.sequence ∧
    ∃ p : Progress, (p.update supply model e.1 e.2 data).2 = .ok e'.2.data

/-- What is left in the place of a row has its sequence number. -/
theorem LeftBy.sequence_eq {found : List (RowKey × Row)} {e' : RowKey × Row}
    (h : LeftBy supply model data found e e') : e'.2.sequence = e.2.sequence := by
  rcases h with rfl | ⟨-, hseq, -⟩
  · rfl
  · exact hseq

/-- Each row after an update of several is what the update leaves in the place of a row. -/
theorem updateEach_leftBy (hs : s.Named) {found : List (RowKey × Row)}
    (hfound : ∀ e ∈ found, e ∈ s.rowsOf model) :
    ∀ e' ∈ (Progress.updateEach supply model data found ⟨s, 0⟩).1.store.rowsOf model,
      ∃ e ∈ s.rowsOf model, LeftBy supply model data found e e' := by
  let I (s' : Store) : Prop := s'.Named ∧
    ∀ e' ∈ s'.rowsOf model, ∃ e ∈ s.rowsOf model, LeftBy supply model data found e e'
  have hrun : I (Progress.updateEach supply model data found ⟨s, 0⟩).1.store :=
    Progress.updateEach_keeps (fun p e he hI => ?_) ⟨hs, fun e he => ⟨e, he, .inl rfl⟩⟩
  · exact hrun.2
  · refine ⟨Progress.named_update hI.1 supply model e.1 e.2 data, ?_⟩
    have hmade : ∀ r, (p.update supply model e.1 e.2 data).2 = .ok r →
        ∃ p : Progress, (p.update supply model e.1 e.2 data).2 = .ok r := fun r hr => ⟨p, hr⟩
    have ho := Progress.update_outcome supply p model e.1 e.2 data
    generalize p.update supply model e.1 e.2 data = outcome at hmade ho
    cases ho with
    | refused => exact hI.2
    | @stored u t' _ _ r found _ _ stored =>
      have htable := hI.1.tableOf_setTable_self found (Table.store_frame stored).1
      intro e' he'
      rw [rowsOf_of_tableOf htable] at he'
      rcases (Table.mem_rows_store stored).mp he' with rfl | ho
      · exact ⟨e, hfound e he, .inr ⟨he, rfl, hmade r rfl⟩⟩
      · exact hI.2 e' (by rw [rowsOf_of_tableOf found]; exact ho.1)

/-- An update of several rows keeps them and the others in their order. -/
theorem Sound.updateMany_sublist (hd : d.WellFormed) (h : s.Sound d)
    (ht : s.tableOf t.model.name = .ok t) {args : Json} (hargs : args.WellFormed)
    {found : List (RowKey × Row)} (hfound : t.findRows (args.get? "where") = .ok found) :
    ∃ t', (s.updateMany supply t args).1.store.tableOf t.model.name = .ok t' ∧
      t'.sequences.Sublist t.sequences ∧
      ∀ e' ∈ t'.rows, ∃ e ∈ t.rows,
        LeftBy supply t.model.name (argument args "data") found e e' := by
  obtain ⟨hsound, hlater⟩ := (h.kept hd supply).updateMany (t := t) h.named h.distinct
    ⟨h, .refl s⟩ ht hargs
  obtain ⟨t', ht', -, -⟩ := hlater t.model.name t ht
  have hrows := rowsOf_of_tableOf ht
  have hleft : ∀ e' ∈ t'.rows, ∃ e ∈ t.rows,
      LeftBy supply t.model.name (argument args "data") found e e' := by
    have hmem : ∀ e ∈ found, e ∈ s.rowsOf t.model.name := by
      rw [hrows]
      exact fun e he => (sublist_of_findRows hfound).subset he
    rw [updateMany, hfound] at ht'
    rw [← rowsOf_of_tableOf ht', ← hrows]
    exact updateEach_leftBy h.named hmem
  refine ⟨t', ht', ?_, hleft⟩
  refine Table.sublist_of_increasing (hsound.table _ t' ht').sequences_increase
    (h.table _ t ht).sequences_increase fun n hn => ?_
  obtain ⟨e', he', rfl⟩ := List.mem_map.mp hn
  obtain ⟨e, he, hle⟩ := hleft e' he'
  rw [hle.sequence_eq]
  exact List.mem_map_of_mem he

/-! ## Reachable stores -/

/-- A table lists its rows once each, under their keys and in the order of their creation, and
writing to the store keeps it so. -/
structure CreationOrder (s : Store) (t : Table) : Prop where
  /-- Each row stands under the key of its record. -/
  keyed : ∀ e ∈ t.rows, e.1 = t.keyFor e.2.data e.2.sequence
  /-- No row is listed twice. -/
  keys_nodup : (t.rows.map (·.1)).Nodup
  sequences_nodup : t.sequences.Nodup
  sequences_bounded : ∀ n ∈ t.sequences, n < t.nextSequence
  sequences_increase : t.sequences.Pairwise (· < ·)
  /-- Whatever a call does, rows that were there keep their order and new ones come after them. -/
  call : ∀ supply c, c.WellFormed →
    ∃ t', (s.after supply c).tableOf t.model.name = .ok t' ∧ t.Continues t'
  /-- A record that is created gets the next sequence number and the last place. -/
  creation : ∀ supply data r,
    (Progress.create supply ⟨s, 0⟩ t.model.name data).2 = .ok r →
      ∃ t', (Progress.create supply ⟨s, 0⟩ t.model.name data).1.store.tableOf t.model.name =
        .ok t' ∧ t.Appends t' r
  /-- A row that is updated keeps its sequence number and its place. -/
  update : ∀ supply data, ∀ e ∈ t.rows, ∀ r,
    (Progress.update supply ⟨s, 0⟩ t.model.name e.1 e.2 data).2 = .ok r →
      ∃ t', (Progress.update supply ⟨s, 0⟩ t.model.name e.1 e.2 data).1.store.tableOf
        t.model.name = .ok t' ∧ t.Replaces t' e r
  /-- So do the rows that are updated together, as far as none takes the key of another. -/
  updates : ∀ supply args found, args.WellFormed → t.findRows (args.get? "where") = .ok found →
    ∃ t', (s.updateMany supply t args).1.store.tableOf t.model.name = .ok t' ∧
      t'.sequences.Sublist t.sequences ∧
      ∀ e' ∈ t'.rows, ∃ e ∈ t.rows,
        LeftBy supply t.model.name (argument args "data") found e e'

/-- The tables of a reachable store list their rows once each, under their keys and in the order of
their creation. -/
theorem Reachable.creationOrder (hd : d.WellFormed) (h : Reachable d s)
    (ht : s.tableOf model = .ok t) : s.CreationOrder t := by
  have hs := h.sound hd
  obtain rfl : t.model.name = model := hs.named model t ht
  have hsound := hs.table _ t ht
  exact {
    keyed := hsound.keyed
    keys_nodup := hsound.keys_nodup
    sequences_nodup := hsound.nodup_sequences
    sequences_bounded := hsound.sequences_bounded
    sequences_increase := hsound.sequences_increase
    call := fun supply c hc => hs.after_continues hd ht supply hc
    creation := fun supply data r hr => hs.create_appends ht hr
    update := fun supply data e he r hr => hs.update_replaces ht he hr
    updates := fun supply args found hargs hfound => hs.updateMany_sublist hd ht hargs hfound }

/-- A seat that gets another number, and with it another key, stays before the seat that was created
after it. -/
theorem seats_creationOrder :
    let s := Seats.made [
      .execute "seat" .create (.obj [("data", Seats.seat (.ofNat 1) (.ofNat 1) .null)]),
      .execute "seat" .create (.obj [("data", Seats.seat (.ofNat 1) (.ofNat 2) .null)])]
    let t := s.current (Table.empty Seats.model)
    let outcome := s.execute Seats.supply "seat" .update (.obj [
      ("where", .obj [("number", .ofNat 1)]), ("data", .obj [("number", .ofNat 3)])])
    Seats.document.WellFormed ∧ Reachable Seats.document s ∧ s.tableOf "Seat" = .ok t ∧
      t.sequences = [1, 2] ∧
      ((outcome.1.rowsOf "Seat").map fun e => (e.2.sequence, Record.value e.2.data "number")) =
        [(1, .ofNat 3), (2, .ofNat 2)] ∧
      s.CreationOrder t := by
  intro s t outcome
  have hs : Reachable Seats.document s :=
    Seats.reachable_made (by simp [Call.WellFormed, Entries.names])
  have ht : s.tableOf "Seat" = .ok t := rfl
  exact ⟨Seats.document_wellFormed, hs, ht, rfl, rfl,
    hs.creationOrder Seats.document_wellFormed ht⟩

end Store

end ModelGateway
