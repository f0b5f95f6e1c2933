import ModelGateway.Proofs.Store.Run

/-!
# Sound stores

What holds of the rows of every reachable store (`Store.Reachable.sound`): a row stands under the
key of its record, no key and no sequence number is used twice, rows are in the order of their
sequence numbers, which are all below the next one, and records are well formed. The uniqueness of
keys and sequence numbers is what makes a table a map and its order that of creation.
-/

namespace ModelGateway

/-! ## Sound tables -/

/-- The rows of a table are as creations and updates leave them. -/
structure Table.Sound (t : Table) : Prop where
  /-- Each row stands under the key of its record. -/
  keyed : ∀ e ∈ t.rows, e.1 = t.keyFor e.2.data e.2.sequence
  keys_nodup : (t.rows.map (·.1)).Nodup
  /-- The rows are in the order of creation. -/
  sorted : t.rows.Pairwise fun a b => a.2.sequence < b.2.sequence
  bounded : ∀ e ∈ t.rows, e.2.sequence < t.nextSequence
  wellFormed : ∀ e ∈ t.rows, Record.WellFormed e.2.data

namespace Table

variable {t t' : Table}

/-- A table without rows is sound. -/
theorem sound_empty (m : Model) : (Table.empty m).Sound where
  keyed _ he := absurd he List.not_mem_nil
  keys_nodup := List.nodup_nil
  sorted := .nil
  bounded _ he := absurd he List.not_mem_nil
  wellFormed _ he := absurd he List.not_mem_nil

/-- Moving the counters forward keeps a table sound. -/
theorem Sound.advance (h : t.Sound) (counter : Int) {next : Nat} (hn : t.nextSequence ≤ next) :
    ({ t with counter := counter, nextSequence := next } : Table).Sound where
  keyed := h.keyed
  keys_nodup := h.keys_nodup
  sorted := h.sorted
  bounded e he := Nat.lt_of_lt_of_le (h.bounded e he) hn
  wellFormed := h.wellFormed

/-- In a sound table no sequence number is used twice. -/
theorem Sound.nodup_sequences (h : t.Sound) : (t.rows.map (·.2.sequence)).Nodup :=
  List.pairwise_map.mpr (h.sorted.imp fun hlt => Nat.ne_of_lt hlt)

/-- Removing a row keeps a table sound. -/
theorem Sound.remove (h : t.Sound) (key : RowKey) : (t.remove key).Sound := by
  have hsub : (t.remove key).rows.Sublist t.rows := List.filter_sublist
  exact {
    keyed := fun e he => h.keyed e (hsub.subset he)
    keys_nodup := h.keys_nodup.sublist (hsub.map _)
    sorted := h.sorted.sublist hsub
    bounded := fun e he => h.bounded e (hsub.subset he)
    wellFormed := fun e he => h.wellFormed e (hsub.subset he) }

/-- Storing a well-formed record keeps a table sound if its sequence number has been given out and
no row that stays has it. -/
theorem Sound.store (h : t.Sound) {r : Record} {n : Nat} {replacing : Option RowKey}
    (hs : t.store r n replacing = .ok t') (hr : Record.WellFormed r) (hn : n < t.nextSequence)
    (hfresh : ∀ e ∈ t.rows, e.2.sequence = n → replacing = some e.1) : t'.Sound := by
  have hkeys := nodup_keys_store h.keys_nodup hs
  have hmem := fun e => mem_rows_store hs (e := e)
  have hkept : (t.bystanders (t.keyFor r n) replacing).Sublist t.rows := List.filter_sublist
  obtain ⟨-, rfl⟩ := store_eq_ok_iff.mp hs
  refine ⟨?_, hkeys, ?_, ?_, ?_⟩
  · intro e he
    rcases (hmem e).mp he with rfl | ho
    · rfl
    · exact h.keyed e ho.1
  · refine sorted_insertInOrder (h.sorted.sublist hkept) ?_
    intro e he hseq
    obtain ⟨he, -, hne⟩ := mem_bystanders.mp he
    exact hne (hfresh e he hseq)
  · intro e he
    rcases (hmem e).mp he with rfl | ho
    · exact hn
    · exact h.bounded e ho.1
  · intro e he
    rcases (hmem e).mp he with rfl | ho
    · exact hr
    · exact h.wellFormed e ho.1

end Table

/-! ## Records that are written -/

namespace Progress

variable {supply : Supply} {p : Progress} {t : Table} {entries : Entries Json} {r : Record}

/-- A record filled from well-formed data is well formed. -/
theorem Filling.wellFormed {draft : Draft} (h : Filling supply p t entries draft (.ok r))
    (hm : t.model.WellFormed) (hd : ∀ e ∈ entries, e.2.WellFormed) : Record.WellFormed r := by
  obtain ⟨pairs, hpairs, hfill⟩ := h.filled_eq
  have hconnected : ∀ e ∈ Entries.ofList pairs, e.2.WellFormed :=
    fun e he => Store.foreignKeys_wellFormed hd hpairs e (Entries.mem_ofList he)
  have hfields : ∀ f ∈ t.model.scalarFields, f.WellFormed :=
    fun f hf => hm f (List.mem_filter.mp hf).1
  exact Draft.fill_wellFormed hd hconnected hfields Record.wellFormed_nil hfill

/-- A record rewritten by well-formed data is well formed. -/
theorem Rewriting.wellFormed {row : Row} {drawn : Nat}
    (h : Rewriting supply p t row entries drawn r) (hrow : Record.WellFormed row.data)
    (hd : ∀ e ∈ entries, e.2.WellFormed) : Record.WellFormed r := by
  obtain ⟨applied, happlied, hstamped⟩ := h.rewritten
  have hr : Record.WellFormed
      (stampUpdated supply entries t.model.fields applied p.drawn).2 :=
    stampUpdated_wellFormed (Store.applyData_wellFormed hd hrow happlied)
  rwa [hstamped] at hr

end Progress

/-! ## Sound stores -/

namespace Store

/-- Each table stands under the name of its model, belongs to a model of the document and is
sound. -/
structure Sound (d : Document) (s : Store) : Prop where
  named : s.Named
  declared : ∀ model t, s.tableOf model = .ok t → t.model ∈ d.models
  table : ∀ model t, s.tableOf model = .ok t → t.Sound

/-- Each table of a store has a later state in another: of the same model, with at least as many
sequence numbers given out. -/
def Later (s₀ s : Store) : Prop :=
  ∀ model t₀, s₀.tableOf model = .ok t₀ →
    ∃ t, s.tableOf model = .ok t ∧ t.model = t₀.model ∧ t₀.nextSequence ≤ t.nextSequence

variable {d : Document} {s s₀ : Store} {t t' : Table} {model : String}

/-- The store without rows is sound. -/
theorem sound_ofModels (d : Document) : (ofModels d.models).Sound d where
  named := named_ofModels d.models
  declared model t h := by
    obtain ⟨m, hm, -, rfl⟩ := tableOf_ofModels h
    exact hm
  table model t h := by
    obtain ⟨m, -, -, rfl⟩ := tableOf_ofModels h
    exact Table.sound_empty m

/-- In a sound store no sequence number of a table is used twice. -/
theorem Sound.distinct (h : s.Sound d) : s.Distinct := by
  intro model
  unfold rowsOf
  split
  · rename_i t ht
    exact (h.table model t (tableOf_eq_ok_iff.mpr ht)).nodup_sequences
  · exact List.nodup_nil

/-- Replacing the table of a model by a sound one keeps a store sound. -/
theorem Sound.setTable (h : s.Sound d) (found : s.tableOf model = .ok t) (hm : t'.model = t.model)
    (ht : t'.Sound) : (s.setTable t').Sound d where
  named := h.named.setTable t'
  declared name u hu := by
    rw [tableOf_setTable] at hu
    split_ifs at hu
    · cases hu
      rw [hm]
      exact h.declared model t found
    · exact h.declared name u hu
  table name u hu := by
    rw [tableOf_setTable] at hu
    split_ifs at hu
    · cases hu
      exact ht
    · exact h.table name u hu

/-- A store is a later state of itself. -/
theorem Later.refl (s : Store) : s.Later s :=
  fun _ t₀ h => ⟨t₀, h, rfl, Nat.le_refl _⟩

/-- Replacing a table by a later state leaves a later store. -/
theorem Later.setTable (h : s₀.Later s) (hs : s.Named) (found : s.tableOf model = .ok t)
    (hm : t'.model = t.model) (hn : t.nextSequence ≤ t'.nextSequence) :
    s₀.Later (s.setTable t') := by
  intro name t₀ h₀
  obtain ⟨u, hu, hum, hun⟩ := h name t₀ h₀
  rw [tableOf_setTable]
  split_ifs with hname
  · have heq : u = t := by
      rw [hm, hs model t found] at hname
      subst hname
      exact Except.ok.inj (hu.symm.trans found)
    subst heq
    exact ⟨t', rfl, hm.trans hum, Nat.le_trans hun hn⟩
  · exact ⟨u, hu, hum, hun⟩

/-- Creating a record keeps a store sound and makes it a later one. -/
theorem Sound.create (hd : d.WellFormed) (supply : Supply) (model : String) {p : Progress}
    (h : p.store.Sound d) (hlater : s₀.Later p.store) {data : Json} (hdata : data.WellFormed) :
    (p.create supply model data).1.store.Sound d ∧
      s₀.Later (p.create supply model data).1.store := by
  have hs := h.named
  have ho := Progress.create_outcome supply p model data
  generalize p.create supply model data = outcome at ho
  cases ho with
  | refused => exact ⟨h, hlater⟩
  | @unfilled t _ draft _ found _ _ =>
    have ht := (h.table model t found).advance draft.counter (Nat.le_refl _)
    exact ⟨h.setTable found rfl ht, hlater.setTable hs found rfl (Nat.le_refl _)⟩
  | @clashing t _ draft _ _ found _ _ _ =>
    have ht := (h.table model t found).advance draft.counter (Nat.le_succ _)
    exact ⟨h.setTable found rfl ht, hlater.setTable hs found rfl (Nat.le_succ _)⟩
  | @stored t t' entries draft r found object filling stored =>
    subst object
    have ht := h.table model t found
    have hr := filling.wellFormed (hd _ (h.declared model t found)) (Json.wellFormed_obj.mp hdata).2
    obtain ⟨hmodel, -, hnext⟩ := Table.store_frame stored
    have ht' : t'.Sound := by
      refine (ht.advance draft.counter (Nat.le_succ _)).store stored hr (Nat.lt_succ_self _) ?_
      intro e he hseq
      exact absurd hseq (Nat.ne_of_lt (ht.bounded e he))
    refine ⟨h.setTable found hmodel ht', hlater.setTable hs found hmodel ?_⟩
    rw [hnext]
    exact Nat.le_succ _

/-- Updating a row that was there at the start keeps a store sound and makes it a later one. -/
theorem Sound.update (h₀ : s₀.Sound d) (supply : Supply) {p : Progress} (h : p.store.Sound d)
    (hlater : s₀.Later p.store) {key : RowKey} {row : Row} (hmem : (key, row) ∈ s₀.rowsOf model)
    (hsettled : p.store.Settled model (key, row)) {data : Json} (hdata : data.WellFormed) :
    (p.update supply model key row data).1.store.Sound d ∧
      s₀.Later (p.update supply model key row data).1.store := by
  have ho := Progress.update_outcome supply p model key row data
  generalize p.update supply model key row data = outcome at ho
  cases ho with
  | refused => exact ⟨h, hlater⟩
  | @stored t t' entries drawn r found object rewriting stored =>
    subst object
    -- the row was sound at the start of the call, and its number has been given out since then
    obtain ⟨t₀, h₀t, hrow⟩ := exists_tableOf_of_mem_rowsOf hmem
    obtain ⟨u, hu, -, hle⟩ := hlater model t₀ h₀t
    have heq : u = t := Except.ok.inj (hu.symm.trans found)
    subst heq
    have ht₀ := h₀.table model t₀ h₀t
    have hr := rewriting.wellFormed (ht₀.wellFormed _ hrow) (Json.wellFormed_obj.mp hdata).2
    have hn := Nat.lt_of_lt_of_le (ht₀.bounded _ hrow) hle
    obtain ⟨hmodel, -, hnext⟩ := Table.store_frame stored
    have ht' : t'.Sound := by
      refine (h.table model u found).store stored hr hn ?_
      intro e he hseq
      rw [hsettled e (by rw [rowsOf_of_tableOf found]; exact he) hseq]
    exact ⟨h.setTable found hmodel ht',
      hlater.setTable h.named found hmodel (Nat.le_of_eq hnext.symm)⟩

/-- The steps of a call keep a store sound and make it a later one. -/
theorem Sound.kept (hd : d.WellFormed) (supply : Supply) (h₀ : s₀.Sound d) :
    Kept supply s₀ fun s => s.Sound d ∧ s₀.Later s where
  create _ model _ hdata _ hI := hI.1.create hd supply model hI.2 hdata
  update _ _ _ _ _ hdata _ hmem hsettled hI := h₀.update supply hI.1 hI.2 hmem hsettled hdata
  remove s t key hs found hI := by
    have ht := (hI.1.table _ t found).remove key
    exact ⟨hI.1.setTable found rfl ht, hI.2.setTable hs found rfl (Nat.le_refl _)⟩

/-- A call keeps a store sound and makes it a later one. -/
theorem Sound.after (hd : d.WellFormed) (h : s.Sound d) (supply : Supply) {c : Call}
    (hc : c.WellFormed) : (s.after supply c).Sound d ∧ s.Later (s.after supply c) :=
  (h.kept hd supply).after h.named h.distinct ⟨h, .refl s⟩ hc

/-- Every reachable store is sound. -/
theorem Reachable.sound (hd : d.WellFormed) (h : Reachable d s) : s.Sound d := by
  induction h with
  | start => exact sound_ofModels d
  | call supply _ hc ih => exact (ih.after hd supply hc).1

end Store

end ModelGateway
