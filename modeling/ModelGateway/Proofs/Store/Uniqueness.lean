import ModelGateway.Proofs.Store.Sound

/-!
# Uniqueness

No two rows of a table of a reachable store clash on a unique group.

* **One table** (`Table.Unique.store`): a record that passes the check of `Table.store` clashes with
  no row that stays. The row that it replaces is exempt from the check, and is not among them.
* **All stores** (`Store.Reachable.unique`): every step of a call changes one table by removing
  rows or by storing one record, so calls keep uniqueness, those that fail halfway too.
-/

namespace ModelGateway

/-- Two records clash on no unique group of a model, in either order. -/
def Model.Separates (m : Model) (a b : Record) : Prop :=
  ∀ group, m.UniqueGroup group → ¬ Record.Clashes group a b ∧ ¬ Record.Clashes group b a

/-- Whether a model separates two records does not depend on their order. -/
theorem Model.Separates.symm {m : Model} {a b : Record} (h : m.Separates a b) :
    m.Separates b a :=
  fun group hg => (h group hg).symm

/-! ## Tables -/

namespace Table

/-- The model of the table separates every two rows. -/
def Unique (t : Table) : Prop :=
  t.rows.Pairwise fun a b => t.model.Separates a.2.data b.2.data

variable {t t' : Table}

/-- A table of the same model without further rows has unique rows too. -/
theorem Unique.of_sublist (h : t.Unique) (hm : t'.model = t.model)
    (hs : t'.rows.Sublist t.rows) : t'.Unique := by
  unfold Unique
  rw [hm]
  exact List.Pairwise.sublist hs h

/-- Storing a record keeps rows unique. -/
theorem Unique.store (h : t.Unique) {r : Record} {n : Nat} {replacing : Option RowKey}
    (hs : t.store r n replacing = .ok t') (hw : ∀ e ∈ t'.rows, Record.WellFormed e.2.data) :
    t'.Unique := by
  have hmem := fun e => mem_rows_store hs (e := e)
  have hr : Record.WellFormed r := hw _ ((hmem (t.keyFor r n, ⟨n, r⟩)).mpr (.inl rfl))
  have hpassed := clashingGroup?_eq_none_iff.mp (store_eq_ok_iff.mp hs).1
  unfold Unique
  rw [(store_frame hs).1, (rows_store_perm hs).pairwise_iff Model.Separates.symm,
    List.pairwise_cons]
  refine ⟨?_, List.Pairwise.sublist List.filter_sublist h⟩
  intro e he group hg
  obtain ⟨he, hkey, hreplacing⟩ := mem_bystanders.mp he
  have hnot : ¬ Record.Clashes group r e.2.data := hpassed e he hreplacing group hg
  have hwe : Record.WellFormed e.2.data := hw e ((hmem e).mpr (.inr ⟨he, hkey, hreplacing⟩))
  exact ⟨hnot, fun hc => hnot (hc.symm hwe hr)⟩

end Table

/-! ## Stores -/

namespace Store

/-- The rows of each table are unique. -/
def Unique (s : Store) : Prop :=
  ∀ model t, s.tableOf model = .ok t → t.Unique

variable {d : Document} {s s₀ : Store} {t : Table} {model : String}

/-- Replacing a table by one with unique rows keeps all rows unique. -/
theorem Unique.setTable (h : s.Unique) (ht : t.Unique) : (s.setTable t).Unique := by
  intro name u hu
  rw [tableOf_setTable] at hu
  split_ifs at hu
  · cases hu
    exact ht
  · exact h name u hu

/-- The steps of a call keep rows unique. -/
theorem Unique.kept (hd : d.WellFormed) (supply : Supply) (h₀ : s₀.Sound d) :
    Kept supply s₀ fun s => (s.Sound d ∧ s₀.Later s) ∧ s.Unique where
  create p model data hdata hs hI := by
    obtain ⟨hI, hunique⟩ := hI
    have hsound := (h₀.kept hd supply).create p model data hdata hs hI
    refine ⟨hsound, ?_⟩
    have ho := Progress.create_outcome supply p model data
    generalize p.create supply model data = outcome at ho hsound
    cases ho with
    | refused => exact hunique
    | unfilled found _ _ | clashing found _ _ _ =>
      exact hunique.setTable ((hunique model _ found).of_sublist rfl (.refl _))
    | @stored t t' _ draft _ found _ _ stored =>
      have ht' : t'.Sound := hsound.1.table t'.model.name t' (by rw [tableOf_setTable, if_pos rfl])
      have hcounted : ({ t with counter := draft.counter, nextSequence := t.nextSequence + 1 } :
          Table).Unique :=
        (hunique model t found).of_sublist rfl (.refl _)
      exact hunique.setTable (hcounted.store stored ht'.wellFormed)
  update p model key row data hdata hs hmem hsettled hI := by
    obtain ⟨hI, hunique⟩ := hI
    have hsound := (h₀.kept hd supply).update p model key row data hdata hs hmem hsettled hI
    refine ⟨hsound, ?_⟩
    have ho := Progress.update_outcome supply p model key row data
    generalize p.update supply model key row data = outcome at ho hsound
    cases ho with
    | refused => exact hunique
    | @stored t t' _ _ _ found _ _ stored =>
      have ht' : t'.Sound := hsound.1.table t'.model.name t' (by rw [tableOf_setTable, if_pos rfl])
      exact hunique.setTable ((hunique model t found).store stored ht'.wellFormed)
  remove s t key hs found hI := by
    refine ⟨(h₀.kept hd supply).remove s t key hs found hI.1, ?_⟩
    exact hI.2.setTable ((hI.2 _ t found).of_sublist rfl List.filter_sublist)

/-- The rows of each table of a reachable store are unique. -/
theorem Reachable.unique (hd : d.WellFormed) (h : Reachable d s) : s.Unique := by
  induction h with
  | start =>
    intro model t ht
    obtain ⟨m, -, -, rfl⟩ := tableOf_ofModels ht
    exact .nil
  | @call s supply c before hc ih =>
    have hsound := before.sound hd
    have hI := (Unique.kept hd supply hsound).after hsound.named hsound.distinct
      ⟨⟨hsound, .refl s⟩, ih⟩ hc
    exact hI.2

/-- No two rows of a table of a reachable store clash on a unique group. -/
theorem Reachable.pairwise_not_clashes (hd : d.WellFormed) (h : Reachable d s)
    (ht : s.tableOf model = .ok t) :
    t.rows.Pairwise fun a b => ∀ group, t.model.UniqueGroup group →
      ¬ Record.Clashes group a.2.data b.2.data ∧ ¬ Record.Clashes group b.2.data a.2.data :=
  h.unique hd model t ht

/-- Two seats of a row do not clash. -/
theorem seats_pairwise_not_clashes :
    let s := Seats.made [
      .execute "seat" .create (.obj [("data", Seats.seat (.ofNat 1) (.ofNat 1) .null)]),
      .execute "seat" .create (.obj [("data", Seats.seat (.ofNat 1) (.ofNat 2) .null)])]
    let t := s.current (Table.empty Seats.model)
    Seats.document.WellFormed ∧ Reachable Seats.document s ∧ s.tableOf "Seat" = .ok t ∧
      t.rows.length = 2 ∧
      t.rows.Pairwise fun a b => ∀ group, t.model.UniqueGroup group →
        ¬ Record.Clashes group a.2.data b.2.data ∧ ¬ Record.Clashes group b.2.data a.2.data := by
  intro s t
  have hs : Reachable Seats.document s :=
    Seats.reachable_made (by simp [Call.WellFormed, Entries.names])
  have ht : s.tableOf "Seat" = .ok t := rfl
  exact ⟨Seats.document_wellFormed, hs, ht, rfl,
    hs.pairwise_not_clashes Seats.document_wellFormed ht⟩

end Store

end ModelGateway
