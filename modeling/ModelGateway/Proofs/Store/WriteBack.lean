import ModelGateway.Proofs.Store.Columns
import ModelGateway.Proofs.Store.Unordered

/-!
# Writing the values of a row back

An update whose data gives columns the values that a row holds already succeeds and changes nothing
but the columns that the clock writes.

* **Complete records** (`Store.Reachable.complete`): every stored record holds all columns of its
  model, as a creation fills them and no write removes one.
* **Entries** (`Model.Restates.applyData_eq`): such data leaves the record as it is.
* **Unique groups and keys** (`Model.ClockApart`): if the clock writes no column of a unique group
  or of the key, then the stamped record clashes with no other row, and it stands under the same
  key.

Together they give `Store.Reachable.update_restating`.
-/

namespace ModelGateway

/-! ## Complete records -/

/-- A record holds all columns of a model. -/
def Model.Complete (m : Model) (r : Record) : Prop :=
  ∀ f ∈ m.scalarFields, f.name ∈ Entries.names r

/-- Applying the entries of an update loses no column. -/
theorem Store.names_subset_applyData {s : Store} {m : Model} {data : Entries Json} {r r' : Record}
    (h : s.applyData m data r = .ok r') : Entries.names r ⊆ Entries.names r' := by
  induction data generalizing r with
  | nil =>
    cases h
    exact List.Subset.refl _
  | cons entry rest ih =>
    rw [applyData_cons] at h
    obtain ⟨r₁, happlied, h⟩ := Except.bind_eq_ok_iff.mp h
    refine List.Subset.trans ?_ (ih h)
    cases applied_of_applyEntry happlied with
    | relation => exact Entries.names_subset_extend r _
    | column => exact Entries.names_subset_insert r entry.1 _

/-- Stamping the time of an update loses no column. -/
theorem names_subset_stampUpdated (supply : Supply) (data : Entries Json) (fields : List Field)
    (r : Record) (drawn : Nat) :
    Entries.names r ⊆ Entries.names (stampUpdated supply data fields r drawn).2 := by
  induction fields generalizing r drawn with
  | nil => exact List.Subset.refl _
  | cons f rest ih =>
    rw [stampUpdated]
    split_ifs
    · exact List.Subset.trans (Entries.names_subset_insert r f.name _) (ih _ _)
    · exact ih r drawn

namespace Progress

variable {supply : Supply} {p : Progress} {t : Table} {entries : Entries Json} {r : Record}

/-- A record that is filled holds all columns. -/
theorem Filling.complete {draft : Draft} (h : Filling supply p t entries draft (.ok r)) :
    t.model.Complete r := by
  obtain ⟨pairs, -, hfill⟩ := h.filled_eq
  intro f hf
  by_contra hnot
  have hlast := Draft.get?_fill_last f.name hfill
  rw [Entries.get?_eq_none_iff.mpr hnot] at hlast
  split at hlast
  · obtain ⟨_, _, _, -, hget⟩ := hlast
    cases hget
  · rename_i hnone
    simpa using List.find?_eq_none.mp hnone f (List.mem_reverse.mpr hf)

/-- A rewritten row keeps all its columns. -/
theorem Rewriting.complete {row : Row} {drawn : Nat}
    (h : Rewriting supply p t row entries drawn r) (hrow : t.model.Complete row.data) :
    t.model.Complete r := by
  obtain ⟨applied, happlied, hstamped⟩ := h.rewritten
  have hkept := names_subset_stampUpdated supply entries t.model.fields applied p.drawn
  rw [hstamped] at hkept
  exact fun f hf => hkept (Store.names_subset_applyData happlied (hrow f hf))

end Progress

namespace Store

variable {d : Document} {s : Store}

/-- Every stored record holds all columns of its model. -/
def Complete (s : Store) : Prop :=
  ∀ model t, s.tableOf model = .ok t → ∀ e ∈ t.rows, t.model.Complete e.2.data

/-- Creations give their records all columns, and updates lose none. -/
theorem recordInvariant_complete (d : Document) : RecordInvariant d Model.Complete where
  filled _ filling := filling.complete
  rewritten _ rewriting hrow := rewriting.complete hrow

/-- Every record of a reachable store holds all columns of its model. -/
theorem Reachable.complete (hd : d.WellFormed) (h : Reachable d s) : s.Complete :=
  h.allRecords hd (recordInvariant_complete d)

end Store

/-! ## Data that restates a record -/

namespace Model

variable {m : Model} {r : Record} {data : Entries Json} {column : String}

/-- The data gives columns of a model the values that a record holds, none of them an object. -/
def Restates (m : Model) (r : Record) (data : Entries Json) : Prop :=
  ∀ e ∈ data, (∃ f ∈ m.scalarFields, f.name = e.1) ∧ e.2 = Record.value r e.1 ∧
    e.2.isObject = false

/-- The fields have different names, and those that hold the time of the last update are columns
that are neither unique nor part of the key. -/
structure ClockApart (m : Model) : Prop where
  names_nodup : (m.fields.map (·.name)).Nodup
  scalar : ∀ f ∈ m.fields, f.isUpdatedAt = true → f.isRelation = false
  not_unique : ∀ f ∈ m.fields, f.isUpdatedAt = true → f.isUnique = false
  not_identifying : ∀ f ∈ m.fields, f.isUpdatedAt = true →
    f.name ∉ m.identifyingFields.map (·.name)

/-- Data that restates a record leaves it as it is. -/
theorem Restates.applyData_eq (h : m.Restates r data) (hn : (m.fields.map (·.name)).Nodup)
    (hr : m.Complete r) (s : Store) : s.applyData m data r = .ok r := by
  induction data with
  | nil => rfl
  | cons entry rest ih =>
    obtain ⟨⟨⟨f, hf, hname⟩, hvalue, hplain⟩, hrest⟩ := List.forall_mem_cons.mp h
    obtain ⟨hdeclared, hscalar⟩ := List.mem_filter.mp hf
    have hheld : Entries.get? r entry.1 = some entry.2 := by
      cases hget : Entries.get? r entry.1 with
      | none => exact absurd (hname ▸ hr f hf) (Entries.get?_eq_none_iff.mp hget)
      | some value => rw [hvalue, Record.value, hget, Option.getD_some]
    have hfound : m.field? entry.1 = some f := hname ▸ field?_eq_some_of_mem hn hdeclared
    have happlied : s.applyEntry m r entry = .ok r := by
      obtain ⟨name, value⟩ := entry
      rw [Store.applyEntry, hfound]
      dsimp only at hplain hheld ⊢
      rw [if_neg (by simpa using hscalar)]
      cases value with
      | obj entries => cases hplain
      | _ => exact congrArg Except.ok (Entries.insert_of_get? hheld)
    rw [Store.applyData_cons, happlied]
    exact ih hrest

/-- The clock writes no identifying column. -/
theorem ClockApart.not_clocked_of_identifying (h : m.ClockApart) {f : Field}
    (hf : f ∈ m.identifyingFields) : ¬ m.Clocked data f.name := by
  rintro ⟨-, g, hg, hupdated, hname⟩
  apply h.not_identifying g hg hupdated
  rw [hname]
  exact List.mem_map_of_mem hf

/-- The clock writes no column of a unique group. -/
theorem ClockApart.not_clocked_of_unique (h : m.ClockApart) {group : List String}
    (hgroup : m.UniqueGroup group) (hc : column ∈ group) : ¬ m.Clocked data column := by
  rintro ⟨-, g, hg, hupdated, hname⟩
  cases hgroup with
  | @column f declared unique scalar =>
    rw [List.mem_singleton] at hc
    obtain rfl : g = f := List.inj_on_of_nodup_map h.names_nodup hg declared (hname.trans hc)
    rcases unique with hid | hunique
    · exact h.not_identifying g hg hupdated (mem_identifyingFields_of_isId hg hid)
    · exact absurd hunique (by simp [h.not_unique g hg hupdated])
  | primaryKey declared =>
    have hfound : (m.field? column).isSome := by
      rw [← hname, field?_eq_some_of_mem h.names_nodup hg]
      rfl
    apply h.not_identifying g hg hupdated
    rw [hname]
    exact mem_identifyingFields_of_primaryKey declared hc hfound

end Model

/-! ## Storing a record that agrees with its row -/

namespace Table

variable {t t' : Table} {e : RowKey × Row} {r : Record}

/-- A record that has the key of the row that it is stored for takes the place of this row, and all
other rows stay. -/
theorem Sound.rows_of_store_same_key (h : t.Sound) (he : e ∈ t.rows)
    (hs : t.store r e.2.sequence (some e.1) = .ok t') (hkey : t.keyFor r e.2.sequence = e.1) :
    ∃ before after, t.rows = before ++ e :: after ∧
      t'.rows = before ++ (e.1, ⟨e.2.sequence, r⟩) :: after := by
  obtain ⟨before, after, hrows, hreplaced⟩ := h.replaces_of_store he hs
  refine ⟨before, after, hrows, ?_⟩
  have hnodup := h.keys_nodup
  rw [hrows, List.map_append, List.map_cons, List.nodup_middle, List.nodup_cons] at hnodup
  have hstay : ∀ part : List (RowKey × Row), e.1 ∉ part.map (·.1) →
      part.filter (·.1 ≠ e.1) = part := by
    intro part hnot
    rw [List.filter_eq_self]
    intro x hx
    rw [decide_eq_true_iff]
    rintro heq
    exact hnot (List.mem_map.mpr ⟨x, hx, heq⟩)
  obtain ⟨hbefore, hafter⟩ := not_or.mp (fun hmem => hnodup.1 (List.mem_append.mpr hmem))
  rw [hreplaced, hkey, hstay before hbefore, hstay after hafter]

end Table

namespace Store

variable {d : Document} {s : Store} {t : Table} {supply : Supply} {args : Json}
  {data : Entries Json} {e : RowKey × Row} {r : Record}

/-- A record that agrees with its row has the same values in the columns of a unique group and in
the key. -/
theorem Agree.value_eq {m : Model} {column : String} {r' : Record} (h : Agree m data r r')
    (hc : ¬ m.Clocked data column) : Record.value r column = Record.value r' column := by
  rw [Record.value, h column hc, Record.value]

/-- A record that agrees with its row, but for the clock, clashes with no other row. -/
theorem clashingGroup?_of_agree (hunique : t.Unique) (hm : t.model.ClockApart) (he : e ∈ t.rows)
    (hr : Agree t.model data r e.2.data) : t.clashingGroup? r (some e.1) = none := by
  rw [Table.clashingGroup?_eq_none_iff]
  intro x hx hother group hgroup hclash
  have hne : e ≠ x := by
    rintro rfl
    exact hother rfl
  have hold : Record.Clashes group e.2.data x.2.data := by
    intro column hc
    rw [← hr.value_eq (hm.not_clocked_of_unique hgroup hc)]
    exact hclash column hc
  exact (hunique.separates he hx hne group hgroup).1 hold

/-- A record that agrees with its row, but for the clock, has the key of the row. -/
theorem keyFor_of_agree (ht : t.Sound) (hm : t.model.ClockApart) (he : e ∈ t.rows)
    (hr : Agree t.model data r e.2.data) : t.keyFor r e.2.sequence = e.1 := by
  rw [ht.keyed e he, Table.keyFor_eq_iff]
  split_ifs
  · rfl
  · exact List.map_congr_left fun f hf => hr.value_eq (hm.not_clocked_of_identifying hf)

/-- All that changes when the values of a row are written back: columns of the row that the clock
writes. -/
structure OnlyStamps (s s' : Store) (t : Table) (e : RowKey × Row) (data : Entries Json)
    (r : Record) : Prop where
  table : ∃ before after, t.rows = before ++ e :: after ∧ s'.tableOf t.model.name =
    .ok { t with rows := before ++ (e.1, ⟨e.2.sequence, r⟩) :: after }
  names : Entries.names r = Entries.names e.2.data
  columns : ∀ column, ¬ t.model.Clocked data column →
    Entries.get? r column = Entries.get? e.2.data column
  others : ∀ model, model ≠ t.model.name → s'.tableOf model = s.tableOf model

/-- An update whose data restates the row that it finds stores what the clock has made of it. -/
theorem Sound.exists_stamped (hs : s.Sound d) (hunique : s.Unique) (hcomplete : s.Complete)
    (supply : Supply) (found : s.tableOf t.model.name = .ok t) (hm : t.model.ClockApart)
    (hrow : t.findRow (args.get? "where") = .ok (some e))
    (hdata : argument args "data" = .obj data) (hrestates : t.model.Restates e.2.data data) :
    ∃ r, (s.updateFirst supply t args).2 = .ok r ∧
      s.OnlyStamps (s.updateFirst supply t args).1.store t e data r := by
  obtain ⟨key, row⟩ := e
  have he := mem_of_findRow hrow
  have hheld := hcomplete _ t found _ he
  have htable := hs.table _ t found
  let r := (stampUpdated supply data t.model.fields row.data 0).2
  have hagree : Agree t.model data r row.data := agree_stampUpdated supply 0
  have hw : s.Writes supply t args .update (some row) r :=
    (writes_update_iff found hrow hdata).mpr
      ⟨row.data, hrestates.applyData_eq hm.names_nodup hheld s, rfl,
        clashingGroup?_of_agree (hunique _ t found) hm he hagree⟩
  obtain ⟨key', hrow', hr, -⟩ := hw.exists_update
  cases hrow.symm.trans hrow'
  obtain ⟨t', _, _, -, -, hstored, hstore⟩ := Progress.exists_stored_of_update found hr
  obtain ⟨before, after, hrows, hrows'⟩ :=
    htable.rows_of_store_same_key he hstored (keyFor_of_agree htable hm he hagree)
  obtain ⟨hmodel, hcounter, hnext⟩ := Table.store_frame hstored
  have ht' : t' = { t with rows := before ++ (key, ⟨row.sequence, r⟩) :: after } := by
    rw [← hrows', ← hmodel, ← hcounter, ← hnext]
  have hupdate : s.updateFirst supply t args =
      Progress.update supply ⟨s, 0⟩ t.model.name key row (argument args "data") := by
    rw [updateFirst, hrow]
  have hstamped : ∀ f ∈ t.model.fields, f.isUpdatedAt = true → f.name ∈ Entries.names row.data :=
    fun f hf hupdated => hheld f (List.mem_filter.mpr ⟨hf, by simp [hm.scalar f hf hupdated]⟩)
  refine ⟨r, by rw [hupdate]; exact hr, ?_⟩
  rw [hupdate, show (Progress.update supply ⟨s, 0⟩ t.model.name key row
    (argument args "data")).1.store = s.setTable t' from hstore]
  refine ⟨⟨before, after, hrows, ?_⟩, names_stampUpdated supply data hstamped 0, hagree, ?_⟩
  · rw [← ht', hs.named.tableOf_setTable_self found hmodel]
  · intro model hne
    rw [tableOf_setTable, hmodel, if_neg hne]

/-- Writing values of a row back succeeds: an update of the row that `where` finds whose data gives
columns the values that the row holds, and none of them an object, answers with the row in the shape
that is asked for, and leaves all rows as they are but for the columns that the clock writes in this
one. -/
theorem Reachable.update_restating (hd : d.WellFormed) (h : Reachable d s) {delegate : String}
    (ht : s.tableFor delegate = .ok t) (hm : t.model.ClockApart)
    (hrow : t.findRow (args.get? "where") = .ok (some e))
    (hdata : argument args "data" = .obj data) (hrestates : t.model.Restates e.2.data data) :
    ∃ r, s.OnlyStamps (s.execute supply delegate .update args).1 t e data r ∧
      (s.execute supply delegate .update args).2 =
        renderOne t args (s.execute supply delegate .update args).1 r ∧
      (args.get? "select" = none → args.get? "include" = none →
        (s.execute supply delegate .update args).2 = .ok (.obj (t.columns r))) := by
  have hs := h.sound hd
  have found := hs.named.tableOf_of_tableFor ht
  obtain ⟨r, hr, hstamps⟩ :=
    hs.exists_stamped (h.unique hd) (h.complete hd) supply found hm hrow hdata hrestates
  obtain ⟨before, after, -, htable⟩ := hstamps.table
  rw [execute_of_tableFor ht]
  have hanswer : (s.executeOn supply t .update args).2 =
      renderOne t args (s.executeOn supply t .update args).1 r := by
    rw [executeOn, answerWith_store]
    rcases hupdate : s.updateFirst supply t args with ⟨q, fault | r'⟩
    · rw [hupdate] at hr
      cases hr
    · rw [hupdate] at hr
      cases hr
      rfl
  have hstore : (s.executeOn supply t .update args).1 = (s.updateFirst supply t args).1.store := by
    rw [executeOn, answerWith_store]
  refine ⟨r, hstore ▸ hstamps, hanswer, fun hselect hinclude => ?_⟩
  rw [hanswer, renderOne, project_whole _ _ _ hselect hinclude, hstore, current,
    tableOf_eq_ok_iff.mp htable]
  rfl

/-- The number of a shift is written back: the update succeeds, and the clock writes the hour of the
shift. -/
theorem shift_update_restating :
    let s := Shifts.plan
    let t := s.current (Table.empty Shifts.model)
    let data : Entries Json := [("id", .ofNat 1)]
    let args := Json.obj [("where", .obj [("id", .ofNat 1)]), ("data", .obj data)]
    let e : RowKey × Row := (.values [.ofNat 1], ⟨1, Shifts.early 1⟩)
    let outcome := s.execute Shifts.noon "shift" .update args
    Shifts.document.WellFormed ∧ Reachable Shifts.document s ∧ s.tableFor "shift" = .ok t ∧
      t.model.ClockApart ∧ t.findRow (args.get? "where") = .ok (some e) ∧
      argument args "data" = .obj data ∧ t.model.Restates e.2.data data ∧
      outcome.2 = .ok (.obj (Shifts.late 1)) ∧
      ∃ r, s.OnlyStamps outcome.1 t e data r ∧ outcome.2 = renderOne t args outcome.1 r ∧
        (args.get? "select" = none → args.get? "include" = none →
          outcome.2 = .ok (.obj (t.columns r))) := by
  intro s t data args e outcome
  have ht : s.tableFor "shift" = .ok t := rfl
  have hm : t.model.ClockApart := by constructor <;> decide
  have hrow : t.findRow (args.get? "where") = .ok (some e) := rfl
  have hrestates : t.model.Restates e.2.data data := by
    intro entry hentry
    obtain rfl := List.mem_singleton.mp hentry
    exact ⟨⟨_, List.mem_cons_self, rfl⟩, rfl, rfl⟩
  have hanswer : outcome.2 = .ok (.obj (Shifts.late 1)) := by decide +kernel
  exact ⟨Shifts.document_wellFormed, Shifts.reachable_plan, ht, hm, hrow, rfl, hrestates, hanswer,
    Shifts.reachable_plan.update_restating Shifts.document_wellFormed ht hm hrow rfl hrestates⟩

end Store

end ModelGateway
