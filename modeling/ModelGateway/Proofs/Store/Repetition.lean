import ModelGateway.Proofs.Store.Address
import ModelGateway.Proofs.Store.Clash
import ModelGateway.Proofs.Store.Counts
import ModelGateway.Proofs.Store.Creation
import ModelGateway.Proofs.Store.Delegate
import ModelGateway.Proofs.Store.Demand

/-!
# Creating the same records again

A creation of several records that skips duplicates creates nothing if it is repeated: each of its
records was created or has clashed with a row, and clashes the second time. But before a record
clashes its columns are filled, and so the repetition draws as many numbers as the call itself. If
the counter does not have them any more, the program panics.

* **Filling** (`Draft.exists_fill`, `Draft.get?_fill_given`): whether the columns of a record can be
  filled, short of a panic, and what is stored in those that the data gives, depends on neither the
  counter nor the supply.
* **Rows** (`Store.Retains`): in such a call no row vanishes, so that every connection that was made
  can be made again.
* **Records** (`Store.Taken`): the place of each record of the call is taken after it, and a record
  whose place is taken is not created.
* **Numbers** (`Sound.createEach_of_taken`): the repetition asks the same of the counter as the
  call, up to a panic.

The result is `Store.Reachable.createMany_repeated_iff`. A call whose repetition panics is
`Store.plans_createMany_panics`.
-/

namespace ModelGateway

/-! ## Filling a record again -/

namespace Draft

variable {supply : Supply} {data connected : Entries Json} {f : Field} {d d' : Draft}
  {r r' : Record} {value : Json} {fields : List Field}

/-- A column that is not given is missing if it has no default, and is required and no list. -/
theorem absentValue_columnMissing_iff (d : Draft) :
    (d.absentValue supply f).2 = .error (.columnMissing f.name) ↔
      (¬ f.Generated ∧ ∀ value, f.default = some value → value.isObject = true) ∧
        f.isList = false ∧ f.isRequired = true := by
  have hnone : (d.defaultValue supply f).2 = .ok none ↔ _ := defaultValue_eq_none_iff d
  rw [← hnone]
  unfold absentValue
  rcases hdefault : d.defaultValue supply f with ⟨d₁, fault | _ | default⟩
  · rw [(defaultValue_eq_error hdefault).1]
    exact iff_of_false nofun nofun
  · cases f.isList <;> cases f.isRequired <;> simp
  · exact iff_of_false nofun nofun

/-- A column that has a value has one whatever the supply and the draft, short of a panic. -/
theorem exists_column (h : column supply data connected f d = (d', .ok value)) {supply₁ : Supply}
    {d₁ : Draft} (hd₁ : (column supply₁ data connected f d₁).2 ≠ .error .counterOverflow) :
    ∃ d₂ value₂, column supply₁ data connected f d₁ = (d₂, .ok value₂) := by
  unfold column at h hd₁ ⊢
  cases hgiven : given? data connected f with
  | some given => exact ⟨_, _, rfl⟩
  | none =>
    rw [hgiven] at h hd₁
    rcases habsent : d₁.absentValue supply₁ f with ⟨d₂, fault | value₂⟩
    · rcases absentValue_eq_error habsent with rfl | rfl
      · exact absurd (congrArg Prod.snd habsent) hd₁
      · -- then the value would have been missing before
        have hmissing : (d.absentValue supply f).2 = .error (.columnMissing f.name) :=
          (absentValue_columnMissing_iff d).mpr
            ((absentValue_columnMissing_iff d₁).mp (congrArg Prod.snd habsent))
        cases (congrArg Prod.snd h).symm.trans hmissing
    · exact ⟨d₂, value₂, rfl⟩

/-- A record that can be filled can be filled whatever the supply and the draft, short of a
panic. -/
theorem exists_fill (h : fill supply data connected fields r d = (d', .ok r')) {supply₁ : Supply}
    {r₁ : Record} {d₁ : Draft}
    (hd₁ : (fill supply₁ data connected fields r₁ d₁).2 ≠ .error .counterOverflow) :
    ∃ d₂ r₂, fill supply₁ data connected fields r₁ d₁ = (d₂, .ok r₂) := by
  induction fields generalizing r d r₁ d₁ with
  | nil => exact ⟨d₁, r₁, rfl⟩
  | cons f rest ih =>
    rw [fill_cons] at h hd₁ ⊢
    rcases hcolumn : column supply data connected f d with ⟨d₀, fault | value⟩
    · rw [hcolumn] at h
      cases h
    · rw [hcolumn] at h
      have hpanic : (column supply₁ data connected f d₁).2 ≠ .error .counterOverflow := by
        rcases hcolumn₁ : column supply₁ data connected f d₁ with ⟨d₂, fault | value₂⟩
        · rw [hcolumn₁] at hd₁
          simpa using hd₁
        · exact nofun
      obtain ⟨d₂, value₂, hcolumn₂⟩ := exists_column hcolumn hpanic
      rw [hcolumn₂] at hd₁ ⊢
      exact ih h hd₁

end Draft

/-! ## Data with a key -/

/-- The fields of a model have different names, and it has a key of declared columns. -/
structure Model.HasKey (m : Model) : Prop where
  names_nodup : (m.fields.map (·.name)).Nodup
  identified : m.identifyingFields ≠ []
  columns : ∀ f ∈ m.identifyingFields, f.isRelation = false
  declared : ∀ column ∈ m.primaryKeyNames, (m.field? column).isSome

/-- The data of a creation gives a value for every id or unique column and every column of the
primary key, and one that is not null, nor sets a list to null, for those that identify a record. -/
structure Model.GivesKey (m : Model) (data : Json) : Prop where
  unique : ∀ group, m.UniqueGroup group → ∀ column ∈ group, (data.get? column).isSome
  identifying : ∀ f ∈ m.identifyingFields, ∀ value, data.get? f.name = some value →
    f.taken value ≠ .null

namespace Model

variable {m : Model} {column : String} {group : List String}

/-- The name of an identifying field is that of a column of a unique group. -/
theorem HasKey.exists_group (h : m.HasKey) {f : Field} (hf : f ∈ m.identifyingFields) :
    ∃ group, m.UniqueGroup group ∧ f.name ∈ group := by
  rcases List.mem_append.mp (mem_of_mem_firstOfEachName hf) with hkey | hid
  · obtain ⟨column, hc, hfound⟩ := List.mem_filterMap.mp hkey
    have hname : f.name = column := name_of_field? hfound
    cases hprimary : m.primaryKey with
    | none => simp [primaryKeyNames, hprimary] at hc
    | some key =>
      refine ⟨key.fields, .primaryKey hprimary, ?_⟩
      rwa [hname, ← show m.primaryKeyNames = key.fields by rw [primaryKeyNames, hprimary]]
  · obtain ⟨declared, hid⟩ := List.mem_filter.mp hid
    exact ⟨[f.name], .column declared (.inl hid) (h.columns f hf), List.mem_singleton_self _⟩

/-- The columns of a unique group are declared columns. -/
theorem HasKey.exists_scalar (h : m.HasKey) (hgroup : m.UniqueGroup group) (hc : column ∈ group) :
    ∃ f ∈ m.scalarFields, f.name = column := by
  cases hgroup with
  | @column f declared unique scalar =>
    exact ⟨f, List.mem_filter.mpr ⟨declared, by simp [scalar]⟩, (List.mem_singleton.mp hc).symm⟩
  | @primaryKey key declared =>
    have hfound := h.declared column (by rwa [primaryKeyNames, declared])
    obtain ⟨f, hf, hname⟩ :=
      List.mem_map.mp (mem_identifyingFields_of_primaryKey declared hc hfound)
    refine ⟨f, List.mem_filter.mpr ⟨mem_fields_of_mem_identifyingFields hf, ?_⟩, hname⟩
    simp [h.columns f hf]

end Model

namespace Progress

variable {supply supply' : Supply} {p q : Progress} {t t' : Table} {entries : Entries Json}
  {r : Record} {draft : Draft}

/-- A creation stores what its data gives. -/
theorem Filling.get?_of_given (h : Filling supply p t entries draft (.ok r)) (hm : t.model.HasKey)
    {f : Field} (hf : f ∈ t.model.scalarFields) {value : Json}
    (hgiven : Entries.get? entries f.name = some value) :
    Entries.get? r f.name = some (f.taken value) := by
  obtain ⟨pairs, -, hfill⟩ := h.filled_eq
  have hnodup : (t.model.scalarFields.map (·.name)).Nodup :=
    hm.names_nodup.sublist (List.filter_sublist.map _)
  apply Draft.get?_fill_given hfill hnodup hf
  rw [Draft.given?, hgiven]

/-- A record that is filled from data with a key is identified. -/
theorem Filling.identified (h : Filling supply p t entries draft (.ok r)) (hm : t.model.HasKey)
    (hgives : t.model.GivesKey (.obj entries)) : t.model.Identified r := by
  apply Model.identified_of_given hm.identified hm.declared hm.columns
  intro f hf
  obtain ⟨group, hgroup, hc⟩ := hm.exists_group hf
  obtain ⟨value, hvalue⟩ := Option.isSome_iff_exists.mp (hgives.unique group hgroup f.name hc)
  have hscalar : f ∈ t.model.scalarFields :=
    List.mem_filter.mpr ⟨Model.mem_fields_of_mem_identifyingFields hf, by simp [hm.columns f hf]⟩
  rw [Record.value, h.get?_of_given hm hscalar hvalue, Option.getD_some]
  exact hgives.identifying f hf value hvalue

end Progress

/-! ## Stores that retain rows -/

namespace Store

variable {d : Document} {s s₁ s' : Store}

/-- Every table of a store has a later state in another, which has all its rows. -/
def Retains (s s' : Store) : Prop :=
  s.Later s' ∧ ∀ model, s.rowsOf model ⊆ s'.rowsOf model

/-- A store retains its own rows. -/
theorem Retains.refl (s : Store) : s.Retains s :=
  ⟨.refl s, fun _ => List.Subset.refl _⟩

/-- Rows are retained one step after the other. -/
theorem Retains.trans (h : s.Retains s₁) (h' : s₁.Retains s') : s.Retains s' := by
  refine ⟨fun model t ht => ?_, fun model => List.Subset.trans (h.2 model) (h'.2 model)⟩
  obtain ⟨t₁, ht₁, hm₁, hn₁⟩ := h.1 model t ht
  obtain ⟨t', ht', hm', hn'⟩ := h'.1 model t₁ ht₁
  exact ⟨t', ht', hm'.trans hm₁, Nat.le_trans hn₁ hn'⟩

/-- A table is retained with its model and its rows. -/
theorem Retains.exists_table (h : s.Retains s') {model : String} {t : Table}
    (ht : s.tableOf model = .ok t) :
    ∃ t', s'.tableOf model = .ok t' ∧ t'.model = t.model ∧ t.rows ⊆ t'.rows := by
  obtain ⟨t', ht', hm, -⟩ := h.1 model t ht
  have hrows := h.2 model
  rw [rowsOf_of_tableOf ht, rowsOf_of_tableOf ht'] at hrows
  exact ⟨t', ht', hm, hrows⟩

/-- A relation argument that sets a foreign key sets the same one where rows are retained. -/
theorem Retains.foreignKey (h : s.Retains s') {field : Field} {argument : Json}
    {columns : List (String × Json)} (hk : s.foreignKey field argument = .ok columns) :
    s'.foreignKey field argument = .ok columns := by
  cases argument with
  | obj ops =>
    rw [Store.foreignKey] at hk ⊢
    by_cases hside : field.fromFields.isEmpty
    · rw [if_pos hside] at hk
      cases hk
    rw [if_neg hside] at hk ⊢
    cases hconnect : Entries.get? ops "connect" with
    | none =>
      rw [hconnect] at hk
      exact hk
    | some target =>
      rw [hconnect] at hk
      obtain ⟨t, ht, hk⟩ := Except.bind_eq_ok_iff.mp hk
      obtain ⟨values, hvalues, hk⟩ := Except.bind_eq_ok_iff.mp hk
      obtain ⟨t', ht', -, hrows⟩ := h.exists_table ht
      -- the record that the connection found is still there
      have hrecords : t.records ⊆ t'.records := List.map_subset _ hrows
      refine Except.bind_eq_ok_iff.mpr ⟨t', ht', Except.bind_eq_ok_iff.mpr ⟨values, hvalues, ?_⟩⟩
      dsimp only at hk ⊢
      split at hk
      · rename_i hexists
        obtain ⟨r, hr, hmatches⟩ := List.any_eq_true.mp hexists
        rwa [if_pos (List.any_eq_true.mpr ⟨r, hrecords hr, hmatches⟩)]
      · cases hk
  | _ => cases hk

/-- The relation arguments of a creation set the same foreign keys where rows are retained. -/
theorem Retains.foreignKeys (h : s.Retains s') {data : Entries Json} {fields : List Field}
    {pairs : Entries Json} (hk : s.foreignKeys data fields = .ok pairs) :
    s'.foreignKeys data fields = .ok pairs := by
  induction fields generalizing pairs with
  | nil => exact hk
  | cons f rest ih =>
    rw [Store.foreignKeys] at hk ⊢
    cases hargument : data.get? f.name with
    | none =>
      rw [hargument] at hk
      exact ih hk
    | some argument =>
      rw [hargument] at hk
      obtain ⟨columns, hcolumns, hk⟩ := Except.bind_eq_ok_iff.mp hk
      obtain ⟨others, hothers, hk⟩ := Except.bind_eq_ok_iff.mp hk
      exact Except.bind_eq_ok_iff.mpr ⟨columns, h.foreignKey hcolumns,
        Except.bind_eq_ok_iff.mpr ⟨others, ih hothers, hk⟩⟩

end Store

/-! ## Places that are taken -/

/-- A record of a model has no place left: it was filled where the store had no other rows than now,
and clashes with a row that the store has now. -/
inductive Store.Taken (s : Store) (model : String) : Json → Prop
  | intro {supply : Supply} {p : Progress} {t t' : Table} {entries : Entries Json} {draft : Draft}
      {r : Record} {group : List String} {e : RowKey × Row}
      (filling : Progress.Filling supply p t entries draft (.ok r)) (retains : p.store.Retains s)
      (before : p.store.tableOf model = .ok t) (found : s.tableOf model = .ok t')
      (model_eq : t'.model = t.model) (unique : t.model.UniqueGroup group) (row : e ∈ t'.rows)
      (clash : Record.Clashes group r e.2.data) : Taken s model (.obj entries)

namespace Progress

variable {supply : Supply} {p q : Progress} {t t' : Table} {entries : Entries Json} {r r' : Record}
  {draft draft' : Draft} {group : List String}

/-- A record that can be filled can be filled again where rows are retained, short of a panic. -/
theorem Filling.exists_again (h : Filling supply p t entries draft (.ok r))
    (hr : p.store.Retains q.store) (hm : t'.model = t.model) (supply' : Supply) :
    (∃ draft' r', Filling supply' q t' entries draft' (.ok r')) ∨
      ∃ draft', Filling supply' q t' entries draft' (.error .counterOverflow) := by
  obtain ⟨pairs, hpairs, hfill⟩ := h.filled_eq
  have hagain : ∀ draft' filled, Draft.fill supply' entries (Entries.ofList pairs)
      t'.model.scalarFields [] ⟨t'.counter, q.drawn⟩ = (draft', filled) →
      Filling supply' q t' entries draft' filled := by
    intro draft' filled hfilled
    refine ⟨?_, pairs, ?_, hfilled⟩
    · rw [hm]
      exact h.known
    · rw [hm]
      exact hr.foreignKeys hpairs
  by_cases hpanic : (Draft.fill supply' entries (Entries.ofList pairs) t'.model.scalarFields []
      ⟨t'.counter, q.drawn⟩).2 = .error .counterOverflow
  · exact .inr ⟨_, hagain _ _ (Prod.ext rfl hpanic)⟩
  · rw [hm] at hpanic
    obtain ⟨draft', r', hfilled⟩ := Draft.exists_fill hfill hpanic
    exact .inl ⟨draft', r', hagain draft' (.ok r') (by rw [hm]; exact hfilled)⟩

/-- Two records that are filled from the same data with a key have the same values in the columns of
a unique group. -/
theorem Filling.value_eq (h : Filling supply p t entries draft (.ok r)) {supply' : Supply}
    (h' : Filling supply' q t' entries draft' (.ok r')) (hm' : t'.model = t.model)
    (hm : t.model.HasKey) (hgives : t.model.GivesKey (.obj entries))
    (hgroup : t.model.UniqueGroup group) {column : String} (hc : column ∈ group) :
    Record.value r' column = Record.value r column := by
  obtain ⟨f, hf, rfl⟩ := hm.exists_scalar hgroup hc
  obtain ⟨value, hvalue⟩ := Option.isSome_iff_exists.mp (hgives.unique group hgroup f.name hc)
  have hstored := h.get?_of_given hm hf hvalue
  rw [← hm'] at hm hf
  rw [Record.value, Record.value, hstored, h'.get?_of_given hm hf hvalue]

/-- A record that clashes with a row is not created when it is filled again from data with a key: it
clashes again. -/
theorem Filling.exists_notUnique (h : Filling supply p t entries draft (.ok r)) {supply' : Supply}
    (hagain : Filling supply' q t' entries draft' (.ok r')) (hm' : t'.model = t.model)
    (hm : t.model.HasKey) (hgives : t.model.GivesKey (.obj entries)) {model : String}
    (found : q.store.tableOf model = .ok t') (hgroup : t.model.UniqueGroup group)
    {e : RowKey × Row} (he : e ∈ t'.rows) (hclash : Record.Clashes group r e.2.data) :
    ∃ group', (q.create supply' model (.obj entries)).2 = .error (.notUnique group') := by
  have hclash' : Record.Clashes group r' e.2.data := by
    intro column hc
    rw [h.value_eq hagain hm' hm hgives hgroup hc]
    exact hclash column hc
  have hstore := Table.exists_notUnique_of_clashes (t := { t' with
    counter := draft'.counter, nextSequence := t'.nextSequence + 1 }) he
      (show t'.model.UniqueGroup group from hm' ▸ hgroup) hclash' t'.nextSequence
  obtain ⟨group', hstore⟩ := hstore
  exact ⟨group', hagain.create_eq_error found hstore⟩

/-- A creation that fills its record asks of the counter what it would ask where rows are
retained. -/
theorem Filling.request_eq {model : String} {s : Store}
    (h : Filling supply p t entries draft (.ok r)) (found : p.store.tableOf model = .ok t)
    (hr : p.store.Retains s) :
    (p.log supply model (.obj entries)).map CounterEvent.request =
      s.demand model (.obj entries) := by
  obtain ⟨pairs, hpairs, -⟩ := h.filled_eq
  obtain ⟨t', found', hm', -⟩ := hr.exists_table found
  rw [request_of_filling found h]
  simp only [Store.demand, found, found', hm', hpairs, hr.foreignKeys hpairs]

/-! ### Creating a record -/

variable {d : Document} {model : String} {item : Json}

/-- The place of a record that has clashed is taken where rows are retained. -/
theorem taken_of_notUnique (found : p.store.tableOf model = .ok t)
    (h : (p.create supply model item).2 = .error (.notUnique group)) {s : Store}
    (hr : p.store.Retains s) : s.Taken model item := by
  cases item with
  | obj entries =>
    obtain ⟨draft, r, hfilling, hgroup, e, he, hclash⟩ := exists_filling_of_notUnique found h
    obtain ⟨t', found', hm', hrows⟩ := hr.exists_table found
    exact .intro hfilling hr found found' hm' hgroup (hrows he) hclash
  | _ =>
    rw [create, found] at h
    cases h

/-- A record that has clashed asked of the counter what it would ask where rows are retained. -/
theorem request_of_notUnique (found : p.store.tableOf model = .ok t)
    (h : (p.create supply model item).2 = .error (.notUnique group)) {s : Store}
    (hr : p.store.Retains s) :
    (p.log supply model item).map CounterEvent.request = s.demand model item := by
  cases item with
  | obj entries =>
    obtain ⟨draft, r, hfilling, -⟩ := exists_filling_of_notUnique found h
    exact hfilling.request_eq found hr
  | _ =>
    rw [create, found] at h
    cases h

/-- A record that has been created asked of the counter what it would ask where rows are
retained. -/
theorem request_of_created (found : p.store.tableOf model = .ok t)
    (h : (p.create supply model item).2 = .ok r) {s : Store} (hr : p.store.Retains s) :
    (p.log supply model item).map CounterEvent.request = s.demand model item := by
  obtain ⟨-, entries, draft, rfl, hfilling, -, -⟩ := exists_stored_of_create found h
  exact hfilling.request_eq found hr

/-- Creating a record retains all rows, if its data has a key. -/
theorem retains_create (hd : d.WellFormed) (supply : Supply) (hs : p.store.Sound d)
    (found : p.store.tableOf model = .ok t) (hitem : item.WellFormed) (hm : t.model.HasKey)
    (hgives : t.model.GivesKey item) :
    p.store.Retains (p.create supply model item).1.store := by
  refine ⟨(hs.create hd supply model (.refl _) hitem).2, ?_⟩
  intro name
  cases houtcome : (p.create supply model item).2 with
  | error fault =>
    rw [create_error_rows hs.named houtcome name]
    exact List.Subset.refl _
  | ok r =>
    have hgrown := Store.create_growth hd supply hs found hitem
    rw [houtcome] at hgrown
    obtain ⟨u, t', hu, ht', hgrowth, hothers⟩ := hgrown
    obtain rfl : u = t := Except.ok.inj (hu.symm.trans found)
    by_cases hname : name = model
    · subst hname
      obtain ⟨-, entries, draft, rfl, hfilling, -, -⟩ := exists_stored_of_create found houtcome
      have hfresh := hgrowth.fresh_of_identified
        (List.forall_mem_singleton.mpr (hfilling.identified hm hgives))
      obtain ⟨added, -, hperm⟩ := hgrowth.rows_perm hfresh
      rw [Store.rowsOf_of_tableOf hu, Store.rowsOf_of_tableOf ht']
      exact fun e he => hperm.mem_iff.mpr (List.mem_append_right _ he)
    · rw [hothers name hname]
      exact List.Subset.refl _

/-- The place of a record that has been created is taken. -/
theorem taken_of_created (hd : d.WellFormed) (hs : p.store.Sound d)
    (found : p.store.tableOf model = .ok t) (hitem : item.WellFormed) (hm : t.model.HasKey)
    (hgives : t.model.GivesKey item) (h : (p.create supply model item).2 = .ok r) :
    (p.create supply model item).1.store.Taken model item := by
  have hretains := retains_create hd supply hs found hitem hm hgives
  have hgrown := Store.create_growth hd supply hs found hitem
  rw [h] at hgrown
  obtain ⟨u, t', hu, found', hgrowth, -⟩ := hgrown
  obtain rfl : u = t := Except.ok.inj (hu.symm.trans found)
  obtain ⟨-, entries, draft, rfl, hfilling, -, -⟩ := exists_stored_of_create found h
  have hidentified := hfilling.identified hm hgives
  have hr : Record.WellFormed r := hfilling.wellFormed (hd _ (hs.declared model u found))
    (Json.wellFormed_obj.mp hitem).2
  -- the record is among the rows, and clashes with itself
  obtain ⟨added, hadded, hperm⟩ :=
    hgrowth.rows_perm (hgrowth.fresh_of_identified (List.forall_mem_singleton.mpr hidentified))
  have hmem : r ∈ added.map (·.2.data) := by
    rw [hadded]
    exact List.mem_singleton_self r
  obtain ⟨e, he, rfl⟩ := List.mem_map.mp hmem
  obtain ⟨group, hgroup, hclash⟩ := hidentified.exists_clashes hr rfl
  exact .intro hfilling hretains found found' hgrowth.model_eq hgroup
    (hperm.mem_iff.mpr (List.mem_append_left _ he)) hclash

end Progress

/-! ## Creating several records -/

namespace Store

variable {d : Document} {s s' : Store} {p : Progress} {t : Table} {model : String} {item : Json}

/-- A place that is taken stays taken where rows are retained. -/
theorem Taken.retain (h : s.Taken model item) (hr : s.Retains s') : s'.Taken model item := by
  cases h with
  | intro filling retains before found model_eq unique row clash =>
    obtain ⟨u, hu, hmu, hrows⟩ := hr.exists_table found
    exact .intro filling (retains.trans hr) before hu (hmu.trans model_eq) unique (hrows row) clash

/-- A record whose place is taken asks the same of the counter where rows are retained. -/
theorem Taken.demand_eq (h : s.Taken model item) (hr : s.Retains s') :
    s'.demand model item = s.demand model item := by
  cases h with
  | intro filling retains before _ _ _ _ _ =>
    rw [← filling.request_eq before (retains.trans hr), filling.request_eq before retains]

/-- A record whose place is taken clashes, unless the program panics. -/
theorem Taken.create (h : p.store.Taken model item) (found : p.store.tableOf model = .ok t)
    (hm : t.model.HasKey) (hgives : t.model.GivesKey item) (supply : Supply) :
    (∃ group, (p.create supply model item).2 = .error (.notUnique group)) ∨
      (p.create supply model item).2 = .error .counterOverflow := by
  cases h with
  | @intro supply₀ p₀ t₀ t' entries draft r group e filling retains _ found' model_eq unique row
      clash =>
    obtain rfl : t = t' := Except.ok.inj (found.symm.trans found')
    rcases filling.exists_again retains model_eq supply with ⟨draft', r', hagain⟩ | ⟨draft', hpanic⟩
    · exact .inl (filling.exists_notUnique hagain model_eq (model_eq ▸ hm) (model_eq ▸ hgives)
        found unique row clash)
    · exact .inr (hpanic.create_fault found)

/-- What creations of records of a model one after another ask of its counter. -/
def requests (supply : Supply) (model : String) (items : List Json) (p : Progress) :
    List (Option Int) :=
  ((p.eachCreation supply true model items).flatMap (·.log supply model)).map CounterEvent.request

/-- What the first creation asks comes first. -/
theorem requests_cons (supply : Supply) (model : String) (item : Json) (rest : List Json)
    (p : Progress) :
    requests supply model (item :: rest) p =
      (p.log supply model item).map CounterEvent.request ++
        match p.create supply model item with
        | (p, .ok _) => requests supply model rest p
        | (p, .error fault) =>
          if fault.kind == .uniqueConstraint then requests supply model rest p else [] := by
  unfold requests
  rw [Progress.eachCreation, List.flatMap_cons, List.map_append, Creation.log, if_pos rfl]
  rcases p.create supply model item with ⟨p₁, fault | r⟩
  · dsimp only
    rw [Bool.true_and]
    split_ifs <;> rfl
  · rfl

/-- Creating records that skips those that clash retains all rows. The place of each record is taken
then, and what was asked of the counter is what the records would ask then. -/
theorem Sound.retains_createEach (hd : d.WellFormed) {supply : Supply} :
    {items : List Json} → (∀ item ∈ items, item.WellFormed) → {p q : Progress} → p.store.Sound d →
    {t : Table} → p.store.tableOf model = .ok t → t.model.HasKey →
    (∀ item ∈ items, t.model.GivesKey item) → {created : List Record} →
    Progress.createEach supply true model items p = (q, .ok created) →
    p.store.Retains q.store ∧ (∀ item ∈ items, q.store.Taken model item) ∧
      requests supply model items p = items.flatMap (q.store.demand model)
  | [], _, p, q, _, _, _, _, _, _, h => by
    cases h
    exact ⟨.refl _, fun _ hmem => absurd hmem List.not_mem_nil, rfl⟩
  | item :: rest, hitems, p, q, hs, t, found, hm, hgives, created, h => by
    obtain ⟨hitem, hrest⟩ := List.forall_mem_cons.mp hitems
    obtain ⟨hgive, hgives⟩ := List.forall_mem_cons.mp hgives
    have hretains := Progress.retains_create hd supply hs found hitem hm hgive
    have hs₁ := (hs.create hd supply model (.refl _) hitem).1
    obtain ⟨t₁, found₁, hm₁, -⟩ := hretains.exists_table found
    obtain ⟨others, hrun, hfirst⟩ := Progress.exists_rest_of_createEach h
    -- the place of the first record stays taken while the others are created
    obtain ⟨hkept, hall, hrequests⟩ :=
      Sound.retains_createEach hd hrest hs₁ found₁ (hm₁ ▸ hm) (hm₁ ▸ hgives) hrun
    have hwhole := hretains.trans hkept
    rw [List.forall_mem_cons, List.flatMap_cons, ← hrequests, requests_cons]
    rcases hfirst with ⟨r, hr, -⟩ | ⟨fault, hfault, hkind, -⟩
    · have htaken := Progress.taken_of_created hd hs found hitem hm hgive hr
      refine ⟨hwhole, ⟨htaken.retain hkept, hall⟩, ?_⟩
      rw [Progress.request_of_created found hr hwhole]
      rw [← Prod.eta (p.create supply model item), hr]
    · obtain ⟨group, rfl⟩ := Fault.exists_notUnique_of_kind hkind
      refine ⟨hwhole, ⟨Progress.taken_of_notUnique found hfault hwhole, hall⟩, ?_⟩
      rw [Progress.request_of_notUnique found hfault hwhole]
      rw [← Prod.eta (p.create supply model item), hfault]
      rfl

/-- Where the place of each record is taken, all rows stay as they are. No record is created, and
all is asked of the counter that was asked before, unless the program panics. -/
theorem Sound.createEach_of_taken (hd : d.WellFormed) (supply : Supply) :
    {items : List Json} → (∀ item ∈ items, item.WellFormed) → (∀ item ∈ items, s.Taken model item) →
    {p : Progress} → p.store.Sound d → s.Retains p.store → {t : Table} →
    p.store.tableOf model = .ok t → t.model.HasKey → (∀ item ∈ items, t.model.GivesKey item) →
    let again := Progress.createEach supply true model items p
    (∀ name, again.1.store.rowsOf name = p.store.rowsOf name) ∧
      (again.2 = .ok [] ∧ requests supply model items p = items.flatMap (s.demand model) ∨
        again.2 = .error .counterOverflow ∧
          requests supply model items p <+: items.flatMap (s.demand model))
  | [], _, _, p, _, _, _, _, _, _ => ⟨fun _ => rfl, .inl ⟨rfl, rfl⟩⟩
  | item :: rest, hitems, htaken, p, hs, hr, t, found, hm, hgives => by
    obtain ⟨hitem, hrest⟩ := List.forall_mem_cons.mp hitems
    obtain ⟨hgive, hgives⟩ := List.forall_mem_cons.mp hgives
    obtain ⟨hfirst, htaken⟩ := List.forall_mem_cons.mp htaken
    have hretains := Progress.retains_create hd supply hs found hitem hm hgive
    have hs₁ := (hs.create hd supply model (.refl _) hitem).1
    obtain ⟨t₁, found₁, hm₁, -⟩ := hretains.exists_table found
    intro again
    rw [List.flatMap_cons, ← hfirst.demand_eq hr, requests_cons]
    rcases (hfirst.retain hr).create found hm hgive supply with ⟨group, hfail⟩ | hfail
    · obtain ⟨hrows, houtcome⟩ := Sound.createEach_of_taken hd supply hrest htaken hs₁
        (hr.trans hretains) found₁ (hm₁ ▸ hm) (hm₁ ▸ hgives)
      have hcreate : p.create supply model item =
          ((p.create supply model item).1, .error (.notUnique group)) := Prod.ext rfl hfail
      have hagain : again =
          Progress.createEach supply true model rest (p.create supply model item).1 := by
        unfold again
        rw [Progress.createEach, hcreate]
        rfl
      rw [hagain, Progress.request_of_notUnique found hfail (.refl _), hcreate]
      refine ⟨fun name => (hrows name).trans (Progress.create_error_rows hs.named hfail name), ?_⟩
      refine houtcome.imp ?_ ?_
      · exact And.imp_right (congrArg _)
      · exact And.imp_right (List.prefix_append_right_inj _).mpr
    · have hcreate : p.create supply model item =
          ((p.create supply model item).1, .error .counterOverflow) := Prod.ext rfl hfail
      have hagain : again = ((p.create supply model item).1, .error .counterOverflow) := by
        unfold again
        rw [Progress.createEach, hcreate]
        rfl
      rw [hagain, hcreate]
      refine ⟨Progress.create_error_rows hs.named hfail, .inr ⟨rfl, ?_⟩⟩
      -- the program panics while the record is filled, before all is asked
      refine List.prefix_append_of_prefix ?_
      exact (List.append_nil _).symm ▸ Progress.request_part supply p model item

/-- When records are created again that have been created or skipped, all rows stay as they are. No
record is created exactly if the counter has as many numbers left as were drawn, and the program
panics if it has not. -/
theorem Sound.createEach_again (hd : d.WellFormed) {supply : Supply} {items : List Json}
    (hitems : ∀ item ∈ items, item.WellFormed) {p q p' : Progress} (hs : p.store.Sound d)
    (found : p.store.tableOf model = .ok t) (hm : t.model.HasKey)
    (hgives : ∀ item ∈ items, t.model.GivesKey item) {created : List Record}
    (h : Progress.createEach supply true model items p = (q, .ok created)) (hs' : q.store.Sound d)
    (hcounter : IsInt64 (q.store.counterOf model)) (hp' : p'.store = q.store) (supply' : Supply) :
    let log := (p.eachCreation supply true model items).flatMap (·.log supply model)
    let again := Progress.createEach supply' true model items p'
    (again.2 = .ok [] ↔
      q.store.counterOf model + log.countP (·.isDraw) ≤ 9223372036854775807) ∧
    (again.2 ≠ .ok [] → again.2 = .error .counterOverflow) ∧
    ∀ name, again.1.store.rowsOf name = q.store.rowsOf name := by
  intro log again
  obtain ⟨hretains, htaken, hrequests⟩ := hs.retains_createEach hd hitems found hm hgives h
  obtain ⟨t', found', hm', -⟩ := hretains.exists_table found
  rw [← hp'] at found' hs'
  obtain ⟨hrows, houtcome⟩ := hs'.createEach_of_taken hd supply' hitems htaken (hp' ▸ .refl _)
    found' (hm' ▸ hm) (hm' ▸ hgives)
  -- the first time there was a number for each draw, and the counter has reached all numbers
  have hall : .exhausted ∉ log := by
    rw [← Progress.createEach_panics_iff, h]
    exact nofun
  obtain ⟨-, hcounting⟩ := moves_createEach supply true model items p model hs.named
  rw [h] at hcounting
  have hreached : ∀ n, some n ∈ log.map CounterEvent.request → n ≤ q.store.counterOf model :=
    hcounting.reaches_requests hall
  obtain ⟨-, hcounting'⟩ := moves_createEach supply' true model items p' model hs'.named
  rw [hp'] at hcounting' hrows
  unfold requests at hrequests houtcome
  rw [← hrequests] at houtcome
  have hpanics : again.2 = .error .counterOverflow ↔ _ := Progress.createEach_panics_iff ..
  have hroom := hcounting'.unfailing_iff hcounter hreached
    (houtcome.elim (fun hok => hok.2 ▸ List.prefix_refl _) (·.2))
    fun hmem => houtcome.elim (·.2) fun hpanic => absurd (hpanics.mp hpanic.1) hmem
  rw [CounterEvent.count_request] at hroom
  refine ⟨?_, fun hne => (houtcome.resolve_left fun hok => hne hok.1).1, hrows⟩
  rw [← hroom, ← hpanics]
  constructor
  · intro hok hpanic
    cases hok.symm.trans hpanic
  · exact fun hne => (houtcome.resolve_right fun hpanic => hne hpanic.1).1

/-! ## Calls -/

variable {delegate : String} {supply : Supply} {args answer : Json}

/-- The counter of a table is a 64-bit number. -/
theorem Reachable.isInt64_counter (hd : d.WellFormed) (h : Reachable d s) (model : String) :
    IsInt64 (s.counterOf model) := by
  induction h with
  | start =>
    rw [counterOf_ofModels]
    exact ⟨by decide, by decide⟩
  | @call s supply c before _ ih =>
    exact (moves_after supply s c model (before.sound hd).named).2.isInt64_later ih

/-- Creating several records with duplicates skipped is creating one after another. -/
theorem createMany_of_skip (hskip : args.get? "skipDuplicates" = some (.bool true))
    {items : List Json} (hitems : creations (args.get? "data") = .ok items) (supply : Supply)
    (s : Store) (t : Table) :
    s.createMany supply t args = Progress.createEach supply true t.model.name items ⟨s, 0⟩ := by
  rw [createMany, hskip, hitems]
  rfl

/-- The creations of such a call are those of its records. -/
theorem creationsOf_of_skip (hskip : args.get? "skipDuplicates" = some (.bool true))
    {items : List Json} (hitems : creations (args.get? "data") = .ok items) (supply : Supply)
    (ht : s.tableFor delegate = .ok t) :
    s.creationsOf supply (.execute delegate .createMany args) =
      (⟨s, 0⟩ : Progress).eachCreation supply true t.model.name items := by
  simp only [creationsOf, ht, creationsOn, hitems, hskip]
  rfl

/-- A creation of several records that skips duplicates can be repeated: for a model with a key, and
data that gives it in each record, once the call has given an answer all rows stay as they are when
it is repeated. The repetition creates nothing exactly if the counter has as many numbers left as
the call has drawn. If it has not, the program panics. -/
theorem Reachable.createMany_repeated_iff (hd : d.WellFormed) (h : Reachable d s)
    (ht : s.tableFor delegate = .ok t) (hm : t.model.HasKey) (hargs : args.WellFormed)
    (hskip : args.get? "skipDuplicates" = some (.bool true))
    (hgives : ∀ items, creations (args.get? "data") = .ok items →
      ∀ item ∈ items, t.model.GivesKey item)
    (hok : s.execute supply delegate .createMany args = (s', .ok answer)) (supply' : Supply) :
    let log := (s.creationsOf supply (.execute delegate .createMany args)).flatMap
      (·.log supply t.model.name)
    let repeated := s'.execute supply' delegate .createMany args
    (repeated.2 = .ok (.obj [("count", .ofNat 0)]) ↔
      s'.counterOf t.model.name + log.countP (·.isDraw) ≤ 9223372036854775807) ∧
    (repeated.2 ≠ .ok (.obj [("count", .ofNat 0)]) → repeated.2 = .error .counterOverflow) ∧
    ∀ model, repeated.1.rowsOf model = s'.rowsOf model := by
  have hs := h.sound hd
  have found := hs.named.tableOf_of_tableFor ht
  have h' : Reachable d s' := by
    have hcall := h.call supply (c := .execute delegate .createMany args) hargs
    rwa [after, congrArg Prod.fst hok] at hcall
  rw [execute_of_tableFor ht, executeOn] at hok
  obtain ⟨created, hcreated, -⟩ := answerWith_eq_ok_iff.mp (congrArg Prod.snd hok)
  have hstore : (s.createMany supply t args).1.store = s' := by
    rw [← answerWith_store, hok]
  intro log repeated
  cases hitems : creations (args.get? "data") with
  | error fault =>
    rw [createMany, hitems] at hcreated
    cases hcreated
  | ok items =>
    have hlog : log = ((⟨s, 0⟩ : Progress).eachCreation supply true t.model.name items).flatMap
        (·.log supply t.model.name) :=
      congrArg (List.flatMap _) (creationsOf_of_skip hskip hitems supply ht)
    rw [createMany_of_skip hskip hitems] at hcreated hstore
    obtain ⟨q, hrun⟩ : ∃ q, Progress.createEach supply true t.model.name items ⟨s, 0⟩ =
        (q, .ok created) := ⟨_, Prod.ext rfl hcreated⟩
    rw [hrun] at hstore
    subst hstore
    have hwf := creations_wellFormed hargs hitems
    obtain ⟨hretains, -⟩ :=
      hs.retains_createEach (p := ⟨s, 0⟩) hd hwf found hm (hgives items hitems) hrun
    obtain ⟨t', found', hm', -⟩ := hretains.exists_table found
    have ht' := (h.tableFor_eq_tableOf hd h' ht).trans found'
    have hrepeated : repeated = answerWith
        (Progress.createEach supply' true t.model.name items ⟨q.store, 0⟩) renderCount := by
      simp only [repeated, execute_of_tableFor ht', executeOn, createMany_of_skip hskip hitems, hm']
    have hstart : (⟨q.store, 0⟩ : Progress).store = q.store := rfl
    have hagain := hs.createEach_again hd hwf (p := ⟨s, 0⟩) found hm (hgives items hitems) hrun
      (h'.sound hd) (h'.isInt64_counter hd _) hstart supply'
    rw [hrepeated, hlog]
    generalize Progress.createEach supply' true t.model.name items ⟨q.store, 0⟩ = again at hagain
    obtain ⟨q', outcome⟩ := again
    obtain ⟨hcount, hpanics, hrows⟩ := hagain
    rw [← hcount]
    by_cases hnone : outcome = .ok []
    · subst hnone
      exact ⟨iff_of_true rfl rfl, fun hne => absurd rfl hne, hrows⟩
    · obtain rfl : outcome = .error .counterOverflow := hpanics hnone
      exact ⟨iff_of_false (by rintro ⟨⟩) (by rintro ⟨⟩), fun _ => rfl, hrows⟩

/-- The data of a seat gives the key if neither the row nor the number is null. -/
theorem Seats.givesKey_seat {row number guest : Json} (hrow : row ≠ .null)
    (hnumber : number ≠ .null) : Seats.model.GivesKey (Seats.seat row number guest) where
  unique group hgroup column hc := by
    cases hgroup with
    | @column f declared unique _ =>
      have hplain : ∀ f ∈ Seats.model.fields, ¬ (f.isId = true ∨ f.isUnique = true) := by decide
      exact absurd unique (hplain f declared)
    | primaryKey declared =>
      cases declared
      have hnames : column = "row" ∨ column = "number" := by simpa using hc
      rcases hnames with rfl | rfl <;> rfl
  identifying f hf value hvalue := by
    have hids : Seats.model.identifyingFields =
        [Seats.column "row" true, Seats.column "number" true] := rfl
    have hfields : f = Seats.column "row" true ∨ f = Seats.column "number" true := by
      simpa [hids] using hf
    rcases hfields with rfl | rfl
    · cases hvalue
      exact hrow
    · cases hvalue
      exact hnumber

/-- Of four seats one is taken and one is asked for twice, so that two are created. None is when the
call is repeated: no number is drawn for a seat. -/
theorem seats_createMany_repeated :
    let s := Seats.made [
      .execute "seat" .create (.obj [("data", Seats.seat (.ofNat 1) (.ofNat 1) .null)])]
    let t := s.current (Table.empty Seats.model)
    let args := Json.obj [("data", .arr [Seats.seat (.ofNat 1) (.ofNat 1) .null,
      Seats.seat (.ofNat 1) (.ofNat 2) .null, Seats.seat (.ofNat 1) (.ofNat 2) (.ofNat 7),
      Seats.seat (.ofNat 2) (.ofNat 1) .null]), ("skipDuplicates", .bool true)]
    let s' := (s.execute Seats.supply "seat" .createMany args).1
    let repeated := s'.execute Seats.supply "seat" .createMany args
    Seats.document.WellFormed ∧ Reachable Seats.document s ∧ s.tableFor "seat" = .ok t ∧
      t.model.HasKey ∧ args.WellFormed ∧
      args.get? "skipDuplicates" = some (.bool true) ∧
      (∀ items, creations (args.get? "data") = .ok items →
        ∀ item ∈ items, t.model.GivesKey item) ∧
      s.execute Seats.supply "seat" .createMany args = (s', .ok (.obj [("count", .ofNat 2)])) ∧
      repeated.2 = .ok (.obj [("count", .ofNat 0)]) ∧
      ∀ model, repeated.1.rowsOf model = s'.rowsOf model := by
  intro s t args s' repeated
  have hs : Reachable Seats.document s :=
    Seats.reachable_made (by simp [Call.WellFormed, Entries.names])
  have ht : s.tableFor "seat" = .ok t := rfl
  have hm : t.model.HasKey := by constructor <;> decide
  have hargs : args.WellFormed := by simp [args, Entries.names]
  have hgives : ∀ items, creations (args.get? "data") = .ok items →
      ∀ item ∈ items, t.model.GivesKey item := by
    intro items hitems item hmem
    cases hitems
    have hseats : ∃ row number guest, item = Seats.seat (.ofNat row) (.ofNat number) guest := by
      simp only [List.mem_cons, List.not_mem_nil, or_false] at hmem
      rcases hmem with rfl | rfl | rfl | rfl <;> exact ⟨_, _, _, rfl⟩
    obtain ⟨row, number, guest, rfl⟩ := hseats
    exact Seats.givesKey_seat Json.noConfusion Json.noConfusion
  have hok : s.execute Seats.supply "seat" .createMany args =
      (s', .ok (.obj [("count", .ofNat 2)])) := rfl
  obtain ⟨hcount, -, hrows⟩ :=
    hs.createMany_repeated_iff Seats.document_wellFormed ht hm hargs rfl hgives hok Seats.supply
  have hroom : s'.counterOf t.model.name + 0 ≤ 9223372036854775807 := by
    rw [show s'.counterOf t.model.name = 0 from rfl]
    decide
  exact ⟨Seats.document_wellFormed, hs, ht, hm, hargs, rfl, hgives, hok, hcount.mpr hroom, hrows⟩

end Store

/-! ## A document of plans -/

namespace Store.Plans

/-- A plan is identified by a number, and gets a serial number that is no key. -/
def model : Model where
  name := "Plan"
  fields := [{ Seats.column "id" true with isId := true },
    { Seats.column "serial" true with
      hasDefault := true
      default := some (.obj [("name", .str "autoincrement"), ("args", .arr [])]) }]
  primaryKey := none

/-- The document with plans alone. -/
def document : Document where
  models := [model]
  outputs := ⟨[], []⟩
  enums := ⟨[], []⟩
  mappings := []
  otherReads := []
  otherWrites := []

/-- The store in which calls leave the plans. -/
def made (calls : List Call) : Store :=
  calls.foldl (fun s c => s.after Seats.supply c) (ofModels document.models)

end Store.Plans

namespace Store

/-- A plan is created with the last serial number. When the call is repeated, the program panics
before it finds that the plan is there. -/
theorem plans_createMany_panics :
    let s := Plans.made [.execute "plan" .create
      (.obj [("data", .obj [("id", .ofNat 1), ("serial", .ofNat 9223372036854775806)])])]
    let args := Json.obj [("data", .arr [.obj [("id", .ofNat 2)]]), ("skipDuplicates", .bool true)]
    let s' := (s.execute Seats.supply "plan" .createMany args).1
    Plans.document.WellFormed ∧ Reachable Plans.document s ∧ Plans.model.HasKey ∧
      args.WellFormed ∧
      (∀ items, creations (args.get? "data") = .ok items →
        ∀ item ∈ items, Plans.model.GivesKey item) ∧
      (s.execute Seats.supply "plan" .createMany args).2 = .ok (.obj [("count", .ofNat 1)]) ∧
      (s'.execute Seats.supply "plan" .createMany args).2 = .error .counterOverflow := by
  intro s args s'
  have hdocument : Plans.document.WellFormed := by
    simp [Document.WellFormed, Model.WellFormed, Field.WellFormed, Plans.document, Plans.model,
      Seats.column, Entries.names]
  have hs : Reachable Plans.document s :=
    Reachable.start.foldl Seats.supply (by simp [Call.WellFormed, Entries.names])
  have hm : Plans.model.HasKey := by constructor <;> decide
  refine ⟨hdocument, hs, hm, by simp [args, Entries.names], ?_, rfl, rfl⟩
  intro items hitems item hmem
  cases hitems
  obtain rfl := List.mem_singleton.mp hmem
  constructor
  · intro group hgroup column hc
    cases hgroup with
    | @column f declared unique _ =>
      have hid : ∀ f ∈ Plans.model.fields, f.isId = true ∨ f.isUnique = true → f.name = "id" := by
        decide
      obtain rfl := (List.mem_singleton.mp hc).trans (hid f declared unique)
      rfl
    | primaryKey declared => cases declared
  · intro f hf value hvalue
    obtain rfl : f = { Seats.column "id" true with isId := true } := List.mem_singleton.mp hf
    cases hvalue
    exact Json.noConfusion

end Store

end ModelGateway
