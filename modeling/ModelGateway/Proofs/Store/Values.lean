import ModelGateway.Proofs.Document.WellFormed
import ModelGateway.Proofs.Except
import ModelGateway.Proofs.Record.Equality
import ModelGateway.Store.Write

/-!
# The values that a write stores

A write makes its record out of its arguments, of the defaults of the model and of fresh values. If
the arguments and the defaults are well formed, so is the record: of a creation
(`Draft.fill_wellFormed`) and of an update (`Store.applyData_wellFormed`,
`stampUpdated_wellFormed`).
-/

namespace ModelGateway

/-! ## Relation arguments -/

/-- A part of a well-formed key is well formed. -/
theorem wellFormed_keyPart? {input value : Json} {name : String} (hi : input.WellFormed)
    (h : keyPart? input name = some value) : value.WellFormed := by
  cases hi with
  | obj _ hv =>
    rw [keyPart?] at h
    split at h
    · rename_i hg
      cases h
      exact hv _ (Entries.mem_of_get?_eq_some hg)
    · obtain ⟨inner, hinner, hg⟩ := List.exists_of_findSome?_eq_some h
      obtain ⟨e, he, rfl⟩ := List.mem_map.mp hinner
      exact (hv e he).of_get? hg
  | _ => simp [keyPart?] at h

namespace Store

variable {s : Store}

/-- A connection gives each column of the foreign key the part of the key that it refers to. -/
theorem connectValues_eq {target : Json} {pairs : List (String × String)}
    {values : List (String × String × Json)} (h : connectValues target pairs = .ok values) :
    values = (pairs.map fun p => (p.1, p.2, (keyPart? target p.2).getD .null)) ∧
      ∀ p ∈ pairs, (keyPart? target p.2).isSome = true := by
  induction pairs generalizing values with
  | nil =>
    cases h
    exact ⟨rfl, fun _ hp => absurd hp List.not_mem_nil⟩
  | cons pair rest ih =>
    obtain ⟨column, referred⟩ := pair
    rw [connectValues] at h
    split at h
    · cases h
    · rename_i value hvalue
      obtain ⟨values', hvalues, h⟩ := Except.bind_eq_ok_iff.mp h
      cases h
      obtain ⟨rfl, hsome⟩ := ih hvalues
      refine ⟨?_, List.forall_mem_cons.mpr ⟨by rw [hvalue]; rfl, hsome⟩⟩
      rw [List.map_cons, hvalue]
      rfl

/-- The ways in which a relation argument is accepted, with the foreign-key columns that it sets. -/
inductive KeySet (s : Store) (f : Field) (argument : Json) : List (String × Json) → Prop
  /-- It gives the parts of a key, and some row of the other model has them. -/
  | connect {key : Json} {target : Table} (given : argument.get? "connect" = some key)
      (found : s.tableOf f.typeName = .ok target)
      (parts : ∀ p ∈ f.fromFields.zip f.toFields, (keyPart? key p.2).isSome = true)
      (exist : target.records.any (Filter.allEqual ((f.fromFields.zip f.toFields).map fun p =>
        (p.2, (keyPart? key p.2).getD .null))).matches = true) :
      KeySet s f argument ((f.fromFields.zip f.toFields).map fun p =>
        (p.1, (keyPart? key p.2).getD .null))
  | disconnect (absent : argument.get? "connect" = none) :
      KeySet s f argument (f.fromFields.map (·, .null))

/-- A relation argument sets columns only if it connects or disconnects. -/
theorem keySet_of_foreignKey {field : Field} {argument : Json} {columns : List (String × Json)}
    (h : s.foreignKey field argument = .ok columns) : s.KeySet field argument columns := by
  cases argument with
  | obj ops =>
    rw [foreignKey] at h
    split at h
    · cases h
    split at h
    · rename_i key hkey
      obtain ⟨target, htarget, h⟩ := Except.bind_eq_ok_iff.mp h
      obtain ⟨values, hvalues, h⟩ := Except.bind_eq_ok_iff.mp h
      obtain ⟨rfl, hparts⟩ := connectValues_eq hvalues
      simp only [List.map_map] at h
      split at h
      · rename_i hexist
        cases h
        exact .connect hkey htarget hparts hexist
      · cases h
    · rename_i hnone
      split at h
      · cases h
        exact .disconnect hnone
      · cases h
  | _ => simp [foreignKey] at h

/-- The foreign-key columns that a well-formed relation argument sets are well formed. -/
theorem foreignKey_wellFormed {field : Field} {argument : Json} {columns : List (String × Json)}
    (ha : argument.WellFormed) (h : s.foreignKey field argument = .ok columns) :
    ∀ c ∈ columns, c.2.WellFormed := by
  intro c hc
  cases keySet_of_foreignKey h with
  | connect given _ parts _ =>
    obtain ⟨p, hp, rfl⟩ := List.mem_map.mp hc
    obtain ⟨value, hvalue⟩ := Option.isSome_iff_exists.mp (parts p hp)
    rw [hvalue]
    exact wellFormed_keyPart? (ha.of_get? given) hvalue
  | disconnect =>
    obtain ⟨name, -, rfl⟩ := List.mem_map.mp hc
    exact .null

/-- The foreign-key columns that the well-formed data of a creation sets are well formed. -/
theorem foreignKeys_wellFormed {data : Entries Json} (hd : ∀ e ∈ data, e.2.WellFormed) :
    {fields : List Field} → {columns : Entries Json} → s.foreignKeys data fields = .ok columns →
    ∀ c ∈ columns, c.2.WellFormed
  | [], _, h => by
    cases h
    exact fun c hc => absurd hc List.not_mem_nil
  | field :: rest, _, h => by
    rw [foreignKeys] at h
    split at h
    · exact foreignKeys_wellFormed hd h
    · rename_i argument harg
      obtain ⟨columns, hc, h⟩ := Except.bind_eq_ok_iff.mp h
      obtain ⟨more, hm, h⟩ := Except.bind_eq_ok_iff.mp h
      cases h
      have ha := hd _ (Entries.mem_of_get?_eq_some harg)
      exact List.forall_mem_append.mpr
        ⟨foreignKey_wellFormed ha hc, foreignKeys_wellFormed hd hm⟩

end Store

/-! ## Creating -/

namespace Draft

variable {supply : Supply}

/-- A number is given if 64 bits hold it. -/
theorem nextNumber_of_isInt64 {d : Draft} (h : IsInt64 (d.counter + 1)) :
    d.nextNumber =
      ({ d with counter := d.counter + 1 }, .ok (some (.ofInt (d.counter + 1)))) := by
  unfold nextNumber
  rw [wrapInt64_of_isInt64 h, int64?_eq_some_iff.mpr ⟨h, rfl⟩]

/-- Without a number to give the program panics, and the counter has moved on. -/
theorem nextNumber_of_not_isInt64 {d : Draft} (h : ¬IsInt64 (d.counter + 1)) :
    d.nextNumber =
      ({ d with counter := wrapInt64 (d.counter + 1) }, .error .counterOverflow) := by
  unfold nextNumber int64?
  rw [if_neg h]

/-- There is a fault for a default value only where the counter of an automatic column has no number
to give. -/
theorem defaultValue_eq_error {f : Field} {d d' : Draft} {fault : Fault}
    (h : d.defaultValue supply f = (d', .error fault)) :
    fault = .counterOverflow ∧ f.isAutoincrement = true ∧ f.isUpdatedAt = false ∧
      ¬IsInt64 (d.counter + 1) := by
  unfold defaultValue at h
  split at h
  · cases h
  · rename_i hstamp
    split at h
    · rename_i hfunction
      by_cases hnext : IsInt64 (d.counter + 1)
      · rw [nextNumber_of_isInt64 hnext] at h
        cases h
      · rw [nextNumber_of_not_isInt64 hnext] at h
        cases h
        refine ⟨rfl, ?_, Bool.eq_false_iff.mpr hstamp, hnext⟩
        unfold Field.isAutoincrement
        rw [hfunction]
        rfl
    all_goals cases h

/-- A default value is well formed. -/
theorem defaultValue_wellFormed {f : Field} (hf : f.WellFormed)
    {d d' : Draft} {value : Json} (h : d.defaultValue supply f = (d', .ok (some value))) :
    value.WellFormed := by
  unfold defaultValue at h
  split at h
  · cases h
    exact .str _
  · split at h
    · by_cases hnext : IsInt64 (d.counter + 1)
      · rw [nextNumber_of_isInt64 hnext] at h
        cases h
        exact Json.wellFormed_ofInt _
      · rw [nextNumber_of_not_isInt64 hnext] at h
        cases h
    · cases h
      exact .str _
    · cases h
      exact .str _
    · cases h
      exact .str _
    · cases h
    · obtain ⟨-, hd⟩ := Prod.ext_iff.mp h
      exact hf value (Option.filter_eq_some_iff.mp (Except.ok.inj hd)).1

/-- The value of a column that is not given is well formed. -/
theorem absentValue_wellFormed {f : Field} (hf : f.WellFormed)
    {d d' : Draft} {value : Json} (h : d.absentValue supply f = (d', .ok value)) :
    value.WellFormed := by
  unfold absentValue at h
  split at h
  · cases h
  · rename_i hd
    cases h
    exact defaultValue_wellFormed hf hd
  · split_ifs at h
    · cases h
      exact .arr fun x hx => absurd hx List.not_mem_nil
    · cases h
    · cases h
      exact .null

/-- The value of a column that is given is well formed. -/
theorem givenValue_wellFormed (f : Field) {value : Json} (hv : value.WellFormed) (d : Draft) :
    (d.givenValue f value).2.WellFormed := by
  unfold givenValue
  split
  · rename_i list hlist
    split_ifs at hlist
    exact hv.of_get? hlist
  · split <;> exact hv

/-- A record filled from well-formed values is well formed. -/
theorem fill_wellFormed {data connected : Entries Json} (hdata : ∀ e ∈ data, e.2.WellFormed)
    (hconnected : ∀ e ∈ connected, e.2.WellFormed) :
    {fields : List Field} →
    (hfields : ∀ f ∈ fields, f.WellFormed) →
    {r r' : Record} → {d d' : Draft} → (hr : Record.WellFormed r) →
    fill supply data connected fields r d = (d', .ok r') → Record.WellFormed r'
  | [], _, r, _, _, _, hr, h => by
    cases h
    exact hr
  | f :: rest, hfields, r, r', d, d', hr, h => by
    rw [fill] at h
    have hrest := (List.forall_mem_cons.mp hfields).2
    split at h
    · rename_i value hvalue
      refine fill_wellFormed hdata hconnected hrest (hr.insert f.name ?_) h
      refine givenValue_wellFormed f ?_ d
      split at hvalue
      · rename_i hg
        cases hvalue
        exact hdata _ (Entries.mem_of_get?_eq_some hg)
      · exact hconnected _ (Entries.mem_of_get?_eq_some hvalue)
    · split at h
      · cases h
      · rename_i value hvalue
        refine fill_wellFormed hdata hconnected hrest (hr.insert f.name ?_) h
        exact absentValue_wellFormed (hfields f List.mem_cons_self) hvalue

end Draft

/-! ## Updating -/

/-- The result of arithmetic on a column is well formed. -/
theorem Arithmetic.apply_wellFormed {op : Arithmetic} {column : String}
    {current operand value : Json} (h : op.apply column current operand = .ok value) :
    value.WellFormed := by
  unfold Arithmetic.apply at h
  split at h
  · split at h
    · cases h
      exact Json.wellFormed_ofInt _
    · cases h
  · split at h
    · cases h
      exact Json.wellFormed_ofDouble? _
    · cases h

/-- The new value of a column is well formed. -/
theorem applyUpdate_wellFormed {f : Field} {current value : Json} {ops : List (String × Json)}
    (hc : current.WellFormed) (ho : ∀ e ∈ ops, e.2.WellFormed)
    (h : applyUpdate f current ops = .ok value) : value.WellFormed := by
  unfold applyUpdate at h
  split at h
  · rename_i operation operand
    have hoperand := ho (operation, operand) List.mem_cons_self
    split at h
    · cases h
      exact hoperand
    · have hlist : ∀ x ∈ current.asItems?.getD [], x.WellFormed := by
        cases hc with
        | arr hi => exact hi
        | _ => exact fun x hx => absurd hx List.not_mem_nil
      split at h
      · cases h
        exact .arr (List.forall_mem_append.mpr ⟨hlist, Json.wellFormed_arr.mp hoperand⟩)
      · cases h
        refine .arr (List.forall_mem_append.mpr ⟨hlist, ?_⟩)
        exact List.forall_mem_singleton.mpr hoperand
    · split at h
      · exact Arithmetic.apply_wellFormed h
      · cases h
  · cases h

/-- A record updated by well-formed data is well formed. -/
theorem Store.applyData_wellFormed {s : Store} {m : Model} :
    {entries : List (String × Json)} → (∀ e ∈ entries, e.2.WellFormed) → {r r' : Record} →
    Record.WellFormed r → s.applyData m entries r = .ok r' → Record.WellFormed r'
  | [], _, r, _, hr, h => by
    cases h
    exact hr
  | (name, value) :: rest, hd, r, r', hr, h => by
    obtain ⟨hvalue, hrest⟩ := List.forall_mem_cons.mp hd
    rw [applyData] at h
    split at h
    · cases h
    · split at h
      · obtain ⟨columns, hcolumns, h⟩ := Except.bind_eq_ok_iff.mp h
        exact applyData_wellFormed hrest (hr.extend (foreignKey_wellFormed hvalue hcolumns)) h
      · split at h
        · split at h
          · exact applyData_wellFormed hrest (hr.insert name hvalue) h
          · obtain ⟨next, hnext, h⟩ := Except.bind_eq_ok_iff.mp h
            have hops := (Json.wellFormed_obj.mp hvalue).2
            have hn := applyUpdate_wellFormed (hr.value name) hops hnext
            exact applyData_wellFormed hrest (hr.insert name hn) h
        · exact applyData_wellFormed hrest (hr.insert name hvalue) h

/-- Stamping the time of an update keeps a record well formed. -/
theorem stampUpdated_wellFormed {supply : Supply} {data : Entries Json} :
    {fields : List Field} → {r : Record} → {drawn : Nat} → Record.WellFormed r →
    Record.WellFormed (stampUpdated supply data fields r drawn).2
  | [], _, _, hr => hr
  | f :: rest, r, drawn, hr => by
    rw [stampUpdated]
    split_ifs
    · exact stampUpdated_wellFormed (hr.insert f.name (.str _))
    · exact stampUpdated_wellFormed hr

end ModelGateway
