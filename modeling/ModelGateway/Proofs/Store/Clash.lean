import ModelGateway.Proofs.Store.Outcome
import ModelGateway.Proofs.Store.Values

/-!
# Writes that clash

A write fails on a unique group only where it stores its record: filling one does not fail so
(`Draft.fill_ne_notUnique`). So a creation that fails on a group has filled a record that clashes
with a row on that group (`Progress.exists_filling_of_notUnique`), and a creation whose record
clashes fails with this fault (`Progress.Filling.create_eq_error`,
`Table.exists_notUnique_of_clashes`).
-/

namespace ModelGateway

/-! ## Storing -/

/-- A record that is not stored clashes with a row, other than the one that it would replace, on the
unique group of the fault. -/
theorem Table.exists_clashes_of_store {t : Table} {r : Record} {n : Nat} {replacing : Option RowKey}
    {group : List String} (h : t.store r n replacing = .error (.notUnique group)) :
    ∃ e ∈ t.rows, replacing ≠ some e.1 ∧ t.model.UniqueGroup group ∧
      Record.Clashes group r e.2.data := by
  unfold store at h
  split at h
  · rename_i found hfound
    cases h
    obtain ⟨e, he, hgroup⟩ := List.exists_of_findSome?_eq_some hfound
    obtain ⟨he, hreplacing⟩ := List.mem_filter.mp he
    have hmem := List.mem_of_find?_eq_some hgroup
    have hclash := List.find?_some hgroup
    exact ⟨e, he, of_decide_eq_true hreplacing, mem_uniqueGroups_iff.mp hmem,
      clash_eq_true_iff.mp hclash⟩
  · cases h

/-- Storing a record does not make the program panic. -/
theorem Table.store_ne_panic {t : Table} {r : Record} {n : Nat} {replacing : Option RowKey} :
    t.store r n replacing ≠ .error .counterOverflow := by
  unfold store
  split <;> exact nofun

/-- A record that clashes with a row is not stored. -/
theorem Table.exists_notUnique_of_clashes {t : Table} {r : Record} {group : List String}
    {e : RowKey × Row} (he : e ∈ t.rows) (hgroup : t.model.UniqueGroup group)
    (hclash : Record.Clashes group r e.2.data) (n : Nat) :
    ∃ group', t.store r n none = .error (.notUnique group') := by
  cases hfound : t.clashingGroup? r none with
  | none =>
    exact absurd hclash (clashingGroup?_eq_none_iff.mp hfound e he (by simp) group hgroup)
  | some group' => exact ⟨group', by rw [store, hfound]⟩

/-- Only a clash is a violated unique constraint. -/
theorem Fault.exists_notUnique_of_kind {fault : Fault} (h : fault.kind = .uniqueConstraint) :
    ∃ group, fault = .notUnique group := by
  cases fault with
  | notUnique group => exact ⟨group, rfl⟩
  | _ => cases h

/-! ## Filling -/

/-- The value of a column that is not given has one of two faults. -/
theorem Draft.absentValue_eq_error {supply : Supply} {f : Field} {d d' : Draft} {fault : Fault}
    (h : d.absentValue supply f = (d', .error fault)) :
    fault = .counterOverflow ∨ fault = .columnMissing f.name := by
  unfold absentValue at h
  split at h
  · rename_i hdefault
    cases h
    exact .inl (defaultValue_eq_error hdefault).1
  · cases h
  · split_ifs at h
    · cases h
    · cases h
      exact .inr rfl
    · cases h

/-- Filling a record does not clash. -/
theorem Draft.fill_ne_notUnique (supply : Supply) (data connected : Entries Json)
    (group : List String) :
    (fields : List Field) → (r : Record) → (draft : Draft) →
    (draft.fill supply data connected fields r).2 ≠ .error (.notUnique group)
  | [], _, _ => nofun
  | f :: rest, r, draft => by
    rw [fill]
    split
    · exact Draft.fill_ne_notUnique supply data connected group rest _ _
    · split
      · rename_i fault hfault
        rintro ⟨⟩
        rcases absentValue_eq_error hfault with hfault | hfault <;> cases hfault
      · exact Draft.fill_ne_notUnique supply data connected group rest _ _

/-! ## Creating -/

/-- A creation whose record is filled but not stored fails with the fault of storing it. -/
theorem Progress.Filling.create_eq_error {supply : Supply} {p : Progress} {t : Table}
    {entries : Entries Json} {draft : Draft} {r : Record}
    (h : Filling supply p t entries draft (.ok r)) {model : String}
    (found : p.store.tableOf model = .ok t) {fault : Fault}
    (hs : ({ t with counter := draft.counter, nextSequence := t.nextSequence + 1 } : Table).store
      r t.nextSequence none = .error fault) :
    (p.create supply model (.obj entries)).2 = .error fault := by
  obtain ⟨pairs, hpairs, hfill⟩ := h.filled_eq
  unfold create
  rw [found]
  dsimp only
  unfold createFrom
  rw [h.known]
  dsimp only
  rw [hpairs]
  dsimp only
  rw [hfill]
  dsimp only [append]
  rw [hs]

/-- A creation whose record is not filled fails with the fault of filling it. -/
theorem Progress.Filling.create_fault {supply : Supply} {p : Progress} {t : Table}
    {entries : Entries Json} {draft : Draft} {fault : Fault}
    (h : Filling supply p t entries draft (.error fault)) {model : String}
    (found : p.store.tableOf model = .ok t) :
    (p.create supply model (.obj entries)).2 = .error fault := by
  obtain ⟨hknown, pairs, hpairs, hfill⟩ := h
  simp only [create, found, createFrom, hknown, hpairs, hfill, fail]

/-- A creation that fails on a unique group has filled a record that clashes with a row on it. -/
theorem Progress.exists_filling_of_notUnique {supply : Supply} {p : Progress} {model : String}
    {t : Table} (found : p.store.tableOf model = .ok t) {entries : Entries Json}
    {group : List String}
    (h : (p.create supply model (.obj entries)).2 = .error (.notUnique group)) :
    ∃ draft r, Filling supply p t entries draft (.ok r) ∧
      t.model.UniqueGroup group ∧ ∃ e ∈ t.rows, Record.Clashes group r e.2.data := by
  have ho := create_outcome supply p model (.obj entries)
  generalize p.create supply model (.obj entries) = outcome at h ho
  cases ho with
  | refused _ early =>
    cases h
    exact absurd (.clash group) early
  | @unfilled u entries' draft _ _ object filling =>
    cases h
    obtain ⟨pairs, -, hfill⟩ := filling.filled_eq
    exact absurd (congrArg Prod.snd hfill) (Draft.fill_ne_notUnique supply _ _ group _ _ _)
  | @clashing u entries' draft r _ found' object filling clash =>
    cases h
    cases object
    obtain rfl : u = t := Except.ok.inj (found'.symm.trans found)
    obtain ⟨e, he, -, hgroup, hclash⟩ := Table.exists_clashes_of_store clash
    exact ⟨draft, r, filling, hgroup, e, he, hclash⟩
  | stored => cases h

end ModelGateway
