import ModelGateway.Proofs.Schema.Identifying
import ModelGateway.Proofs.Store.Sound

/-!
# The identity of records

A row stands under the values that identify its record (`Model.identity`), and a row of a model
without identifying fields under its sequence number.

* **Keys** (`Table.keyFor_eq_iff`): two records of a model with identifying fields get the same key
  exactly if they have the same identity, nulls and all.
* **Unique groups** (`Model.Identified.exists_clashes`): the check that a record passes before it is
  stored ignores nulls, and looks at declared columns only. It keeps identities apart for records
  that are `Identified`: whose primary key or id column has no null.
-/

namespace ModelGateway

/-! ## Identifying fields -/

namespace Model

variable {m : Model} {r r' : Record}

/-- The values that identify a record. -/
def identity (m : Model) (r : Record) : List Json :=
  m.identifyingFields.map fun f => Record.value r f.name

/-- The record has a key without nulls: in the primary key, which names columns that the model
declares, or in an id column. -/
inductive Identified (m : Model) (r : Record) : Prop
  | primaryKey {key : PrimaryKey} (declared : m.primaryKey = some key)
      (columns : ∀ column ∈ key.fields, (m.field? column).isSome)
      (given : ∀ column ∈ key.fields, Record.value r column ≠ .null)
  | column {f : Field} (declared : f ∈ m.fields) (id : f.isId = true)
      (scalar : f.isRelation = false) (given : Record.value r f.name ≠ .null)

/-- A declared column of the primary key is an identifying field. -/
theorem mem_identifyingFields_of_primaryKey {key : PrimaryKey} (hk : m.primaryKey = some key)
    {column : String} (hc : column ∈ key.fields) (hd : (m.field? column).isSome) :
    column ∈ m.identifyingFields.map (·.name) := by
  refine mem_names_identifyingFields.mpr (.inl ⟨?_, field?_isSome_iff.mp hd⟩)
  rwa [primaryKeyNames, hk]

/-- An id field is an identifying field. -/
theorem mem_identifyingFields_of_isId {f : Field} (hf : f ∈ m.fields) (hid : f.isId = true) :
    f.name ∈ m.identifyingFields.map (·.name) :=
  mem_names_identifyingFields.mpr (.inr ⟨f, hf, hid, rfl⟩)

/-- Records of the same identity have the same values in identifying fields. -/
theorem value_eq_of_identity_eq (h : m.identity r = m.identity r') {column : String}
    (hc : column ∈ m.identifyingFields.map (·.name)) :
    Record.value r column = Record.value r' column := by
  obtain ⟨f, hf, rfl⟩ := List.mem_map.mp hc
  exact List.map_inj_left.mp h f hf

/-- The key without nulls of an identified record is a unique group of identifying fields. -/
theorem Identified.exists_group (h : m.Identified r) :
    ∃ group, m.UniqueGroup group ∧ (∀ column ∈ group, Record.value r column ≠ .null) ∧
      ∀ column ∈ group, column ∈ m.identifyingFields.map (·.name) := by
  cases h with
  | @primaryKey key declared columns given =>
    refine ⟨key.fields, .primaryKey declared, given, ?_⟩
    exact fun column hc => mem_identifyingFields_of_primaryKey declared hc (columns column hc)
  | @column f declared id scalar given =>
    refine ⟨[f.name], .column declared (.inl id) scalar, ?_, ?_⟩
    · exact List.forall_mem_singleton.mpr given
    · exact List.forall_mem_singleton.mpr (mem_identifyingFields_of_isId declared id)

/-- An identified record clashes with every record of the same identity. -/
theorem Identified.exists_clashes (h : m.Identified r) (hr : Record.WellFormed r)
    (heq : m.identity r = m.identity r') :
    ∃ group, m.UniqueGroup group ∧ Record.Clashes group r r' := by
  obtain ⟨group, hgroup, hgiven, hids⟩ := h.exists_group
  refine ⟨group, hgroup, fun column hc => ?_⟩
  rw [← value_eq_of_identity_eq heq (hids column hc)]
  exact ⟨hgiven column hc, hgiven column hc, valuesEqual_refl (hr.value column)⟩

end Model

/-! ## Keys -/

namespace Table

variable {t : Table}

/-- When two rows of a table get the same key. -/
theorem keyFor_eq_iff {r r' : Record} {n n' : Nat} :
    t.keyFor r n = t.keyFor r' n' ↔
      if t.model.identifyingFields = [] then n = n'
      else t.model.identity r = t.model.identity r' := by
  unfold keyFor Model.identity
  cases t.model.identifyingFields <;> simp

/-- No two rows of a sound table have the same identity, if the model has identifying fields. -/
theorem Sound.nodup_identities (h : t.Sound) (hids : t.model.identifyingFields ≠ []) :
    (t.records.map t.model.identity).Nodup := by
  have hkeys : t.rows.Pairwise fun a b => a.1 ≠ b.1 := List.pairwise_map.mp h.keys_nodup
  rw [records, List.map_map, List.Nodup, List.pairwise_map]
  refine hkeys.imp_of_mem fun {a b} ha hb hne heq => hne ?_
  rw [h.keyed a ha, h.keyed b hb, keyFor_eq_iff, if_neg hids]
  exact heq

end Table

end ModelGateway
