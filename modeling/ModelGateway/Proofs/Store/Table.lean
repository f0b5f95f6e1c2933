import Mathlib.Data.List.Nodup
import ModelGateway.Proofs.Record.Equality
import ModelGateway.Store.Write

/-!
# What storing a record does to a table

* **Rows** (`store_eq_ok_iff`): storing succeeds exactly if no unique group clashes, and then the
  rows are those stored neither under the record's key nor under the key that it replaces, with the
  record put among them in the order of sequence numbers. Everything else about the rows follows:
  which they are (`mem_rows_store`, `rows_store_perm`) and that they stay in order
  (`sorted_insertInOrder`).
* **Unique groups** (`clashingGroup?_eq_none_iff`): the check that storing makes, in terms of the
  groups of the model (`Model.UniqueGroup`) and of equal values (`Record.Clashes`).
-/

namespace ModelGateway

/-! ## Unique groups -/

/-- The groups of columns in which no two rows may have equal values: each id or unique column, and
the columns of the primary key. -/
inductive Model.UniqueGroup (m : Model) : List String → Prop
  | column {f : Field} (declared : f ∈ m.fields) (unique : f.isId = true ∨ f.isUnique = true)
      (scalar : f.isRelation = false) : UniqueGroup m [f.name]
  | primaryKey {key : PrimaryKey} (declared : m.primaryKey = some key) : UniqueGroup m key.fields

/-- Two records have equal values, none of them null, in every column of a group. -/
def Record.Clashes (group : List String) (a b : Record) : Prop :=
  ∀ column ∈ group, Record.value a column ≠ .null ∧ Record.value b column ≠ .null ∧
    valuesEqual (Record.value a column) (Record.value b column) = true

/-- Clashing does not depend on the order of the two records. -/
theorem Record.Clashes.symm {group : List String} {a b : Record} (ha : Record.WellFormed a)
    (hb : Record.WellFormed b) (h : Record.Clashes group a b) : Record.Clashes group b a := by
  intro column hc
  obtain ⟨hna, hnb, heq⟩ := h column hc
  exact ⟨hnb, hna, valuesEqual_symm (ha.value column) (hb.value column) heq⟩

namespace Table

/-- The unique groups of a model are those that are checked. -/
theorem mem_uniqueGroups_iff {m : Model} {group : List String} :
    group ∈ uniqueGroups m ↔ m.UniqueGroup group := by
  constructor
  · intro h
    rcases List.mem_append.mp h with hc | hk
    · obtain ⟨f, hf, rfl⟩ := List.mem_map.mp hc
      obtain ⟨hm, hf⟩ := List.mem_filter.mp hf
      rw [Bool.and_eq_true, Bool.or_eq_true, Bool.not_eq_true'] at hf
      exact .column hm hf.1 hf.2
    · cases hpk : m.primaryKey with
      | none => simp [hpk] at hk
      | some key =>
        simp only [hpk, List.mem_singleton] at hk
        exact hk ▸ .primaryKey hpk
  · intro h
    cases h with
    | @column f hm hu hs =>
      refine List.mem_append_left _ (List.mem_map.mpr ⟨f, List.mem_filter.mpr ⟨hm, ?_⟩, rfl⟩)
      rw [Bool.and_eq_true, Bool.or_eq_true, Bool.not_eq_true']
      exact ⟨hu, hs⟩
    | @primaryKey key hpk =>
      refine List.mem_append_right _ ?_
      simp [hpk]

/-- The test for a clash. -/
theorem clash_eq_true_iff {group : List String} {mine theirs : Record} :
    clash group mine theirs = true ↔ Record.Clashes group mine theirs := by
  rw [clash, List.all_eq_true]
  refine forall₂_congr fun column _ => ?_
  rw [Bool.and_eq_true, Bool.not_eq_true', ← Bool.not_eq_true, Json.isNull_iff]
  refine and_congr_right fun hmine => ?_
  cases hv : Entries.get? theirs column with
  | none => simp [Record.value, hv]
  | some other =>
    have hvalue : Record.value theirs column = other := by simp [Record.value, hv]
    rw [hvalue]
    refine ⟨fun heq => ⟨?_, heq⟩, fun h => h.2⟩
    rintro rfl
    exact hmine (eq_null_of_valuesEqual_null heq)

variable {t t' : Table} {r : Record} {n : Nat} {replacing : Option RowKey}

/-- A record passes the check if it clashes with no row but the one that it replaces. -/
theorem clashingGroup?_eq_none_iff :
    t.clashingGroup? r replacing = none ↔
      ∀ e ∈ t.rows, replacing ≠ some e.1 → ∀ group, t.model.UniqueGroup group →
        ¬ Record.Clashes group r e.2.data := by
  rw [clashingGroup?, List.findSome?_eq_none_iff]
  constructor
  · intro h e he hr group hg hc
    have hnone := h e (List.mem_filter.mpr ⟨he, by simpa using hr⟩)
    exact List.find?_eq_none.mp hnone group (mem_uniqueGroups_iff.mpr hg)
      (clash_eq_true_iff.mpr hc)
  · intro h e he
    obtain ⟨he, hr⟩ := List.mem_filter.mp he
    rw [List.find?_eq_none]
    intro group hg hc
    exact h e he (by simpa using hr) group (mem_uniqueGroups_iff.mp hg) (clash_eq_true_iff.mp hc)

/-! ## Rows -/

/-- Putting a row in order adds it to the others. -/
theorem insertInOrder_perm (key : RowKey) (row : Row) (rows : List (RowKey × Row)) :
    (insertInOrder key row rows).Perm ((key, row) :: rows) := by
  induction rows with
  | nil => exact .refl _
  | cons e rest ih =>
    rw [insertInOrder]
    split_ifs
    · exact .refl _
    · exact (ih.cons e).trans (.swap _ _ _)

/-- Rows in strict order stay so if no row has the sequence number that is put among them. -/
theorem sorted_insertInOrder {key : RowKey} {row : Row} {rows : List (RowKey × Row)}
    (hs : rows.Pairwise fun a b => a.2.sequence < b.2.sequence)
    (hne : ∀ e ∈ rows, e.2.sequence ≠ row.sequence) :
    (insertInOrder key row rows).Pairwise fun a b => a.2.sequence < b.2.sequence := by
  induction rows with
  | nil => simp [insertInOrder]
  | cons e rest ih =>
    obtain ⟨he, hrest⟩ := List.pairwise_cons.mp hs
    have hlt := hne e List.mem_cons_self
    rw [insertInOrder]
    split_ifs with h
    · refine List.pairwise_cons.mpr ⟨?_, hs⟩
      intro e' he'
      rcases List.mem_cons.mp he' with rfl | hr
      · exact h
      · exact Nat.lt_trans h (he e' hr)
    · refine List.pairwise_cons.mpr ⟨?_, ih hrest fun e' he' => hne e' (List.mem_cons_of_mem _ he')⟩
      intro e' he'
      rcases List.mem_cons.mp ((insertInOrder_perm key row rest).mem_iff.mp he') with rfl | hr
      · exact Nat.lt_of_le_of_ne (Nat.not_lt.mp h) hlt
      · exact he e' hr

/-- The rows that storing under a key, in place of another row, leaves alone. -/
def bystanders (t : Table) (key : RowKey) (replacing : Option RowKey) : List (RowKey × Row) :=
  t.rows.filter fun e => e.1 ≠ key ∧ replacing ≠ some e.1

/-- A new record leaves all rows alone but one under its key. -/
theorem bystanders_none (t : Table) (key : RowKey) :
    t.bystanders key none = t.rows.filter fun e => e.1 ≠ key :=
  List.filter_congr fun e _ => decide_eq_decide.mpr (and_iff_left (by simp))

/-- A row is left alone if it stands under neither of the two keys. -/
theorem mem_bystanders {key : RowKey} {e : RowKey × Row} :
    e ∈ t.bystanders key replacing ↔ e ∈ t.rows ∧ e.1 ≠ key ∧ replacing ≠ some e.1 := by
  simp [bystanders]

/-- Storing succeeds exactly if the record clashes with no other row, and then it stands under its
key in the place of its sequence number. -/
theorem store_eq_ok_iff :
    t.store r n replacing = .ok t' ↔
      t.clashingGroup? r replacing = none ∧
        t' = { t with
          rows := insertInOrder (t.keyFor r n) ⟨n, r⟩ (t.bystanders (t.keyFor r n) replacing) } := by
  unfold store
  cases t.clashingGroup? r replacing with
  | some group => simp
  | none =>
    simp only [Except.ok.injEq, true_and, eq_comm (a := t')]
    refine Eq.congr_left ?_
    cases replacing with
    | none => simp [put, remove, bystanders]
    | some old =>
      by_cases h : old = t.keyFor r n
      · simp [put, remove, bystanders, h, eq_comm]
      · simp [put, remove, bystanders, h, List.filter_filter, eq_comm]

/-- Storing keeps the model, the counter and the next sequence number. -/
theorem store_frame (h : t.store r n replacing = .ok t') :
    t'.model = t.model ∧ t'.counter = t.counter ∧ t'.nextSequence = t.nextSequence := by
  obtain ⟨-, rfl⟩ := store_eq_ok_iff.mp h
  exact ⟨rfl, rfl, rfl⟩

/-- The rows after storing, up to their order. -/
theorem rows_store_perm (h : t.store r n replacing = .ok t') :
    t'.rows.Perm ((t.keyFor r n, ⟨n, r⟩) :: t.bystanders (t.keyFor r n) replacing) := by
  obtain ⟨-, rfl⟩ := store_eq_ok_iff.mp h
  exact insertInOrder_perm _ _ _

/-- The rows after storing. -/
theorem mem_rows_store (h : t.store r n replacing = .ok t') {e : RowKey × Row} :
    e ∈ t'.rows ↔ e = (t.keyFor r n, ⟨n, r⟩) ∨
      e ∈ t.rows ∧ e.1 ≠ t.keyFor r n ∧ replacing ≠ some e.1 := by
  rw [(rows_store_perm h).mem_iff, List.mem_cons, mem_bystanders]

/-- Storing keeps the keys of rows pairwise different. -/
theorem nodup_keys_store (hn : (t.rows.map (·.1)).Nodup) (h : t.store r n replacing = .ok t') :
    (t'.rows.map (·.1)).Nodup := by
  have hkept : (t.bystanders (t.keyFor r n) replacing).Sublist t.rows := List.filter_sublist
  refine ((rows_store_perm h).map (·.1)).nodup_iff.mpr (List.nodup_cons.mpr ⟨?_, ?_⟩)
  · intro hkey
    obtain ⟨e, he, heq⟩ := List.mem_map.mp hkey
    exact (mem_bystanders.mp he).2.1 heq
  · exact hn.sublist (hkept.map _)

end Table

end ModelGateway
