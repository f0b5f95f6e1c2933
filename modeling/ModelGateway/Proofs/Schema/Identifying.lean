import Mathlib.Data.List.Nodup
import ModelGateway.Proofs.Schema.RecordKey

/-!
# Identifying fields

The fields that identify the records of a model, whatever its primary key lists and whichever of its
fields are marked as ids: names may repeat, overlap or be declared nowhere.

* **Names** (`Model.Identifies`): the declared names of the primary key and the names of id fields,
  each once, those of the primary key first. This leaves one list only (`Identifies.unique`).
* **Order** (`Model.pairwise_firstOfEachName`): dropping repeated names keeps the first of each, so
  what stays is in the order of first occurrences.
* **Keys** (`Model.identifyingFields_exact`): a model has no identifying field exactly if it has no
  key to look a record up by, and then its relations cannot be read either.
-/

namespace ModelGateway

namespace Model

variable {m : Model} {f : Field} {a b name : String} {names other : List String}

/-- The names of the id fields in declaration order. -/
def idNames (m : Model) : List String :=
  (m.fields.filter (·.isId)).map (·.name)

/-- One name comes before another: the names of the primary key come first, in the order in which
they first occur there, and the others follow in the order of their first id field. -/
inductive Precedes (m : Model) (a b : String) : Prop
  | inKey (left : a ∈ m.primaryKeyNames) (right : b ∈ m.primaryKeyNames)
      (first : m.primaryKeyNames.idxOf a < m.primaryKeyNames.idxOf b)
  | keyFirst (left : a ∈ m.primaryKeyNames) (right : b ∉ m.primaryKeyNames)
  | ids (left : a ∉ m.primaryKeyNames) (right : b ∉ m.primaryKeyNames)
      (first : m.idNames.idxOf a < m.idNames.idxOf b)

/-- The list has the declared names of the primary key and the names of the id fields, each once and
in their order. -/
structure Identifies (m : Model) (names : List String) : Prop where
  mem_iff : ∀ name, name ∈ names ↔
    (name ∈ m.primaryKeyNames ∧ ∃ f ∈ m.fields, f.name = name) ∨
      ∃ f ∈ m.fields, f.isId = true ∧ f.name = name
  nodup : names.Nodup
  ordered : names.Pairwise m.Precedes

/-- Of two names only one comes before the other. -/
theorem Precedes.asymm (h : m.Precedes a b) : ¬ m.Precedes b a := by
  intro h'
  cases h with
  | inKey ha hb hlt =>
    cases h' with
    | inKey _ _ hlt' => exact Nat.lt_asymm hlt hlt'
    | keyFirst _ hnot => exact hnot ha
    | ids hnot _ _ => exact hnot hb
  | keyFirst ha hb =>
    cases h' with
    | inKey hb' _ _ | keyFirst hb' _ => exact hb hb'
    | ids _ hnot _ => exact hnot ha
  | ids ha hb hlt =>
    cases h' with
    | inKey hb' _ _ | keyFirst hb' _ => exact hb hb'
    | ids _ _ hlt' => exact Nat.lt_asymm hlt hlt'

/-- No name comes before itself. -/
theorem Precedes.ne (h : m.Precedes a b) : a ≠ b := by
  rintro rfl
  exact h.asymm h

/-- Only one list has these names in this order. -/
theorem Identifies.unique (h : m.Identifies names) (h' : m.Identifies other) : names = other := by
  have hperm : names.Perm other := by
    rw [List.perm_ext_iff_of_nodup h.nodup h'.nodup]
    exact fun name => (h.mem_iff name).trans (h'.mem_iff name).symm
  exact List.Perm.eq_of_pairwise (fun a b _ _ hab hba => absurd hba hab.asymm) h.ordered h'.ordered
    hperm

/-! ## Dropping repeated names -/

/-- What stays is in the order in which the names first occur. -/
theorem pairwise_firstOfEachName (seen : List String) (fields : List Field) :
    (firstOfEachName seen fields).Pairwise fun f g =>
      (fields.map (·.name)).idxOf f.name < (fields.map (·.name)).idxOf g.name := by
  induction fields generalizing seen with
  | nil => exact .nil
  | cons h rest ih =>
    -- a field that stays after `h` has another name, so its first occurrence is in the rest
    have hlater : ∀ seen, h.name ∈ seen → ∀ f ∈ firstOfEachName seen rest,
        ((h :: rest).map (·.name)).idxOf f.name = (rest.map (·.name)).idxOf f.name + 1 := by
      intro seen hseen f hf
      have hne : h.name ≠ f.name := by
        intro heq
        exact (mem_names_firstOfEachName.mp (List.mem_map_of_mem hf)).2 (heq ▸ hseen)
      rw [List.map_cons, List.idxOf_cons_ne _ hne]
    have hshifted : ∀ seen, h.name ∈ seen → (firstOfEachName seen rest).Pairwise fun f g =>
        ((h :: rest).map (·.name)).idxOf f.name < ((h :: rest).map (·.name)).idxOf g.name := by
      intro seen hseen
      refine (ih seen).imp_of_mem fun {f g} hf hg hlt => ?_
      rw [hlater seen hseen f hf, hlater seen hseen g hg]
      exact Nat.succ_lt_succ hlt
    rw [firstOfEachName]
    split_ifs with hseen
    · exact hshifted seen hseen
    · refine List.pairwise_cons.mpr ⟨fun f hf => ?_, hshifted _ List.mem_cons_self⟩
      rw [hlater _ List.mem_cons_self f hf, List.map_cons, List.idxOf_cons_self]
      exact Nat.succ_pos _

/-- What stays is the first field of its name. -/
theorem find?_of_mem_firstOfEachName {seen : List String} {fields : List Field}
    (h : f ∈ firstOfEachName seen fields) : fields.find? (·.name == f.name) = some f := by
  induction fields generalizing seen with
  | nil => simp [firstOfEachName] at h
  | cons g rest ih =>
    have hlater : ∀ seen, g.name ∈ seen → f ∈ firstOfEachName seen rest →
        (g :: rest).find? (·.name == f.name) = some f := by
      intro seen hseen hf
      have hne : g.name ≠ f.name := by
        intro heq
        exact (mem_names_firstOfEachName.mp (List.mem_map_of_mem hf)).2 (heq ▸ hseen)
      rw [List.find?_cons_of_neg (by simpa using hne)]
      exact ih hf
    rw [firstOfEachName] at h
    split_ifs at h with hseen
    · exact hlater seen hseen h
    · rcases List.mem_cons.mp h with rfl | hf
      · exact List.find?_cons_of_pos (beq_self_eq_true f.name)
      · exact hlater _ List.mem_cons_self hf

/-- A name that passes a test comes before another one that does if it does so among all names that
pass. -/
theorem idxOf_lt_of_filter {test : String → Bool} (ha : test a = true) (hb : test b = true)
    (h : (names.filter test).idxOf a < (names.filter test).idxOf b) :
    names.idxOf a < names.idxOf b := by
  induction names with
  | nil => simp at h
  | cons first rest ih =>
    cases htest : test first with
    | false =>
      have hne : ∀ c, test c = true → first ≠ c := by
        rintro c hc rfl
        rw [htest] at hc
        cases hc
      rw [List.filter_cons_of_neg (by simp [htest])] at h
      rw [List.idxOf_cons_ne _ (hne a ha), List.idxOf_cons_ne _ (hne b hb)]
      exact Nat.succ_lt_succ (ih h)
    | true =>
      rw [List.filter_cons_of_pos htest] at h
      by_cases hfa : first = a
      · subst hfa
        have hfb : first ≠ b := by
          rintro rfl
          exact absurd h (Nat.lt_irrefl _)
        rw [List.idxOf_cons_self, List.idxOf_cons_ne _ hfb]
        exact Nat.succ_pos _
      · by_cases hfb : first = b
        · subst hfb
          rw [List.idxOf_cons_self] at h
          exact absurd h (Nat.not_lt_zero _)
        · rw [List.idxOf_cons_ne _ hfa, List.idxOf_cons_ne _ hfb] at h ⊢
          exact Nat.succ_lt_succ (ih (Nat.lt_of_succ_lt_succ h))

/-! ## Names that identify -/

/-- Some field has a name exactly if one is found by it. -/
theorem field?_isSome_iff : (m.field? name).isSome = true ↔ ∃ f ∈ m.fields, f.name = name := by
  simp [field?]

/-- The fields that a list of names finds have the declared ones of these names. -/
theorem map_name_filterMap_field? (m : Model) (names : List String) :
    (names.filterMap m.field?).map (·.name) = names.filter fun name => (m.field? name).isSome := by
  induction names with
  | nil => rfl
  | cons name rest ih =>
    cases hfound : m.field? name with
    | none =>
      rw [List.filterMap_cons_none hfound, List.filter_cons_of_neg (by simp [hfound]), ih]
    | some f =>
      rw [List.filterMap_cons_some hfound, List.filter_cons_of_pos (by simp [hfound]),
        List.map_cons, name_of_field? hfound, ih]

/-- The names of the fields among which the identifying ones are found. -/
theorem map_name_candidates (m : Model) :
    (m.primaryKeyNames.filterMap m.field? ++ m.fields.filter (·.isId)).map (·.name) =
      (m.primaryKeyNames.filter fun name => (m.field? name).isSome) ++ m.idNames := by
  rw [List.map_append, map_name_filterMap_field?, idNames]

/-- The names of the id fields are declared. -/
theorem mem_idNames_iff : name ∈ m.idNames ↔ ∃ f ∈ m.fields, f.isId = true ∧ f.name = name := by
  simp [idNames, and_assoc]

/-- Where the declared names of the primary key are followed by those of the id fields, the first
occurrences are in the order of the identifying names. -/
theorem precedes_of_idxOf_lt {declared : List String}
    (hdeclared : declared = m.primaryKeyNames.filter fun name => (m.field? name).isSome)
    (ha : (m.field? a).isSome = true) (hb : (m.field? b).isSome = true)
    (h : (declared ++ m.idNames).idxOf a < (declared ++ m.idNames).idxOf b) : m.Precedes a b := by
  have hmem : ∀ c, (m.field? c).isSome = true → (c ∈ declared ↔ c ∈ m.primaryKeyNames) := by
    intro c hc
    rw [hdeclared, List.mem_filter, and_iff_left hc]
  rw [List.idxOf_append, List.idxOf_append] at h
  by_cases hka : a ∈ m.primaryKeyNames
  · by_cases hkb : b ∈ m.primaryKeyNames
    · rw [if_pos ((hmem a ha).mpr hka), if_pos ((hmem b hb).mpr hkb), hdeclared] at h
      exact .inKey hka hkb (idxOf_lt_of_filter ha hb h)
    · exact .keyFirst hka hkb
  · rw [if_neg (mt (hmem a ha).mp hka)] at h
    by_cases hkb : b ∈ m.primaryKeyNames
    · have hlt := List.idxOf_lt_length_of_mem ((hmem b hb).mpr hkb)
      rw [if_pos ((hmem b hb).mpr hkb)] at h
      omega
    · rw [if_neg (mt (hmem b hb).mp hkb)] at h
      exact .ids hka hkb (Nat.lt_of_add_lt_add_right h)

/-- The names of the identifying fields. -/
theorem mem_names_identifyingFields :
    name ∈ m.identifyingFields.map (·.name) ↔
      (name ∈ m.primaryKeyNames ∧ ∃ f ∈ m.fields, f.name = name) ∨
        ∃ f ∈ m.fields, f.isId = true ∧ f.name = name := by
  rw [identifyingFields, mem_names_firstOfEachName, and_iff_left List.not_mem_nil,
    map_name_candidates, List.mem_append, List.mem_filter, field?_isSome_iff, mem_idNames_iff]

/-- The identifying fields have the names that identify, in their order. -/
theorem identifies_identifyingFields (m : Model) :
    m.Identifies (m.identifyingFields.map (·.name)) := by
  have hdeclared : ∀ f ∈ m.identifyingFields, (m.field? f.name).isSome = true := fun f hf =>
    field?_isSome_iff.mpr ⟨f, mem_fields_of_mem_identifyingFields hf, rfl⟩
  have hordered : (m.identifyingFields.map (·.name)).Pairwise m.Precedes := by
    rw [List.pairwise_map]
    refine (pairwise_firstOfEachName [] _).imp_of_mem fun {f g} hf hg hlt => ?_
    rw [map_name_candidates] at hlt
    exact precedes_of_idxOf_lt rfl (hdeclared f hf) (hdeclared g hg) hlt
  exact ⟨fun name => mem_names_identifyingFields, hordered.imp Precedes.ne, hordered⟩

/-! ## Fields that identify -/

/-- An identifying field that the primary key names is the one that its name finds. -/
theorem field?_of_mem_identifyingFields (h : f ∈ m.identifyingFields)
    (hkey : f.name ∈ m.primaryKeyNames) : m.field? f.name = some f := by
  have hfirst := find?_of_mem_firstOfEachName h
  obtain ⟨g, hg⟩ := Option.isSome_iff_exists.mp
    (field?_isSome_iff.mpr ⟨f, mem_fields_of_mem_identifyingFields h, rfl⟩)
  cases hfound : (m.primaryKeyNames.filterMap m.field?).find? (·.name == f.name) with
  | none =>
    have hmem := List.mem_filterMap.mpr ⟨f.name, hkey, hg⟩
    exact absurd (beq_iff_eq.mpr (name_of_field? hg)) (List.find?_eq_none.mp hfound g hmem)
  | some g' =>
    rw [List.find?_append, hfound, Option.some_or, Option.some.injEq] at hfirst
    subst hfirst
    obtain ⟨name, -, hname⟩ := List.mem_filterMap.mp (List.mem_of_find?_eq_some hfound)
    rwa [name_of_field? hname]

/-- Any other identifying field is the first id field of its name. -/
theorem find?_id_of_mem_identifyingFields (h : f ∈ m.identifyingFields)
    (hkey : f.name ∉ m.primaryKeyNames) :
    (m.fields.filter (·.isId)).find? (·.name == f.name) = some f := by
  have hfirst := find?_of_mem_firstOfEachName h
  have hnone : (m.primaryKeyNames.filterMap m.field?).find? (·.name == f.name) = none := by
    rw [List.find?_eq_none]
    intro g hg hname
    have hmem : g.name ∈ (m.primaryKeyNames.filterMap m.field?).map (·.name) :=
      List.mem_map_of_mem hg
    rw [map_name_filterMap_field?, beq_iff_eq.mp hname] at hmem
    exact hkey (List.mem_filter.mp hmem).1
  rwa [List.find?_append, hnone, Option.none_or] at hfirst

/-- A model has no identifying field exactly if no field is an id or named by the primary key. -/
theorem identifyingFields_eq_nil_iff :
    m.identifyingFields = [] ↔ ∀ f ∈ m.fields, f.isId = false ∧ f.name ∉ m.primaryKeyNames := by
  constructor
  · intro hnil f hf
    have hnot : f.name ∉ m.identifyingFields.map (·.name) := by simp [hnil]
    rw [mem_names_identifyingFields, not_or] at hnot
    refine ⟨?_, fun hkey => hnot.1 ⟨hkey, f, hf, rfl⟩⟩
    exact Bool.eq_false_iff.mpr fun hid => hnot.2 ⟨f, hf, hid, rfl⟩
  · intro hnone
    rw [List.eq_nil_iff_forall_not_mem]
    intro f hf
    rcases mem_names_identifyingFields.mp (List.mem_map_of_mem hf) with ⟨hkey, g, hg, hname⟩ | hid
    · exact (hnone g hg).2 (hname ▸ hkey)
    · obtain ⟨g, hg, hid, -⟩ := hid
      rw [(hnone g hg).1] at hid
      cases hid

/-- The names of the identifying fields are the one list of the names that identify, in their order;
each is the field that the primary key finds by its name, or else the first id field of the name. A
model has none of them exactly if none of its fields is an id or in the primary key, and exactly
then it has no key and its relations cannot be read. -/
theorem identifyingFields_exact (m : Model) :
    (∀ names, m.Identifies names ↔ names = m.identifyingFields.map (·.name)) ∧
      (∀ f ∈ m.identifyingFields,
        (f.name ∈ m.primaryKeyNames → m.field? f.name = some f) ∧
        (f.name ∉ m.primaryKeyNames →
          (m.fields.filter (·.isId)).find? (·.name == f.name) = some f)) ∧
      (m.identifyingFields = [] ↔ ∀ f ∈ m.fields, f.isId = false ∧ f.name ∉ m.primaryKeyNames) ∧
      (RecordKey.ofModel? m = none ↔ m.identifyingFields = []) ∧
      (RelationReader.ofModel? m = none ↔ m.identifyingFields = []) := by
  have hnames := m.identifies_identifyingFields
  refine ⟨fun names => ⟨fun h => h.unique hnames, ?_⟩, fun f hf => ⟨?_, ?_⟩,
    identifyingFields_eq_nil_iff, RecordKey.ofModel?_eq_none_iff, ?_⟩
  · rintro rfl
    exact hnames
  · exact field?_of_mem_identifyingFields hf
  · exact find?_id_of_mem_identifyingFields hf
  · rw [RelationReader.ofModel?, Option.map_eq_none_iff, RecordKey.ofModel?_eq_none_iff]

end Model

end ModelGateway
