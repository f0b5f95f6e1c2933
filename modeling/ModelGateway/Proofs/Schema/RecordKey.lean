import ModelGateway.Proofs.Json.Entries
import ModelGateway.Record.Filter
import ModelGateway.Schema.Relation

/-!
# Filters of keys

A record that the caller has is found again by a `where` that is made of its key
(`RecordKey.filter`). The reader of filters knows the key of a model by the same names.

* **Models** (`Model.Addressable`): models with a key of declared columns whose name means nothing
  else in a filter.
* **Filters** (`Model.Addressable.exists_filter`): for such a model the `where` of a record can be
  read, and a record passes it exactly if it has equal values in all fields of the key.
-/

namespace ModelGateway

/-! ## Fields of keys -/

namespace Model

variable {m : Model} {f : Field}

/-- Dropping repeated names adds no field. -/
theorem mem_of_mem_firstOfEachName {seen : List String} {fields : List Field}
    (h : f ∈ firstOfEachName seen fields) : f ∈ fields := by
  induction fields generalizing seen with
  | nil => simp [firstOfEachName] at h
  | cons g rest ih =>
    rw [firstOfEachName] at h
    split_ifs at h
    · exact List.mem_cons_of_mem _ (ih h)
    · rcases List.mem_cons.mp h with rfl | h
      · exact List.mem_cons_self
      · exact List.mem_cons_of_mem _ (ih h)

/-- Dropping repeated names loses no name but those seen before. -/
theorem mem_names_firstOfEachName {seen : List String} {fields : List Field} {name : String} :
    name ∈ (firstOfEachName seen fields).map (·.name) ↔
      name ∈ fields.map (·.name) ∧ name ∉ seen := by
  induction fields generalizing seen with
  | nil => simp [firstOfEachName]
  | cons f rest ih =>
    rw [firstOfEachName]
    split_ifs with hseen
    · rw [ih, List.map_cons, List.mem_cons]
      refine ⟨fun h => ⟨.inr h.1, h.2⟩, fun h => ⟨h.1.resolve_left ?_, h.2⟩⟩
      rintro rfl
      exact h.2 hseen
    · rw [List.map_cons, List.mem_cons, ih, List.map_cons, List.mem_cons, List.mem_cons]
      by_cases hname : name = f.name
      · simp [hname, hseen]
      · simp [hname]

/-- Identifying fields are declared. -/
theorem mem_fields_of_mem_identifyingFields (h : f ∈ m.identifyingFields) : f ∈ m.fields := by
  rcases List.mem_append.mp (mem_of_mem_firstOfEachName h) with hkey | hid
  · obtain ⟨name, -, hfield⟩ := List.mem_filterMap.mp hkey
    exact List.mem_of_find?_eq_some hfield
  · exact (List.mem_filter.mp hid).1

/-- The field that a name finds has the name. -/
theorem name_of_field? {name : String} (h : m.field? name = some f) : f.name = name := by
  simpa using List.find?_some h

/-- Where the names of fields differ, a field is found by its name. -/
theorem field?_eq_some_of_mem (hn : (m.fields.map (·.name)).Nodup) (h : f ∈ m.fields) :
    m.field? f.name = some f := by
  cases hfound : m.field? f.name with
  | none => simpa using List.find?_eq_none.mp hfound f h
  | some g =>
    rw [List.inj_on_of_nodup_map hn (List.mem_of_find?_eq_some hfound) h (name_of_field? hfound)]

end Model

/-! ## Addressable models -/

/-- The name under which a key stands in a `where`. -/
def RecordKey.name : RecordKey → String
  | .single field => field
  | .compound name _ => name

namespace RecordKey

variable {m : Model} {name : String} {parts : List String}

/-- The part of a key is the value of its column. -/
@[simp] theorem part_eq_value (r : Record) (column : String) :
    part r column = Record.value r column :=
  rfl

/-- Only a model without identifying fields has no key. -/
theorem ofModel?_eq_none_iff : ofModel? m = none ↔ m.identifyingFields = [] := by
  unfold ofModel?
  split <;> simp_all

/-- A key of one field is that of a model with one identifying field. -/
theorem ofModel?_eq_single (h : ofModel? m = some (.single name)) :
    ∃ f, m.identifyingFields = [f] ∧ f.name = name := by
  unfold ofModel? at h
  split at h
  · cases h
  · next f hids =>
    cases h
    exact ⟨f, hids, rfl⟩
  · cases h

/-- A key of several fields has all identifying fields of its model. -/
theorem ofModel?_eq_compound (h : ofModel? m = some (.compound name parts)) :
    1 < m.identifyingFields.length ∧ m.compoundKeyName m.identifyingFields = name ∧
      parts = m.identifyingFields.map (·.name) := by
  unfold ofModel? at h
  split at h
  · cases h
  · cases h
  · next hnil hone =>
    cases h
    refine ⟨?_, rfl, rfl⟩
    rcases hids : m.identifyingFields with _ | ⟨f, _ | ⟨g, rest⟩⟩
    · exact absurd hids hnil
    · exact absurd hids (hone f)
    · simp

end RecordKey

/-- The names of combinators. -/
theorem Filter.Combinator.ofName?_eq_none_iff {name : String} :
    Filter.Combinator.ofName? name = none ↔ name ∉ ["AND", "OR", "NOT"] := by
  unfold Filter.Combinator.ofName?
  split <;> simp_all

/-- The model has a key of declared columns, and the name of the key means nothing else in a
filter. -/
structure Model.Addressable (m : Model) : Prop where
  identified : m.identifyingFields ≠ []
  names_nodup : (m.fields.map (·.name)).Nodup
  declared : ∀ column ∈ m.primaryKeyNames, (m.field? column).isSome
  columns : ∀ f ∈ m.identifyingFields, f.isRelation = false
  no_combinator : ∀ key, RecordKey.ofModel? m = some key → key.name ∉ ["AND", "OR", "NOT"]
  no_field : ∀ name parts, RecordKey.ofModel? m = some (.compound name parts) → m.field? name = none

/-! ## Filters -/

namespace Filter

/-- A record passes the filter of a column and a value if its value is equal. -/
theorem matches_equals (column : String) (value : Json) (r : Record) :
    (equals column value).matches r = valuesEqual (Record.value r column) value := by
  simp [equals, Filter.matches, Condition.holds]

/-- A record passes a conjunction if it passes every part. -/
theorem matchesAll_eq_all (parts : List Filter) (r : Record) :
    matchesAll parts r = parts.all (·.matches r) := by
  induction parts with
  | nil => rfl
  | cons part rest ih => simp [matchesAll, ih]

/-- A value that is no object is a condition to be equal to it. -/
theorem condition_ofJson {value : Json} (h : value.isObject = false) :
    Condition.ofJson value = .ok (.equals value) := by
  cases value with
  | obj => cases h
  | _ => simp [Condition.ofJson]

/-- The parts of a compound key are read if all are there. -/
theorem keyParts_eq_ok (key : String) {parts : Entries Json} {value : String → Json} :
    {fields : List Field} → (∀ f ∈ fields, parts.get? f.name = some (value f.name)) →
    keyParts key parts fields = .ok (fields.map fun f => equals f.name (value f.name))
  | [], _ => rfl
  | f :: rest, h => by
    obtain ⟨hf, hrest⟩ := List.forall_mem_cons.mp h
    simp [keyParts, hf, keyParts_eq_ok key hrest, bind, Except.bind, pure, Except.pure]

/-- A `where` with one entry that is no combinator is read as this entry. -/
theorem ofArgument_single {m : Model} {name : String} {value : Json}
    (h : name ∉ ["AND", "OR", "NOT"]) :
    ofArgument m (some (.obj [(name, value)])) = ofEntry m name value := by
  have hname := Combinator.ofName?_eq_none_iff.mpr h
  cases value <;>
    simp only [ofArgument, ofJson, ofEntries, hname] <;>
    cases ofEntry m name _ <;>
    rfl

end Filter

namespace Model.Addressable

variable {m : Model} {r : Record} {f : Field}

/-- The fields of the key are found by their names. -/
theorem field?_eq (hm : m.Addressable) (hf : f ∈ m.identifyingFields) :
    m.field? f.name = some f :=
  field?_eq_some_of_mem hm.names_nodup (mem_fields_of_mem_identifyingFields hf)

/-- The `where` of a key with one field is the filter of this column. -/
theorem ofArgument_single (hm : m.Addressable) (hids : m.identifyingFields = [f])
    (hr : (Record.value r f.name).isObject = false) :
    Filter.ofArgument m (some ((RecordKey.single f.name).filter r)) =
      .ok (.equals f.name (Record.value r f.name)) := by
  have hf : f ∈ m.identifyingFields := by simp [hids]
  have hkey : RecordKey.ofModel? m = some (.single f.name) := by
    simp [RecordKey.ofModel?, hids]
  have hname : f.name ∉ ["AND", "OR", "NOT"] := hm.no_combinator _ hkey
  rw [RecordKey.filter, Filter.ofArgument_single hname]
  simp [Filter.ofEntry, hm.field?_eq hf, hm.columns f hf, Filter.condition_ofJson hr, Except.map,
    Filter.equals]

/-- The `where` of a key with several fields is the conjunction of the filters of these columns. -/
theorem ofArgument_compound (hm : m.Addressable) {name : String} {parts : List String}
    (hkey : RecordKey.ofModel? m = some (.compound name parts)) :
    Filter.ofArgument m (some ((RecordKey.compound name parts).filter r)) =
      .ok (.and (m.identifyingFields.map fun f => .equals f.name (Record.value r f.name))) := by
  have hname : name ∉ ["AND", "OR", "NOT"] := hm.no_combinator _ hkey
  have hfield : m.field? name = none := hm.no_field _ _ hkey
  obtain ⟨hlen, hkeyName, rfl⟩ := RecordKey.ofModel?_eq_compound hkey
  have hcompound : Filter.isCompoundKey m name = true := by
    simp [Filter.isCompoundKey, hlen, hkeyName]
  have hparts : ∀ f ∈ m.identifyingFields,
      (Entries.ofList ((m.identifyingFields.map (·.name)).map fun column =>
        (column, RecordKey.part r column))).get? f.name = some (Record.value r f.name) := by
    intro f hf
    rw [Entries.get?_ofList_map, if_pos (List.mem_map_of_mem hf), RecordKey.part_eq_value]
  rw [RecordKey.filter, Filter.ofArgument_single hname, Filter.ofEntry, hfield]
  simp only [hcompound, if_true, Filter.keyParts_eq_ok name hparts]
  rfl

/-- The `where` of a record can be read if no value of its key is an object, and then exactly the
records with equal values in the fields of the key pass it. -/
theorem exists_filter (hm : m.Addressable)
    (hr : ∀ f ∈ m.identifyingFields, (Record.value r f.name).isObject = false) :
    ∃ key filter, RecordKey.ofModel? m = some key ∧
      Filter.ofArgument m (some (key.filter r)) = .ok filter ∧
      ∀ other, filter.matches other = true ↔ ∀ f ∈ m.identifyingFields,
        valuesEqual (Record.value other f.name) (Record.value r f.name) = true := by
  cases hkey : RecordKey.ofModel? m with
  | none => exact absurd (RecordKey.ofModel?_eq_none_iff.mp hkey) hm.identified
  | some key =>
    cases key with
    | single name =>
      obtain ⟨f, hids, rfl⟩ := RecordKey.ofModel?_eq_single hkey
      have hf : f ∈ m.identifyingFields := by simp [hids]
      refine ⟨_, _, rfl, hm.ofArgument_single hids (hr f hf), fun other => ?_⟩
      simp [hids, Filter.matches_equals]
    | compound name parts =>
      refine ⟨_, _, rfl, hm.ofArgument_compound hkey, fun other => ?_⟩
      simp [Filter.matches, Filter.matchesAll_eq_all, Filter.matches_equals]

end Model.Addressable

end ModelGateway
