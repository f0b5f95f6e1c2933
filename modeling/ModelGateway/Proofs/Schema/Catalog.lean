import ModelGateway.Proofs.Except
import ModelGateway.Schema.Catalog

/-!
# Closed documents

A document has a type catalog exactly if it is closed: no two of its types have one name or that of
a scalar, every object type has a field, and every field is of a declared type, wherever in the
document that type is declared.

* **Declarations** (`Document.Declares`): what a name is declared as, said without the order in
  which the names are looked up. In a closed document a name has at most one kind
  (`Document.Closed.kind_unique`).
* **Names** (`TypeCatalog.checkNames_eq_ok_iff`): the names pass if none of them repeats or is a
  scalar.
* **Catalogs** (`TypeCatalog.ofDocument_closed`): which documents have a catalog, and which one.
-/

namespace ModelGateway

/-! ## Declarations -/

namespace Document

variable {d : Document} {name : String}

/-- A name is declared as a scalar, an enum or an object type. -/
inductive Declares (d : Document) (name : String) : TypeKind → Prop where
  | scalar (h : name ∈ TypeCatalog.scalarNames) : Declares d name .scalar
  | enum {e : EnumType} (he : e ∈ d.enums.toList) (h : e.name = name) : Declares d name .enum
  | object {t : ObjectType} (ht : t ∈ d.outputs.toList) (h : t.name = name) :
      Declares d name .object

/-- The types of a document can be told apart and refer to each other alone. -/
structure Closed (d : Document) : Prop where
  nodup : (TypeCatalog.declaredNames d).Nodup
  not_scalar : ∀ name ∈ TypeCatalog.declaredNames d, name ∉ TypeCatalog.scalarNames
  has_fields : ∀ t ∈ d.outputs.toList, t.fields ≠ []
  declared : ∀ t ∈ d.outputs.toList, ∀ f ∈ t.fields, ∃ kind, d.Declares f.type.typeName kind

theorem declares_enum_iff : d.Declares name .enum ↔ name ∈ d.enums.toList.map (·.name) := by
  rw [List.mem_map]
  constructor
  · rintro (_ | ⟨he, h⟩ | _)
    exact ⟨_, he, h⟩
  · rintro ⟨e, he, h⟩
    exact .enum he h

theorem declares_object_iff : d.Declares name .object ↔ name ∈ d.outputs.toList.map (·.name) := by
  rw [List.mem_map]
  constructor
  · rintro (_ | _ | ⟨ht, h⟩)
    exact ⟨_, ht, h⟩
  · rintro ⟨t, ht, h⟩
    exact .object ht h

theorem declares_scalar_iff : d.Declares name .scalar ↔ name ∈ TypeCatalog.scalarNames := by
  constructor
  · rintro ⟨h⟩
    exact h
  · exact .scalar

/-- No two kinds of types share a name. -/
theorem Closed.kind_unique (h : d.Closed) {kind other : TypeKind} (hkind : d.Declares name kind)
    (hother : d.Declares name other) : kind = other := by
  have henum : d.Declares name .enum → ¬ d.Declares name .object := by
    rw [declares_enum_iff, declares_object_iff]
    exact fun he ho => (List.nodup_append.mp h.nodup).2.2 name he name ho rfl
  have hscalar : d.Declares name .scalar →
      ¬ d.Declares name .enum ∧ ¬ d.Declares name .object := by
    rw [declares_scalar_iff, declares_enum_iff, declares_object_iff]
    intro hin
    constructor
    · exact fun he => h.not_scalar name (List.mem_append_left _ he) hin
    · exact fun ho => h.not_scalar name (List.mem_append_right _ ho) hin
  cases kind <;> cases other <;> simp_all

end Document

/-- A field stands in a catalog as the document has it, with the kind of its type. -/
structure OutputField.AppearsAs (d : Document) (f : OutputField) (g : CatalogField) : Prop where
  name : g.name = f.name
  arguments : g.arguments = f.arguments
  typeName : g.typeName = f.type.typeName
  isList : g.isList = f.type.isList
  isNullable : g.isNullable = f.isNullable
  kind : d.Declares f.type.typeName g.kind

/-- An object type stands in a catalog with its fields in order. -/
structure ObjectType.AppearsAs (d : Document) (t : ObjectType) (o : CatalogObject) : Prop where
  name : o.name = t.name
  fields : List.Forall₂ (OutputField.AppearsAs d) t.fields o.fields
  isModel : o.isModel = true ↔ ∃ m ∈ d.models, m.name = t.name

/-! ## Names -/

namespace TypeCatalog

/-- Names pass the check if none of them repeats or has been seen. -/
theorem checkNames_eq_ok_iff {seen names : List String} :
    checkNames seen names = .ok () ↔ names.Nodup ∧ ∀ name ∈ names, name ∉ seen := by
  induction names generalizing seen with
  | nil => exact iff_of_true rfl ⟨List.nodup_nil, by simp⟩
  | cons name rest ih =>
    rw [checkNames]
    by_cases hseen : name ∈ seen
    · rw [if_pos hseen]
      constructor
      · intro h
        cases h
      · rintro ⟨-, hfresh⟩
        exact absurd hseen (hfresh name List.mem_cons_self)
    · rw [if_neg hseen, ih, List.nodup_cons]
      constructor
      · rintro ⟨hnodup, hfresh⟩
        refine ⟨⟨fun hin => hfresh name hin List.mem_cons_self, hnodup⟩, ?_⟩
        refine List.forall_mem_cons.mpr ⟨hseen, fun other ho hin => ?_⟩
        exact hfresh other ho (List.mem_cons_of_mem _ hin)
      · rintro ⟨⟨hname, hnodup⟩, hfresh⟩
        refine ⟨hnodup, fun other ho hin => ?_⟩
        rcases List.mem_cons.mp hin with rfl | hin
        · exact hname ho
        · exact hfresh other (List.mem_cons_of_mem _ ho) hin

/-! ## Catalogs -/

variable {d : Document}

/-- The kind that lookup finds is one as which the name is declared. -/
theorem declares_of_kindOf? {name : String} {kind : TypeKind} (h : kindOf? d name = some kind) :
    d.Declares name kind := by
  unfold kindOf? at h
  split_ifs at h with hobject henum hscalar
  · cases h
    obtain ⟨t, ht, hname⟩ := List.any_eq_true.mp hobject
    exact .object ht (eq_of_beq hname)
  · cases h
    obtain ⟨e, he, hname⟩ := List.any_eq_true.mp henum
    exact .enum he (eq_of_beq hname)
  · cases h
    exact .scalar (List.contains_iff_mem.mp hscalar)

/-- Lookup finds a kind for every name that is declared. -/
theorem exists_kindOf? {name : String} {kind : TypeKind} (h : d.Declares name kind) :
    ∃ found, kindOf? d name = some found := by
  unfold kindOf?
  split_ifs with hobject henum hscalar
  · exact ⟨_, rfl⟩
  · exact ⟨_, rfl⟩
  · exact ⟨_, rfl⟩
  · exfalso
    cases h with
    | scalar hin => exact hscalar (List.contains_iff_mem.mpr hin)
    | enum he hname => exact henum (List.any_eq_true.mpr ⟨_, he, beq_iff_eq.mpr hname⟩)
    | object ht hname => exact hobject (List.any_eq_true.mpr ⟨_, ht, beq_iff_eq.mpr hname⟩)

/-- In a closed document lookup finds the kind as which a name is declared. -/
theorem kindOf?_eq_some_iff (hd : d.Closed) {name : String} {kind : TypeKind} :
    kindOf? d name = some kind ↔ d.Declares name kind := by
  constructor
  · exact declares_of_kindOf?
  · intro h
    obtain ⟨found, hfound⟩ := exists_kindOf? h
    rw [hfound, hd.kind_unique h (declares_of_kindOf? hfound)]

/-- A field has a place in a catalog if its type is declared. -/
theorem exists_fieldOf_iff {object : String} {f : OutputField} :
    (∃ g, fieldOf d object f = .ok g) ↔ ∃ kind, d.Declares f.type.typeName kind := by
  unfold fieldOf
  constructor
  · rintro ⟨g, h⟩
    split at h
    · rename_i kind hkind
      exact ⟨kind, declares_of_kindOf? hkind⟩
    · cases h
  · rintro ⟨kind, h⟩
    obtain ⟨found, hfound⟩ := exists_kindOf? h
    rw [hfound]
    exact ⟨_, rfl⟩

/-- An object type of a catalog has the fields of the output type, of which there is at least one.
-/
theorem objectOf_eq_ok_iff {t : ObjectType} {o : CatalogObject} :
    objectOf d t = .ok o ↔
      t.fields ≠ [] ∧ t.fields.mapM (fieldOf d t.name) = .ok o.fields ∧ o.name = t.name ∧
        o.isModel = (d.model? t.name).isSome := by
  obtain ⟨name, fields, isModel⟩ := o
  unfold objectOf
  rw [Except.bind_eq_ok_iff]
  constructor
  · rintro ⟨found, hfound, h⟩
    split at h
    · cases h
    · rename_i hsome
      cases h
      refine ⟨?_, hfound, rfl, rfl⟩
      rintro hempty
      rw [hempty] at hfound
      cases hfound
      exact hsome rfl
  · rintro ⟨hsome, hfound, rfl, rfl⟩
    have hnot : ¬ fields.isEmpty = true := by
      rw [List.isEmpty_iff_length_eq_zero, Except.length_of_mapM_eq_ok hfound]
      simpa using hsome
    refine ⟨fields, hfound, ?_⟩
    rw [if_neg hnot]
    rfl

/-- An object type has a place in a catalog if it has fields, all of declared types. -/
theorem exists_objectOf_iff {t : ObjectType} :
    (∃ o, objectOf d t = .ok o) ↔
      t.fields ≠ [] ∧ ∀ f ∈ t.fields, ∃ kind, d.Declares f.type.typeName kind := by
  have hfields : (∃ fields, t.fields.mapM (fieldOf d t.name) = .ok fields) ↔
      ∀ f ∈ t.fields, ∃ kind, d.Declares f.type.typeName kind := by
    simp only [Except.exists_mapM_eq_ok_iff, exists_fieldOf_iff]
  simp only [← hfields, objectOf_eq_ok_iff]
  constructor
  · rintro ⟨o, hsome, h, -⟩
    exact ⟨hsome, o.fields, h⟩
  · rintro ⟨hsome, fields, h⟩
    exact ⟨⟨t.name, fields, _⟩, hsome, h, rfl, rfl⟩

/-- A catalog has the enums of the document and its object types, if the names pass the check. -/
theorem ofDocument_eq_ok_iff {c : TypeCatalog} :
    ofDocument d = .ok c ↔
      checkNames scalarNames (declaredNames d) = .ok () ∧ c.enums = d.enums.toList ∧
        d.outputs.toList.mapM (objectOf d) = .ok c.objects := by
  obtain ⟨enums, objects⟩ := c
  unfold ofDocument
  rw [Except.bind_eq_ok_iff]
  constructor
  · rintro ⟨_, hnames, h⟩
    obtain ⟨found, hfound, h⟩ := Except.bind_eq_ok_iff.mp h
    cases h
    exact ⟨hnames, rfl, hfound⟩
  · rintro ⟨hnames, rfl, hobjects⟩
    exact ⟨(), hnames, Except.bind_eq_ok_iff.mpr ⟨objects, hobjects, rfl⟩⟩

/-- A document has a catalog if it is closed. -/
theorem exists_ofDocument_iff : (∃ c, ofDocument d = .ok c) ↔ d.Closed := by
  have hobjects : (∃ objects, d.outputs.toList.mapM (objectOf d) = .ok objects) ↔
      ∀ t ∈ d.outputs.toList, t.fields ≠ [] ∧
        ∀ f ∈ t.fields, ∃ kind, d.Declares f.type.typeName kind := by
    simp only [Except.exists_mapM_eq_ok_iff, exists_objectOf_iff]
  simp only [ofDocument_eq_ok_iff, checkNames_eq_ok_iff]
  constructor
  · rintro ⟨c, ⟨hnodup, hfresh⟩, -, h⟩
    have hall := hobjects.mp ⟨c.objects, h⟩
    exact ⟨hnodup, hfresh, fun t ht => (hall t ht).1, fun t ht => (hall t ht).2⟩
  · intro hd
    obtain ⟨objects, h⟩ := hobjects.mpr fun t ht => ⟨hd.has_fields t ht, hd.declared t ht⟩
    exact ⟨⟨d.enums.toList, objects⟩, ⟨hd.nodup, hd.not_scalar⟩, rfl, h⟩

/-- In a closed document the field of a catalog is the one that stands for the output field. -/
theorem fieldOf_eq_ok_iff (hd : d.Closed) {object : String} {f : OutputField} {g : CatalogField} :
    fieldOf d object f = .ok g ↔ f.AppearsAs d g := by
  unfold fieldOf
  constructor
  · intro h
    split at h
    · rename_i kind hkind
      cases h
      exact ⟨rfl, rfl, rfl, rfl, rfl, declares_of_kindOf? hkind⟩
    · cases h
  · intro h
    rw [(kindOf?_eq_some_iff hd).mpr h.kind]
    cases g
    cases h
    simp_all

/-- In a closed document the object type of a catalog is the one that stands for the output type.
-/
theorem objectOf_eq_ok_iff_appearsAs (hd : d.Closed) {t : ObjectType} (ht : t ∈ d.outputs.toList)
    {o : CatalogObject} : objectOf d t = .ok o ↔ t.AppearsAs d o := by
  have hmodel : (d.model? t.name).isSome = true ↔ ∃ m ∈ d.models, m.name = t.name := by
    simp [Document.model?]
  rw [objectOf_eq_ok_iff, Except.mapM_eq_ok_iff, and_iff_right (hd.has_fields t ht)]
  simp only [fieldOf_eq_ok_iff hd]
  constructor
  · rintro ⟨hfields, hname, h⟩
    exact ⟨hname, hfields, by rw [h, hmodel]⟩
  · rintro ⟨hname, hfields, h⟩
    exact ⟨hfields, hname, Bool.eq_iff_iff.mpr (h.trans hmodel.symm)⟩

/-- The object types of a closed document's catalog are those that stand for the output types. -/
theorem mapM_objectOf_eq_ok_iff (hd : d.Closed) {objects : List CatalogObject} :
    d.outputs.toList.mapM (objectOf d) = .ok objects ↔
      List.Forall₂ (ObjectType.AppearsAs d) d.outputs.toList objects := by
  have hall : ∀ R : ObjectType → CatalogObject → Prop,
      List.Forall₂ (fun t o => t ∈ d.outputs.toList ∧ R t o) d.outputs.toList objects ↔
        List.Forall₂ R d.outputs.toList objects := fun R =>
    (List.forall₂_and_left _ _).trans (and_iff_right fun _ ht => ht)
  rw [Except.mapM_eq_ok_iff, ← hall, ← hall (ObjectType.AppearsAs d)]
  simp only [and_congr_right fun ht => objectOf_eq_ok_iff_appearsAs hd ht]

/-- The object types of a catalog have the names of the output types. -/
theorem names_objects {c : TypeCatalog} (h : ofDocument d = .ok c) :
    c.objects.map (·.name) = d.outputs.toList.map (·.name) := by
  obtain ⟨-, -, hobjects⟩ := ofDocument_eq_ok_iff.mp h
  exact Except.map_eq_of_mapM_eq_ok (fun _ _ ho => (objectOf_eq_ok_iff.mp ho).2.2.1) hobjects

/-- The type of a field of a catalog is declared as the field says. -/
theorem declares_typeName {c : TypeCatalog} (h : ofDocument d = .ok c) {o : CatalogObject}
    (ho : o ∈ c.objects) {f : CatalogField} (hf : f ∈ o.fields) : d.Declares f.typeName f.kind := by
  have hd : d.Closed := exists_ofDocument_iff.mp ⟨c, h⟩
  obtain ⟨-, -, hobjects⟩ := ofDocument_eq_ok_iff.mp h
  obtain ⟨t, -, ht⟩ := Except.exists_of_mem_mapM hobjects ho
  obtain ⟨-, hfields, -⟩ := objectOf_eq_ok_iff.mp ht
  obtain ⟨g, -, hg⟩ := Except.exists_of_mem_mapM hfields hf
  have happears := (fieldOf_eq_ok_iff hd).mp hg
  rw [happears.typeName]
  exact happears.kind

/-- A document has a type catalog exactly if it is closed. The catalog then lists the enums and the
object types of the engine and after them those of the models, in their order and with their fields
as they are declared; the kind of a field is the one as which its type is declared, wherever that
declaration stands. -/
theorem ofDocument_closed (d : Document) :
    ((∃ c, ofDocument d = .ok c) ↔ d.Closed) ∧
    ∀ c, ofDocument d = .ok c ↔
      d.Closed ∧ c.enums = d.enums.engine ++ d.enums.model ∧
        List.Forall₂ (ObjectType.AppearsAs d) (d.outputs.engine ++ d.outputs.model) c.objects := by
  refine ⟨exists_ofDocument_iff, fun c => ?_⟩
  constructor
  · intro h
    have hd : d.Closed := exists_ofDocument_iff.mp ⟨c, h⟩
    obtain ⟨-, henums, hobjects⟩ := ofDocument_eq_ok_iff.mp h
    exact ⟨hd, henums, (mapM_objectOf_eq_ok_iff hd).mp hobjects⟩
  · rintro ⟨hd, henums, hobjects⟩
    have hnames := checkNames_eq_ok_iff.mpr ⟨hd.nodup, hd.not_scalar⟩
    exact ofDocument_eq_ok_iff.mpr ⟨hnames, henums, (mapM_objectOf_eq_ok_iff hd).mpr hobjects⟩

end TypeCatalog

end ModelGateway
