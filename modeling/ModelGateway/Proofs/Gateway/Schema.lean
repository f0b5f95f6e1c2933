import ModelGateway.Gateway.Schema
import ModelGateway.Proofs.Schema.Catalog
import ModelGateway.Proofs.Schema.Routing

/-!
# Documents without a schema

A catalog and resolvers form a schema if no object type has two fields of one name and every root
field has a route. Fields of one name are not an error that the gateway can report: whoever builds
a schema with them fails for good.

* **Catalogs** (`TypeCatalog.outlines_eq`): the object types of a catalog have the fields that the
  document gives them, so a name repeats in the catalog exactly if it does in the document.
* **Checks** (`Schema.checkObjects_eq_ok_iff`, `Schema.checkObjects_eq_repeatedField_iff`): object
  types are checked in order and field by field, up to the first one that has no route or repeats.
* **Documents** (`Schema.build_breaks_iff`): the documents that have a catalog and resolvers, and
  whose schema breaks at a repeated field.
* **Repeated fields** (`Schema.repeated_field_breaks`): there are such documents.
-/

namespace ModelGateway

/-! ## Outlines -/

/-- The name of an object type and the names of its fields. -/
def ObjectType.outline (t : ObjectType) : String × List String :=
  (t.name, t.fields.map (·.name))

/-- The name of an object type and the names of its fields. -/
def CatalogObject.outline (o : CatalogObject) : String × List String :=
  (o.name, o.fields.map (·.name))

namespace TypeCatalog

variable {d : Document} {catalog : TypeCatalog}

/-- The object type of a catalog has the fields of the output type. -/
theorem outline_of_objectOf {t : ObjectType} {o : CatalogObject} (h : objectOf d t = .ok o) :
    o.outline = t.outline := by
  have hname : ∀ f g, fieldOf d t.name f = .ok g → g.name = f.name := by
    intro f g hg
    unfold fieldOf at hg
    split at hg
    · cases hg
      rfl
    · cases hg
  obtain ⟨-, hfields, hobject, -⟩ := objectOf_eq_ok_iff.mp h
  exact Prod.ext hobject (Except.map_eq_of_mapM_eq_ok hname hfields)

/-- The object types of a catalog are those of the document, with their fields. -/
theorem outlines_eq (h : ofDocument d = .ok catalog) :
    catalog.objects.map (·.outline) = d.outputs.toList.map (·.outline) := by
  obtain ⟨-, -, hobjects⟩ := ofDocument_eq_ok_iff.mp h
  exact Except.map_eq_of_mapM_eq_ok (fun _ _ => outline_of_objectOf) hobjects

/-- No field repeats in a catalog if none repeats in the document. -/
theorem nodup_fields_iff (h : ofDocument d = .ok catalog) :
    (∀ o ∈ catalog.objects, (o.fields.map (·.name)).Nodup) ↔
      ∀ t ∈ d.outputs.toList, (t.fields.map (·.name)).Nodup := by
  have hnodup : (∀ o ∈ catalog.objects, (o.fields.map (·.name)).Nodup) ↔
      ∀ x ∈ catalog.objects.map (·.outline), x.2.Nodup := by
    simp [CatalogObject.outline]
  rw [hnodup, outlines_eq h]
  simp [ObjectType.outline]

end TypeCatalog

/-! ## Checks -/

namespace Schema

variable {dispatch : Dispatch} {object field : String} {seen names : List String}

/-- No field of an object type repeats, and all fields of a root type are answered. -/
structure Accepts (answered : String → Prop) (outline : String × List String) : Prop where
  nodup : outline.2.Nodup
  routed : isRoot outline.1 = true → ∀ name ∈ outline.2, answered name

/-- Before a field of an object type could go without an answer, one has the name of another. -/
def Repeats (answered : String → Prop) (outline : String × List String) (field : String) : Prop :=
  ∃ before after, outline.2 = before ++ field :: after ∧ Accepts answered (outline.1, before) ∧
    field ∈ before

/-- One step of the check: a field without a route ends it, and so does one that has been seen. -/
theorem checkFields_cons (name : String) (rest : List String) :
    checkFields dispatch object seen (name :: rest) =
      if isRoot object = true → dispatch.contains name = true then
        if name ∈ seen then .error (.repeatedField object name)
        else checkFields dispatch object (name :: seen) rest
      else .error (.unrouted name) := by
  rw [checkFields]
  cases isRoot object <;> cases dispatch.contains name <;> simp

/-- The fields of an object type pass the check if none of them repeats and the root fields among
them have routes. -/
theorem checkFields_eq_ok_iff :
    checkFields dispatch object seen names = .ok () ↔
      (∀ name ∈ names, name ∉ seen) ∧
        Accepts (fun name => dispatch.contains name = true) (object, names) := by
  induction names generalizing seen with
  | nil => exact iff_of_true rfl ⟨by simp, List.nodup_nil, by simp⟩
  | cons name rest ih =>
    rw [checkFields_cons]
    constructor
    · intro h
      split_ifs at h with hroute hseen
      obtain ⟨hfresh, hrest⟩ := ih.mp h
      refine ⟨List.forall_mem_cons.mpr ⟨hseen, fun other ho => ?_⟩,
        List.nodup_cons.mpr ⟨?_, ?_⟩, ?_⟩
      · exact fun hin => hfresh other ho (List.mem_cons_of_mem _ hin)
      · exact fun hin => hfresh name hin List.mem_cons_self
      · exact hrest.nodup
      · exact fun hroot => List.forall_mem_cons.mpr ⟨hroute hroot, hrest.routed hroot⟩
    · rintro ⟨hfresh, haccepts⟩
      obtain ⟨hname, hrest⟩ := List.forall_mem_cons.mp hfresh
      obtain ⟨hnot, hnodup⟩ := List.nodup_cons.mp haccepts.nodup
      rw [if_pos fun hroot => haccepts.routed hroot name List.mem_cons_self, if_neg hname]
      refine ih.mpr ⟨?_, hnodup, ?_⟩
      · intro other ho hin
        rcases List.mem_cons.mp hin with rfl | hin
        · exact hnot ho
        · exact hrest other ho hin
      · exact fun hroot other ho => haccepts.routed hroot other (List.mem_cons_of_mem _ ho)

/-- The check of an object type breaks at the first field that repeats, if all fields up to it pass.
-/
theorem checkFields_eq_repeatedField_iff {type : String} :
    checkFields dispatch object seen names = .error (.repeatedField type field) ↔
      type = object ∧ ∃ before after, names = before ++ field :: after ∧
        (∀ name ∈ before, name ∉ seen) ∧
        Accepts (fun name => dispatch.contains name = true) (object, before) ∧
        (isRoot object = true → dispatch.contains field = true) ∧
        (field ∈ seen ∨ field ∈ before) := by
  induction names generalizing seen with
  | nil => simp [checkFields]
  | cons name rest ih =>
    rw [checkFields_cons]
    constructor
    · intro h
      split_ifs at h with hroute hseen
      · cases h
        refine ⟨rfl, [], rest, rfl, by simp, ⟨List.nodup_nil, by simp⟩, hroute, .inl hseen⟩
      · obtain ⟨rfl, before, after, rfl, hfresh, haccepts, hfield, hrepeats⟩ := ih.mp h
        refine ⟨rfl, name :: before, after, rfl, ?_, ⟨?_, ?_⟩, hfield, ?_⟩
        · refine List.forall_mem_cons.mpr ⟨hseen, fun other ho hin => ?_⟩
          exact hfresh other ho (List.mem_cons_of_mem _ hin)
        · refine List.nodup_cons.mpr ⟨?_, haccepts.nodup⟩
          exact fun hin => hfresh name hin List.mem_cons_self
        · exact fun hroot => List.forall_mem_cons.mpr ⟨hroute hroot, haccepts.routed hroot⟩
        · rcases hrepeats with hin | hin
          · rcases List.mem_cons.mp hin with rfl | hin
            · exact .inr List.mem_cons_self
            · exact .inl hin
          · exact .inr (List.mem_cons_of_mem _ hin)
      · cases h
    · rintro ⟨rfl, before, after, hnames, hfresh, haccepts, hfield, hrepeats⟩
      cases before with
      | nil =>
        cases hnames
        rw [if_pos hfield, if_pos (hrepeats.resolve_right List.not_mem_nil)]
      | cons first before =>
        cases hnames
        obtain ⟨hname, hrest⟩ := List.forall_mem_cons.mp hfresh
        obtain ⟨hnot, hnodup⟩ := List.nodup_cons.mp haccepts.nodup
        rw [if_pos fun hroot => haccepts.routed hroot name List.mem_cons_self, if_neg hname]
        refine ih.mpr ⟨rfl, before, after, rfl, ?_, ⟨hnodup, ?_⟩, hfield, ?_⟩
        · intro other ho hin
          rcases List.mem_cons.mp hin with rfl | hin
          · exact hnot ho
          · exact hrest other ho hin
        · exact fun hroot other ho => haccepts.routed hroot other (List.mem_cons_of_mem _ ho)
        · rcases hrepeats with hin | hin
          · exact .inl (List.mem_cons_of_mem _ hin)
          · rcases List.mem_cons.mp hin with rfl | hin
            · exact .inl List.mem_cons_self
            · exact .inr hin

/-- The fields of an object type pass the check if the object type is accepted. -/
theorem checkFields_outline_eq_ok_iff {o : CatalogObject} :
    checkFields dispatch o.name [] (o.fields.map (·.name)) = .ok () ↔
      Accepts (fun name => dispatch.contains name = true) o.outline :=
  checkFields_eq_ok_iff.trans (and_iff_right fun _ _ => List.not_mem_nil)

/-- The check of an object type breaks if a field repeats before one could go without an answer. -/
theorem checkFields_outline_iff {o : CatalogObject} {type : String} :
    checkFields dispatch o.name [] (o.fields.map (·.name)) = .error (.repeatedField type field) ↔
      type = o.name ∧ Repeats (fun name => dispatch.contains name = true) o.outline field := by
  rw [checkFields_eq_repeatedField_iff]
  refine and_congr_right fun _ => exists_congr fun before => exists_congr fun after => ?_
  constructor
  · rintro ⟨hnames, -, haccepts, -, hrepeats⟩
    exact ⟨hnames, haccepts, hrepeats.resolve_left List.not_mem_nil⟩
  · rintro ⟨hnames, haccepts, hin⟩
    exact ⟨hnames, fun _ _ => List.not_mem_nil, haccepts,
      fun hroot => haccepts.routed hroot field hin, .inr hin⟩

/-- The object types pass the check if each of them is accepted. -/
theorem checkObjects_eq_ok_iff {objects : List CatalogObject} :
    checkObjects dispatch objects = .ok () ↔
      ∀ o ∈ objects, Accepts (fun name => dispatch.contains name = true) o.outline := by
  induction objects with
  | nil => exact iff_of_true rfl (by simp)
  | cons o rest ih =>
    rw [checkObjects, List.forall_mem_cons, ← checkFields_outline_eq_ok_iff, ← ih]
    constructor
    · intro h
      split at h
      · cases h
      · rename_i hok
        exact ⟨hok, h⟩
    · rintro ⟨hok, hrest⟩
      rw [hok]
      exact hrest

/-- The check of object types breaks at the first one that does not pass, if one of its fields
repeats. -/
theorem checkObjects_eq_repeatedField_iff {objects : List CatalogObject} {type : String} :
    checkObjects dispatch objects = .error (.repeatedField type field) ↔
      ∃ before outline after, objects.map (·.outline) = before ++ outline :: after ∧
        (∀ o ∈ before, Accepts (fun name => dispatch.contains name = true) o) ∧
        type = outline.1 ∧ Repeats (fun name => dispatch.contains name = true) outline field := by
  induction objects with
  | nil => simp [checkObjects]
  | cons o rest ih =>
    rw [checkObjects, List.map_cons]
    constructor
    · intro h
      split at h
      · rename_i fault hfault
        cases h
        obtain ⟨htype, hrepeats⟩ := checkFields_outline_iff.mp hfault
        exact ⟨[], o.outline, _, rfl, by simp, htype, hrepeats⟩
      · rename_i hok
        obtain ⟨before, outline, after, hrest, hbefore, htype, hrepeats⟩ := ih.mp h
        refine ⟨o.outline :: before, outline, after, ?_, ?_, htype, hrepeats⟩
        · rw [hrest, List.cons_append]
        · exact List.forall_mem_cons.mpr ⟨checkFields_outline_eq_ok_iff.mp hok, hbefore⟩
    · rintro ⟨before, outline, after, houtlines, hbefore, htype, hrepeats⟩
      cases before with
      | nil =>
        cases houtlines
        rw [checkFields_outline_iff.mpr ⟨htype, hrepeats⟩]
      | cons first before =>
        obtain ⟨rfl, hrest⟩ := List.cons.inj houtlines
        obtain ⟨hfirst, hbefore⟩ := List.forall_mem_cons.mp hbefore
        rw [checkFields_outline_eq_ok_iff.mpr hfirst]
        exact ih.mpr ⟨before, outline, after, hrest, hbefore, htype, hrepeats⟩

end Schema

/-! ## Documents -/

/-- A root field is answered if the document claims it, or if it is a raw field. -/
def Document.Answers (d : Document) (field : String) : Prop :=
  field ∈ Entries.names (Dispatch.claims d) ∨ field ∈ Entries.names (Dispatch.rawFields d)

/-- The table of a document has routes for the fields that are answered. -/
theorem Dispatch.contains_iff {d : Document} {dispatch : Dispatch}
    (h : ofDocument d = .ok dispatch) {field : String} :
    dispatch.contains field = true ↔ d.Answers field := by
  rw [contains, Entries.contains, Option.isSome_iff_ne_none, ne_eq, Entries.get?_eq_none_iff,
    not_not, (ofDocument_eq_ok_iff.mp h).2, Entries.names, List.map_append, List.mem_append]
  refine or_congr_right' fun hclaimed => ?_
  constructor
  · intro hin
    obtain ⟨e, he, rfl⟩ := List.mem_map.mp hin
    exact Entries.name_mem_names (List.mem_filter.mp (List.mem_eraseDups.mp he)).1
  · intro hin
    obtain ⟨e, he, rfl⟩ := List.mem_map.mp hin
    refine List.mem_map_of_mem (List.mem_eraseDups.mpr (List.mem_filter.mpr ⟨he, ?_⟩))
    exact decide_eq_true hclaimed

/-- The resolvers of a document have its table of routes. -/
theorem Resolvers.dispatch_of_ofDocument {d : Document} {resolvers : Resolvers}
    (h : ofDocument d = .ok resolvers) : Dispatch.ofDocument d = .ok resolvers.dispatch := by
  unfold ofDocument at h
  split at h
  · cases h
  · split at h
    · cases h
    · rename_i hdispatch
      cases h
      exact hdispatch

namespace Schema

variable {d : Document} {catalog : TypeCatalog} {resolvers : Resolvers}

/-- A catalog has a type of queries exactly if the document has one. -/
theorem isNone_query_iff (h : TypeCatalog.ofDocument d = .ok catalog) :
    (catalog.object? queryType).isNone = true ↔ ∀ t ∈ d.outputs.toList, t.name ≠ queryType := by
  have hnames : catalog.objects.map (·.name) = d.outputs.toList.map (·.name) := by
    have houtlines := congrArg (List.map Prod.fst) (TypeCatalog.outlines_eq h)
    simpa [CatalogObject.outline, ObjectType.outline, Function.comp_def] using houtlines
  have hmem : (∀ o ∈ catalog.objects, o.name ≠ queryType) ↔ queryType ∉ catalog.objects.map (·.name)
      := by simp
  rw [TypeCatalog.object?, Option.isNone_iff_eq_none, List.find?_eq_none]
  simp only [beq_iff_eq]
  rw [hmem, hnames]
  simp

/-- Building breaks, with no error that could be reported, exactly if the check of the object types
does. -/
theorem build_breaks_iff_checkObjects (limits : SchemaLimits) :
    (∃ fault, build catalog resolvers limits = .error fault ∧ fault.toError? = none) ↔
      (catalog.object? queryType).isNone = false ∧
        ∃ type field, checkObjects resolvers.dispatch catalog.objects =
          .error (.repeatedField type field) := by
  unfold build
  constructor
  · rintro ⟨fault, hbuild, hsilent⟩
    split at hbuild
    · cases hbuild
      cases hsilent
    · rename_i hquery
      refine ⟨Bool.eq_false_iff.mpr hquery, ?_⟩
      split at hbuild
      · rename_i hcheck
        cases hbuild
        cases fault with
        | repeatedField type field => exact ⟨type, field, hcheck⟩
        | _ => cases hsilent
      · split at hbuild
        · cases hbuild
          cases hsilent
        · cases hbuild
  · rintro ⟨hquery, type, field, hcheck⟩
    refine ⟨.repeatedField type field, ?_, rfl⟩
    rw [hquery, hcheck]
    rfl

/-- A catalog keeps the fields of every object type, also those that repeat. If a document has a
catalog and resolvers, building its schema breaks exactly if there is a type of queries and the
first object type that is not accepted has a field that repeats before one that is not answered. -/
theorem build_breaks_iff (hcatalog : TypeCatalog.ofDocument d = .ok catalog)
    (hresolvers : Resolvers.ofDocument d = .ok resolvers) (limits : SchemaLimits) :
    ((∀ o ∈ catalog.objects, (o.fields.map (·.name)).Nodup) ↔
      ∀ t ∈ d.outputs.toList, (t.fields.map (·.name)).Nodup) ∧
    ((∃ fault, build catalog resolvers limits = .error fault ∧ fault.toError? = none) ↔
      (∃ t ∈ d.outputs.toList, t.name = queryType) ∧
        ∃ before t after, d.outputs.toList = before ++ t :: after ∧
          (∀ b ∈ before, Accepts d.Answers b.outline) ∧
          ∃ field, Repeats d.Answers t.outline field) := by
  have houtlines := TypeCatalog.outlines_eq hcatalog
  have hanswers : (fun name => resolvers.dispatch.contains name = true) = d.Answers := by
    funext name
    exact propext (Dispatch.contains_iff (Resolvers.dispatch_of_ofDocument hresolvers))
  constructor
  · exact TypeCatalog.nodup_fields_iff hcatalog
  · rw [build_breaks_iff_checkObjects]
    refine and_congr ?_ ?_
    · rw [← Bool.not_eq_true, isNone_query_iff hcatalog]
      simp
    · simp only [checkObjects_eq_repeatedField_iff, houtlines, hanswers]
      constructor
      · rintro ⟨type, field, before, outline, after, hlist, hbefore, -, hrepeats⟩
        obtain ⟨before, rest, htypes, rfl, hrest⟩ := List.map_eq_append_iff.mp hlist
        obtain ⟨t, after, rfl, rfl, -⟩ := List.map_eq_cons_iff.mp hrest
        exact ⟨before, t, after, htypes, List.forall_mem_map.mp hbefore, field, hrepeats⟩
      · rintro ⟨before, t, after, hlist, hbefore, field, hrepeats⟩
        refine ⟨t.name, field, before.map (·.outline), t.outline, after.map (·.outline), ?_,
          List.forall_mem_map.mpr hbefore, rfl, hrepeats⟩
        rw [hlist, List.map_append, List.map_cons]

/-! ## A field that is declared twice -/

namespace Status

/-- A document whose queries are the given names, each with a text for an answer. -/
def document (names : List String) : Document where
  models := []
  outputs := ⟨[{ name := "Query", fields := names.map Dispatch.Posts.text }], []⟩
  enums := ⟨[], []⟩
  mappings := []
  otherReads := ["status", "version"]
  otherWrites := []

/-- The catalog of the queries. -/
def types (names : List String) : TypeCatalog where
  enums := []
  objects := [{ name := "Query", isModel := false, fields := names.map fun name =>
    ⟨name, [], "String", .scalar, false, true⟩ }]

/-- The resolvers of the queries. -/
def routing : Resolvers where
  dispatch := ⟨[("status", .unsupported "status"), ("version", .unsupported "version")]⟩
  readers := []

end Status

/-- Two queries of one name follow each other, and the schema breaks as it must. -/
theorem status_breaks :
    let d := Status.document ["version", "status", "status"]
    let catalog := Status.types ["version", "status", "status"]
    TypeCatalog.ofDocument d = .ok catalog ∧ Resolvers.ofDocument d = .ok Status.routing ∧
      (∃ fault, build catalog Status.routing .standard = .error fault ∧
        fault.toError? = none) := by
  intro d catalog
  have hcatalog : TypeCatalog.ofDocument d = .ok catalog := rfl
  have hresolvers : Resolvers.ofDocument d = .ok Status.routing := rfl
  refine ⟨hcatalog, hresolvers, ?_⟩
  refine (build_breaks_iff hcatalog hresolvers .standard).2.mpr ⟨⟨_, List.mem_cons_self, rfl⟩, ?_⟩
  refine ⟨[], _, [], rfl, by simp, "status", ["version", "status"], [], rfl, ⟨by decide, ?_⟩, ?_⟩
  · have hclaimed : ∀ name ∈ ["version", "status"], name ∈ Entries.names (Dispatch.claims d) := by
      decide
    exact fun _ name hname => .inl (hclaimed name hname)
  · decide

/-- A document may declare a field twice. It has a catalog, in which the field stands twice, and
resolvers, but building the schema breaks. -/
theorem repeated_field_breaks :
    let d := Status.document ["status", "status"]
    let catalog := Status.types ["status", "status"]
    TypeCatalog.ofDocument d = .ok catalog ∧ Resolvers.ofDocument d = .ok Status.routing ∧
      ¬ (∀ o ∈ catalog.objects, (o.fields.map (·.name)).Nodup) ∧
      (match build catalog Status.routing .standard with
        | .ok _ => False
        | .error fault => fault = .repeatedField "Query" "status" ∧ fault.toError? = none) := by
  refine ⟨rfl, rfl, by decide, rfl, rfl⟩

end Schema

end ModelGateway
