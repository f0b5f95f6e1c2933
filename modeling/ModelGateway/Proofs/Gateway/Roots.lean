import ModelGateway.Gateway.Request
import ModelGateway.Proofs.Gateway.Schema
import ModelGateway.Proofs.Query.Execution

/-!
# Root fields

The types of a document and the routes of its root fields come from different parts of it. Building
a schema compares them, so no request can find a root field without a route.

* **Building** (`Schema.checkObjects_of_nodup`): where no field repeats, the check of the object
  types fails at the first root field without a route, and nowhere else.
* **Type systems** (`Schema.mem_rootFields_of_field?`): the root fields that requests see, those of
  introspection apart, have routes.
* **Documents** (`Schema.build_unknownOperation_iff`): when building fails for want of a route, and
  that no answer of a schema that is built has such an error.
-/

namespace ModelGateway

/-- The fields of the root types, in the order of the types and then of the fields. -/
def Document.rootFields (d : Document) : List String :=
  d.outputs.toList.flatMap fun t => if Schema.isRoot t.name then t.fields.map (·.name) else []

/-- The fields of the root types of a catalog. -/
def TypeCatalog.rootFields (c : TypeCatalog) : List String :=
  c.objects.flatMap fun o => if Schema.isRoot o.name then o.fields.map (·.name) else []

/-- A catalog has the root fields of the document. -/
theorem TypeCatalog.rootFields_eq {d : Document} {c : TypeCatalog} (h : ofDocument d = .ok c) :
    c.rootFields = d.rootFields := by
  have houtlines := congrArg
    (List.flatMap fun x : String × List String => if Schema.isRoot x.1 then x.2 else [])
    (outlines_eq h)
  rw [List.flatMap_map, List.flatMap_map] at houtlines
  exact houtlines

namespace Schema

/-! ## Building -/

section Building

variable {dispatch : Dispatch}

/-- The error for the first field without a route among some fields. -/
def unrouted? (dispatch : Dispatch) (fields : List String) : Except SchemaFault Unit :=
  match fields.find? (!dispatch.contains ·) with
  | some field => .error (.unrouted field)
  | none => .ok ()

/-- If no field repeats, the check of an object type fails at the first field without a route. -/
theorem checkFields_of_nodup {object : String} {seen names : List String} (hnodup : names.Nodup)
    (hfresh : ∀ name ∈ names, name ∉ seen) :
    checkFields dispatch object seen names =
      unrouted? dispatch (if isRoot object then names else []) := by
  induction names generalizing seen with
  | nil => simp [checkFields, unrouted?]
  | cons name rest ih =>
    obtain ⟨hname, hrest⟩ := List.forall_mem_cons.mp hfresh
    obtain ⟨hnot, hnodup⟩ := List.nodup_cons.mp hnodup
    have hfresh : ∀ other ∈ rest, other ∉ name :: seen := by
      intro other ho hin
      rcases List.mem_cons.mp hin with rfl | hin
      · exact hnot ho
      · exact hrest other ho hin
    rw [checkFields, if_neg hname, ih hnodup hfresh]
    unfold unrouted?
    cases isRoot object with
    | false => rfl
    | true =>
      cases hroute : dispatch.contains name with
      | false => simp [hroute]
      | true => simp [hroute]

/-- If no field repeats in any of them, the check of object types fails at the first root field
without a route. -/
theorem checkObjects_of_nodup {objects : List CatalogObject}
    (hnodup : ∀ o ∈ objects, (o.fields.map (·.name)).Nodup) :
    checkObjects dispatch objects = unrouted? dispatch (TypeCatalog.rootFields ⟨[], objects⟩) := by
  induction objects with
  | nil => rfl
  | cons o rest ih =>
    obtain ⟨ho, hrest⟩ := List.forall_mem_cons.mp hnodup
    rw [checkObjects, checkFields_of_nodup ho fun _ _ => List.not_mem_nil, ih hrest]
    unfold unrouted? TypeCatalog.rootFields
    rw [List.flatMap_cons, List.find?_append]
    cases List.find? (!dispatch.contains ·) (if isRoot o.name then o.fields.map (·.name) else [])
    · rfl
    · rfl

end Building

variable {catalog : TypeCatalog} {resolvers : Resolvers} {limits : SchemaLimits}

/-- If there is a type of queries and no field repeats, building fails for want of a route exactly
at the first root field that has none. -/
theorem build_eq_unrouted_iff (hquery : (catalog.object? queryType).isNone = false)
    (hnodup : ∀ o ∈ catalog.objects, (o.fields.map (·.name)).Nodup) {field : String} :
    build catalog resolvers limits = .error (.unrouted field) ↔
      catalog.rootFields.find? (!resolvers.dispatch.contains ·) = some field := by
  have hcheck : checkObjects resolvers.dispatch catalog.objects =
      unrouted? resolvers.dispatch catalog.rootFields := checkObjects_of_nodup hnodup
  unfold build
  rw [hquery, hcheck, unrouted?]
  cases catalog.rootFields.find? (!resolvers.dispatch.contains ·) with
  | some first => simp
  | none => cases reserved? catalog <;> simp

/-- A schema is made of the catalog and the resolvers it is built from, and the object types have
passed the check. -/
theorem of_build_eq_ok {s : Schema} (h : build catalog resolvers limits = .ok s) :
    s = { catalog, resolvers, limits } ∧
      checkObjects resolvers.dispatch catalog.objects = .ok () := by
  unfold build at h
  split at h
  · cases h
  · split at h
    · cases h
    · rename_i hcheck
      split at h
      · cases h
      · cases h
        exact ⟨rfl, hcheck⟩

/-- Every root field of a schema that is built has a route. -/
theorem exists_route_of_build_eq_ok {s : Schema} (h : build catalog resolvers limits = .ok s)
    {field : String} (hfield : field ∈ s.catalog.rootFields) :
    ∃ route, s.resolvers.dispatch.route field = .ok route := by
  obtain ⟨rfl, hcheck⟩ := of_build_eq_ok h
  obtain ⟨o, ho, hin⟩ := List.mem_flatMap.mp hfield
  have haccepts := checkObjects_eq_ok_iff.mp hcheck o ho
  split at hin
  · rename_i hroot
    have hcontains := haccepts.routed hroot field hin
    obtain ⟨route, hroute⟩ := Option.isSome_iff_exists.mp hcontains
    exact ⟨route, by rw [Dispatch.route, hroute]⟩
  · exact absurd hin List.not_mem_nil

/-! ## Type systems -/

open Query (FieldDefinition NamedType)

/-- An object type that requests see without introspection is one of the catalog. -/
theorem exists_object_of_toTypeSystem {c : TypeCatalog} {object : String}
    {fields : List FieldDefinition}
    (h : (object, NamedType.object fields) ∈ c.toTypeSystem.types) :
    ∃ o ∈ c.objects, o.name = object ∧ fields = o.fields.map (·.toDefinition) := by
  rcases List.mem_append.mp h with h | h
  · rcases List.mem_append.mp h with h | h
    · simp [TypeCatalog.scalarTypes] at h
    · simp at h
  · obtain ⟨o, ho, heq⟩ := List.mem_map.mp h
    cases heq
    exact ⟨o, ho, rfl, rfl⟩

/-- A root type that requests see has the fields of the catalog and those of introspection. -/
theorem exists_object_of_typeSystem {s : Schema} {object : String} (hroot : isRoot object = true)
    {fields : List FieldDefinition}
    (h : (object, NamedType.object fields) ∈ s.typeSystem.types) :
    ∃ o ∈ s.catalog.objects, o.name = object ∧
      ∀ f ∈ fields, f ∈ o.fields.map (·.toDefinition) ∨ f ∈ Query.Introspection.rootFields := by
  unfold typeSystem at h
  split at h
  · rcases List.mem_append.mp h with h | h
    · obtain ⟨⟨name, type⟩, hin, heq⟩ := List.mem_map.mp h
      cases type with
      | object given =>
        cases heq
        obtain ⟨o, ho, hname, rfl⟩ := exists_object_of_toTypeSystem hin
        refine ⟨o, ho, hname, fun f hf => ?_⟩
        split at hf
        · exact List.mem_append.mp hf
        · exact .inl hf
      | _ => cases heq
    · -- no type of introspection is a root type
      have hnames : ∀ e ∈ Query.Introspection.types, isRoot e.1 = false := by decide
      rw [hnames _ h] at hroot
      cases hroot
  · obtain ⟨o, ho, hname, rfl⟩ := exists_object_of_toTypeSystem h
    exact ⟨o, ho, hname, fun f hf => .inl hf⟩

/-- The root fields that requests see, those of introspection apart, are root fields of the catalog.
-/
theorem mem_rootFields_of_field? {s : Schema} {object name : String} {f : FieldDefinition}
    (hf : s.typeSystem.field? object name = some f) (hroot : isRoot object = true)
    (hschema : name ≠ "__schema") (htype : name ≠ "__type") : f.name ∈ s.catalog.rootFields := by
  obtain ⟨fields, hfields, hf⟩ := Option.bind_eq_some_iff.mp hf
  obtain ⟨type, htypes, hfields⟩ := Option.bind_eq_some_iff.mp hfields
  have hname : f.name = name := by simpa using List.find?_some hf
  have hin : f ∈ fields := List.mem_of_find?_eq_some hf
  cases type with
  | object given =>
    cases hfields
    obtain ⟨o, ho, rfl, hgiven⟩ :=
      exists_object_of_typeSystem hroot (Entries.mem_of_get?_eq_some htypes)
    refine List.mem_flatMap.mpr ⟨o, ho, ?_⟩
    rw [if_pos hroot]
    rcases hgiven f hin with hin | hin
    · obtain ⟨g, hg, rfl⟩ := List.mem_map.mp hin
      exact List.mem_map.mpr ⟨g, hg, rfl⟩
    · have hnames : ∀ g ∈ Query.Introspection.rootFields,
          g.name = "__schema" ∨ g.name = "__type" := by
        decide
      rcases hnames f hin with h | h
      · exact absurd (hname.symm.trans h) hschema
      · exact absurd (hname.symm.trans h) htype
  | _ => cases hfields

end Schema

/-! ## Answers -/

namespace Gateway

variable {σ : Type}

/-- The error of a client is none of the schema. -/
theorem ofClient_ne_unknownOperation {α β : Type} (render : α → β)
    (answer : σ × Except ClientError α) (field : String) :
    (ofClient render answer).2 ≠ .error (.unknownOperation field) := by
  obtain ⟨s, result⟩ := answer
  cases result <;> simp [ofClient, Except.mapError, Except.map]

/-- A route answers with a value, an error of the client or one about its arguments. -/
theorem runRoute_ne_unknownOperation (client : Client σ) (route : Route) (arguments : Entries Json)
    (selections : List Query.Selection) (s : σ) (field : String) :
    (runRoute client route arguments selections s).2 ≠ .error (.unknownOperation field) := by
  cases route with
  | model r => exact ofClient_ne_unknownOperation _ _ field
  | unsupported op => simp [runRoute]
  | raw op =>
    rw [runRoute, runRaw]
    cases statement op arguments with
    | error fault => simp [StatementFault.toError]
    | ok call =>
      cases op with
      | query => exact ofClient_ne_unknownOperation _ _ field
      | execute => exact ofClient_ne_unknownOperation _ _ field

/-- A root field with a route, and any field of another type, gives another error if it fails. -/
theorem resolve_ne_unknownOperation (g : Gateway σ) {object name : String}
    (hroute : Schema.isRoot object = true →
      ∃ route, g.schema.resolvers.dispatch.route name = .ok route)
    (parent : Json) (arguments : Entries Json) (selections : List Query.Selection) (t : Traced σ)
    (field : String) :
    (g.resolve object name parent arguments selections t).2 ≠ .error (.unknownOperation field) := by
  unfold resolve
  split
  · rename_i hroot
    obtain ⟨route, hroute⟩ := hroute hroot
    rw [hroute]
    have hrun := runRoute_ne_unknownOperation g.client route arguments selections t.state field
    unfold resolveRoot
    cases hresult : (runRoute g.client route arguments selections t.state).2 with
    | error e =>
      rw [hresult] at hrun
      simpa [Except.map, hresult] using hrun
    | ok value => simp [Except.map, hresult]
  · split
    · rename_i reader _
      unfold resolveRelation
      cases readRelation g.client reader (recordOf parent) name (.obj arguments) t.state with
      | mk state result => cases result <;> simp [Except.map, Except.mapError]
    · simp

/-- A request that is refused is refused without asking a resolver. -/
theorem prepare_ne_resolver (s : Schema) (r : Request) (error : GatewayError)
    (position : Query.Position) : prepare s r ≠ .error (.resolver error position) := by
  have hlimits : ∀ expanded, checkLimits s expanded ≠ .error (.resolver error position) := by
    intro expanded
    unfold checkLimits
    split
    · simp
    · split <;> simp
  intro h
  unfold prepare at h
  cases hread : Query.Executable.read? r.query with
  | none =>
    rw [hread] at h
    cases h
  | some d =>
    cases hexpand : d.expand with
    | none =>
      simp only [hread, hexpand] at h
      cases h
    | some expanded =>
      simp only [hread, hexpand] at h
      rcases Except.bind_eq_error_iff.mp h with h | ⟨_, -, h⟩
      · exact hlimits expanded h
      · split at h
        · cases h
        · split at h <;> cases h

/-- If all root fields of the schema have routes, no answer has the error of one that has none. -/
theorem answer_ne_unknownOperation {g : Gateway σ}
    (hroutes : ∀ name ∈ g.schema.catalog.rootFields,
      ∃ route, g.schema.resolvers.dispatch.route name = .ok route)
    (r : Request) (t : Traced σ) (field : String) (position : Query.Position) :
    .resolver (.unknownOperation field) position ∉ (g.answer r t).1.errors := by
  intro hin
  unfold answer at hin
  split at hin
  · rename_i e hprepare
    rw [Query.Response.refusal, List.mem_singleton] at hin
    rw [← hin] at hprepare
    exact prepare_ne_resolver _ _ _ _ hprepare
  · rename_i o _
    dsimp only at hin
    split at hin
    · simp [Query.Response.refusal] at hin
    · obtain ⟨object, name, f, parent, arguments, selections, s, hf, hschema, htype, hresolve⟩ :=
        Query.Executor.gives_of_mem_run hin
      refine resolve_ne_unknownOperation g (fun hroot => ?_) _ _ _ _ _ hresolve
      exact hroutes f.name (Schema.mem_rootFields_of_field? hf hroot hschema htype)

end Gateway

/-! ## Documents -/

namespace Schema

variable {d : Document} {catalog : TypeCatalog} {resolvers : Resolvers}

/-- The fields with routes are those that a document answers. If it has a catalog with a type of
queries, in which no field repeats, building its schema fails for an unknown operation exactly if a
root field has no route, and the operation is the first such field. In a schema that is built every
root field has a route, and no answer to a request has the error of an unknown operation, whatever
the client does. -/
theorem build_unknownOperation_iff (hcatalog : TypeCatalog.ofDocument d = .ok catalog)
    (hresolvers : Resolvers.ofDocument d = .ok resolvers)
    (hquery : ∃ t ∈ d.outputs.toList, t.name = queryType)
    (hdistinct : ∀ t ∈ d.outputs.toList, (t.fields.map (·.name)).Nodup) (limits : SchemaLimits) :
    (∀ field, resolvers.dispatch.contains field = true ↔ d.Answers field) ∧
    (∀ field, (∃ fault, build catalog resolvers limits = .error fault ∧
        fault.toError? = some (.unknownOperation field)) ↔
      d.rootFields.find? (!resolvers.dispatch.contains ·) = some field) ∧
    ∀ s, build catalog resolvers limits = .ok s →
      (∀ field ∈ d.rootFields, ∃ route, s.resolvers.dispatch.route field = .ok route) ∧
      ∀ (σ : Type) (client : Client σ) (r : Request) (t : Traced σ) (field : String)
        (position : Query.Position),
        .resolver (.unknownOperation field) position ∉
          (Gateway.answer { schema := s, client } r t).1.errors := by
  have hroots := TypeCatalog.rootFields_eq hcatalog
  refine ⟨?_, ?_, ?_⟩
  · intro field
    exact Dispatch.contains_iff (Resolvers.dispatch_of_ofDocument hresolvers)
  · intro field
    have hsome : (catalog.object? queryType).isNone = false := by
      rw [← Bool.not_eq_true, isNone_query_iff hcatalog]
      simpa using hquery
    have hnodup := (TypeCatalog.nodup_fields_iff hcatalog).mpr hdistinct
    have hunrouted : build catalog resolvers limits = .error (.unrouted field) ↔ _ :=
      build_eq_unrouted_iff hsome hnodup
    rw [← hroots, ← hunrouted]
    constructor
    · rintro ⟨fault, hbuild, herror⟩
      cases fault with
      | unrouted name =>
        cases herror
        exact hbuild
      | _ => cases herror
    · intro hbuild
      exact ⟨_, hbuild, rfl⟩
  · intro s hbuild
    have hroutes : ∀ field ∈ s.catalog.rootFields,
        ∃ route, s.resolvers.dispatch.route field = .ok route := fun _ =>
      exists_route_of_build_eq_ok hbuild
    constructor
    · obtain ⟨rfl, -⟩ := of_build_eq_ok hbuild
      rwa [← hroots]
    · intro σ client r t field position
      exact Gateway.answer_ne_unknownOperation hroutes r t field position

/-! ## Polls -/

namespace Polls

/-- A document with a mapped operation, an operation without a model and a raw field on each root
type, and perhaps with more queries. -/
def document (more : List String) : Document where
  models := [{ name := "Poll", fields := [], primaryKey := none }]
  outputs := ⟨[
    { name := "Query"
      fields := (["polls", "version", "queryRaw"] ++ more).map Dispatch.Posts.text },
    { name := "Mutation", fields := [Dispatch.Posts.text "executeRaw"] }], []⟩
  enums := ⟨[], []⟩
  mappings := [{ model := "Poll", plural := none, operations := [("findMany", "polls")] }]
  otherReads := ["version"]
  otherWrites := []

/-- The catalog of the document. -/
def types (more : List String) : TypeCatalog where
  enums := []
  objects := [
    { name := "Query", isModel := false
      fields := (["polls", "version", "queryRaw"] ++ more).map field },
    { name := "Mutation", isModel := false, fields := [field "executeRaw"] }]
where
  /-- A field that holds a text. -/
  field (name : String) : CatalogField := ⟨name, [], "String", .scalar, false, true⟩

/-- The resolvers of the document. -/
def routing : Resolvers where
  dispatch := ⟨[
    ("polls", .model ⟨"Poll", "findMany", .findMany, "poll"⟩), ("version", .unsupported "version"),
    ("queryRaw", .raw .query), ("executeRaw", .raw .execute)]⟩
  readers := []

end Polls

/-- A query that nothing answers keeps the schema from being built. Without it there is a schema,
which never answers that an operation is unknown. -/
theorem polls_unknownOperation :
    let unanswered := Polls.document ["uptime"]
    let answered := Polls.document []
    TypeCatalog.ofDocument unanswered = .ok (Polls.types ["uptime"]) ∧
      Resolvers.ofDocument unanswered = .ok Polls.routing ∧
      TypeCatalog.ofDocument answered = .ok (Polls.types []) ∧
      Resolvers.ofDocument answered = .ok Polls.routing ∧
      (∃ fault, build (Polls.types ["uptime"]) Polls.routing .standard = .error fault ∧
        fault.toError? = some (.unknownOperation "uptime")) ∧
      ∃ s, build (Polls.types []) Polls.routing .standard = .ok s ∧
        ∀ (σ : Type) (client : Client σ) (r : Request) (t : Traced σ) (field : String)
          (position : Query.Position),
          .resolver (.unknownOperation field) position ∉
            (Gateway.answer { schema := s, client } r t).1.errors := by
  intro unanswered answered
  have hquery : ∀ more, ∃ t ∈ (Polls.document more).outputs.toList, t.name = queryType := fun _ =>
    ⟨_, List.mem_cons_self, rfl⟩
  have hdistinct : ∀ t ∈ answered.outputs.toList, (t.fields.map (·.name)).Nodup := by decide
  have hdistinct' : ∀ t ∈ unanswered.outputs.toList, (t.fields.map (·.name)).Nodup := by decide
  refine ⟨rfl, rfl, rfl, rfl, ?_, ⟨_, rfl, ?_⟩⟩
  · refine ((build_unknownOperation_iff (d := unanswered) rfl rfl (hquery _) hdistinct'
      .standard).2.1 "uptime").mpr ?_
    rfl
  · exact ((build_unknownOperation_iff (d := answered) rfl rfl (hquery _) hdistinct
      .standard).2.2 _ rfl).2

end Schema

end ModelGateway
