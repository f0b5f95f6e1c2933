import ModelGateway.Document.Validate
import ModelGateway.Proofs.Json.Entries
import ModelGateway.Schema.Route

/-!
# Where routes come from

* **Routes** (`Dispatch.mem_of_route`): a root field has the route that a mapped operation, an
  operation without a model or a raw field of a root type claims for it.
* **Models** (`Dispatch.exists_operation_of_route`): the route of a field to a model is that of a
  mapped operation on this model, so in a valid document the model is declared
  (`Dispatch.mem_modelNames_of_route`), and its delegate is the one of the model
  (`Dispatch.delegate_of_route`).
-/

namespace ModelGateway

/-! ## Valid documents -/

/-- In a valid document every operation mapping is for a declared model. -/
theorem Document.mapping_mem_modelNames {d : Document} (h : d.validate = .ok ())
    {mapping : OperationMapping} (hm : mapping ∈ d.mappings) : mapping.model ∈ d.modelNames := by
  have hfault : d.fault? = none := by
    rw [validate] at h
    split at h
    · cases h
    · assumption
  by_contra hnot
  have hfound : (d.mappings.find? fun mapping => mapping.model ∉ d.modelNames) ≠ none := by
    intro hnone
    exact List.find?_eq_none.mp hnone mapping hm (by simpa using hnot)
  rw [fault?] at hfault
  split at hfault
  · cases hfault
  · split at hfault
    · cases hfault
    · exact hfound ‹_›

/-- A mapped operation is one of some mapping, for the model of that mapping. -/
theorem Document.exists_mapping_of_mem_operations {d : Document} {model id field : String}
    (h : (model, id, field) ∈ d.operations) :
    ∃ mapping ∈ d.mappings, mapping.model = model ∧ (id, field) ∈ mapping.operations := by
  obtain ⟨mapping, hm, h⟩ := List.mem_flatMap.mp h
  obtain ⟨⟨id', field'⟩, hop, heq⟩ := List.mem_map.mp h
  cases heq
  exact ⟨mapping, hm, rfl, hop⟩

/-! ## Routes -/

namespace ModelRoute

/-- The route of an operation id is for the model that is given and goes to its delegate. -/
theorem ofId_eq_ok_iff {model id : String} {route : ModelRoute} :
    ofId model id = .ok route ↔
      ∃ operation, Operation.ofId? id = some operation ∧
        route = ⟨model, id, operation, Text.lowerFirst model⟩ := by
  unfold ofId
  cases Operation.ofId? id <;> simp [eq_comm]

end ModelRoute

/-- A mapped operation has a route to a model if the client has the operation. -/
theorem Route.ofMapping_eq_model_iff {model id : String} {route : ModelRoute} :
    ofMapping model id = .model route ↔ ModelRoute.ofId model id = .ok route := by
  unfold ofMapping
  cases ModelRoute.ofId model id <;> simp

/-- No operation without a model has a route to one. -/
theorem Route.ofOther_ne_model (name : String) (route : ModelRoute) :
    ofOther name ≠ .model route := by
  unfold ofOther
  cases RawOperation.ofField? name <;> simp

namespace Dispatch

variable {d : Document} {dispatch : Dispatch} {field : String}

/-- A route after claims were added is a claimed one or an old one. -/
theorem mem_of_addClaims {routes added : Entries Route} {claims : List (String × Route)}
    (h : addClaims routes claims = .ok added) {e : String × Route} (he : e ∈ added) :
    e ∈ claims ∨ e ∈ routes := by
  induction claims generalizing routes with
  | nil =>
    cases h
    exact .inr he
  | cons claim rest ih =>
    rw [addClaims] at h
    split at h
    · cases h
    · rcases ih h with hrest | hold
      · exact .inl (List.mem_cons_of_mem _ hrest)
      · rcases Entries.mem_insert hold with rfl | hold
        · exact .inl List.mem_cons_self
        · exact .inr hold

/-- A route after missing ones were added is an added one or an old one. -/
theorem mem_of_addMissing {routes : Entries Route} {more : List (String × Route)}
    {e : String × Route} (he : e ∈ addMissing routes more) : e ∈ more ∨ e ∈ routes := by
  induction more generalizing routes with
  | nil => exact .inr he
  | cons extra rest ih =>
    rw [addMissing, List.foldl_cons] at he
    rcases ih he with hrest | hold
    · exact .inl (List.mem_cons_of_mem _ hrest)
    · split_ifs at hold
      · exact .inr hold
      · rcases Entries.mem_insert hold with rfl | hold
        · exact .inl List.mem_cons_self
        · exact .inr hold

/-- The route of a root field is one that the document claims for it, or that of a raw field. -/
theorem mem_of_route (h : ofDocument d = .ok dispatch) {route : Route}
    (hroute : dispatch.route field = .ok route) :
    (field, route) ∈ claims d ∨ (field, route) ∈ rawFields d := by
  unfold ofDocument at h
  cases hadd : addClaims [] (claims d) with
  | error conflict => simp [hadd, bind, Except.bind] at h
  | ok claimed =>
    simp only [hadd, bind, Except.bind, pure, Except.pure, Except.ok.injEq] at h
    subst h
    have hget : (addMissing claimed (rawFields d)).get? field = some route := by
      unfold Dispatch.route at hroute
      split at hroute
      · cases hroute
        assumption
      · cases hroute
    rcases mem_of_addMissing (Entries.mem_of_get?_eq_some hget) with hraw | hclaimed
    · exact .inr hraw
    · rcases mem_of_addClaims hadd hclaimed with hclaim | hnil
      · exact .inl hclaim
      · exact absurd hnil List.not_mem_nil

/-- A route to a model is that of a mapped operation on the model. -/
theorem exists_operation_of_route (h : ofDocument d = .ok dispatch) {route : ModelRoute}
    (hroute : dispatch.route field = .ok (.model route)) :
    ∃ model id, (model, id, field) ∈ d.operations ∧ ModelRoute.ofId model id = .ok route := by
  rcases mem_of_route h hroute with hclaim | hraw
  · rcases List.mem_append.mp hclaim with hmapped | hother
    · obtain ⟨⟨model, id, field'⟩, hop, heq⟩ := List.mem_map.mp hmapped
      simp only [Prod.mk.injEq] at heq
      obtain ⟨rfl, hmapping⟩ := heq
      exact ⟨model, id, hop, Route.ofMapping_eq_model_iff.mp hmapping⟩
    · obtain ⟨name, -, heq⟩ := List.mem_map.mp hother
      exact absurd (Prod.mk.inj heq).2 (Route.ofOther_ne_model name route)
  · obtain ⟨root, -, hfield⟩ := List.mem_flatMap.mp hraw
    cases ht : d.objectType? root with
    | none => simp [ht] at hfield
    | some t => simp [ht] at hfield

/-- A route to a model of a valid document is to a declared one. -/
theorem mem_modelNames_of_route (hvalid : d.validate = .ok ()) (h : ofDocument d = .ok dispatch)
    {route : ModelRoute} (hroute : dispatch.route field = .ok (.model route)) :
    route.model ∈ d.modelNames := by
  obtain ⟨model, id, hop, hid⟩ := exists_operation_of_route h hroute
  obtain ⟨operation, -, rfl⟩ := ModelRoute.ofId_eq_ok_iff.mp hid
  obtain ⟨mapping, hm, rfl, -⟩ := Document.exists_mapping_of_mem_operations hop
  exact Document.mapping_mem_modelNames hvalid hm

/-- A route to a model goes to the delegate of the model. -/
theorem delegate_of_route (h : ofDocument d = .ok dispatch) {route : ModelRoute}
    (hroute : dispatch.route field = .ok (.model route)) :
    route.delegate = Text.lowerFirst route.model := by
  obtain ⟨model, id, -, hid⟩ := exists_operation_of_route h hroute
  obtain ⟨operation, -, rfl⟩ := ModelRoute.ofId_eq_ok_iff.mp hid
  rfl

end Dispatch

end ModelGateway
