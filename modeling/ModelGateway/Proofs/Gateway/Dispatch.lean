import ModelGateway.Gateway.Resolve
import ModelGateway.Proofs.Schema.Dispatch
import ModelGateway.Proofs.Store.Delegate

/-!
# Where root fields go

A root field that is routed to a model is answered by an operation on the delegate of the model.

* **Tables** (`Gateway.reached_eq_mapped_iff`): in a valid document every such operation acts on one
  table of the store. It is the table of the model that the field was mapped for exactly if no
  later model of the document has the same delegate.
* **Shared delegates** (`Gateway.creation_misses_mapped_model`): a document may have models whose
  names differ in the case of the first letter alone. It is valid, and what is created through a
  field of the one is stored as a record of the other.
-/

namespace ModelGateway.Gateway

variable {d : Document} {dispatch : Dispatch} {field : String} {route : ModelRoute}
  {live : LiveStore}

/-- A routed operation acts on the table that the delegate of its route addresses. -/
theorem runRoute_model {t : Table} (ht : live.store.tableFor route.delegate = .ok t)
    (supplies : Nat → Supply) (arguments : Entries Json) (selections : List Query.Selection) :
    runRoute (LiveStore.client supplies) (.model route) arguments selections live =
      ofClient id (live.call (live.store.executeOn (supplies live.calls) t route.operation
        (.obj (route.arguments arguments (AggregateSelection.ofSelections selections))))) := by
  simp only [runRoute, LiveStore.client, Client.withoutRaw, LiveStore.execute, Store.execute, ht]

/-- Every root field that is routed to a model acts on one table, which is the table of that model
exactly if no later model of the document has the same delegate. -/
theorem reached_eq_mapped_iff (hd : d.WellFormed) (hvalid : d.validate = .ok ())
    (hdispatch : Dispatch.ofDocument d = .ok dispatch)
    (hroute : dispatch.route field = .ok (.model route)) (h : Store.Reachable d live.store)
    (supplies : Nat → Supply) :
    ∃ reached mapped, live.store.tableFor route.delegate = .ok reached ∧
      live.store.tableOf route.model = .ok mapped ∧
      mapped.model ∈ d.models ∧ mapped.model.name = route.model ∧
      (∀ arguments selections,
        runRoute (LiveStore.client supplies) (.model route) arguments selections live =
          ofClient id (live.call
            (live.store.executeOn (supplies live.calls) reached route.operation
              (.obj (route.arguments arguments (AggregateSelection.ofSelections selections)))))) ∧
      (reached = mapped ↔ d.LastOfDelegate route.model) := by
  have hs := h.sound hd
  have hdelegate := Dispatch.delegate_of_route hdispatch hroute
  have hmodel := Dispatch.mem_modelNames_of_route hvalid hdispatch hroute
  obtain ⟨m, hm, hname⟩ := List.mem_map.mp hmodel
  obtain ⟨mapped, hmapped⟩ := h.exists_tableOf hd hm
  obtain ⟨found, hfound⟩ := Document.exists_ofDelegate? hm
  obtain ⟨reached, hreached⟩ := h.exists_tableOf hd (Document.mem_of_ofDelegate? hfound).1
  rw [hname] at hmapped hfound
  have hfor : live.store.tableFor route.delegate = .ok reached := by
    rw [h.tableFor_eq hd, hdelegate, hfound]
    exact hreached
  have hlast := h.tableFor_lowerFirst_iff hd hmapped
  rw [← hdelegate, hfor] at hlast
  refine ⟨reached, mapped, hfor, hmapped, hs.declared _ _ hmapped, hs.named _ _ hmapped,
    runRoute_model hfor supplies, ?_⟩
  rw [← hlast, Except.ok.injEq]

/-! ## Teams -/

namespace Teams

/-- A model that is identified by a number. -/
def model (name : String) : Model where
  name := name
  fields := [{ Store.Seats.column "id" true with isId := true }]
  primaryKey := none

/-- Two models whose names differ in the case of the first letter, each with a field that creates
its records. -/
def document : Document where
  models := [model "Team", model "team"]
  outputs := ⟨[], []⟩
  enums := ⟨[], []⟩
  mappings := [
    { model := "Team", plural := none, operations := [("createOne", "createOneTeam")] },
    { model := "team", plural := none, operations := [("createOne", "createOneteam")] }]
  otherReads := []
  otherWrites := []

/-- The route of a field that creates the records of a model. -/
def creation (model : String) : ModelRoute where
  model := model
  operationId := "createOne"
  operation := .create
  delegate := "team"

/-- The routes of the two fields. -/
def routing : Dispatch where
  routes := [
    ("createOneTeam", .model (creation "Team")),
    ("createOneteam", .model (creation "team"))]

/-- The columns of teams have no defaults. -/
theorem document_wellFormed : document.WellFormed := by
  simp [Document.WellFormed, Model.WellFormed, Field.WellFormed, document, model,
    Store.Seats.column]

end Teams

/-- A field of the model that stands last reaches the table of this model. -/
theorem reached_eq_mapped_team :
    let live := LiveStore.ofDocument Teams.document
    let route := Teams.creation "team"
    let supplies := fun _ => Store.Seats.supply
    Teams.document.WellFormed ∧ Teams.document.validate = .ok () ∧
      Dispatch.ofDocument Teams.document = .ok Teams.routing ∧
      Teams.routing.route "createOneteam" = .ok (.model route) ∧
      Store.Reachable Teams.document live.store ∧
      ∃ reached mapped, live.store.tableFor route.delegate = .ok reached ∧
        live.store.tableOf route.model = .ok mapped ∧
        mapped.model ∈ Teams.document.models ∧ mapped.model.name = route.model ∧
        (∀ arguments selections,
          runRoute (LiveStore.client supplies) (.model route) arguments selections live =
            ofClient id (live.call
              (live.store.executeOn (supplies live.calls) reached route.operation
                (.obj (route.arguments arguments (AggregateSelection.ofSelections selections)))))) ∧
        (reached = mapped ↔ Teams.document.LastOfDelegate route.model) := by
  intro live route supplies
  have hvalid : Teams.document.validate = .ok () := rfl
  have hdispatch : Dispatch.ofDocument Teams.document = .ok Teams.routing := rfl
  have hroute : Teams.routing.route "createOneteam" = .ok (.model route) := rfl
  have hlive : Store.Reachable Teams.document live.store := .start
  exact ⟨Teams.document_wellFormed, hvalid, hdispatch, hroute, hlive,
    reached_eq_mapped_iff Teams.document_wellFormed hvalid hdispatch hroute hlive supplies⟩

/-- What is created through a field of the model that stands first is stored as a record of the
other model. -/
theorem creation_misses_mapped_model :
    let live := LiveStore.ofDocument Teams.document
    let route := Teams.creation "Team"
    let outcome := runRoute (LiveStore.client fun _ => Store.Seats.supply) (.model route)
      [("data", .obj [("id", .ofNat 1)])] [] live
    Teams.document.validate = .ok () ∧ Dispatch.ofDocument Teams.document = .ok Teams.routing ∧
      Teams.routing.route "createOneTeam" = .ok (.model route) ∧ route.model = "Team" ∧
      live.store.tableFor route.delegate ≠ live.store.tableOf route.model ∧
      outcome.2 = .ok (.obj [("id", .ofNat 1)]) ∧
      outcome.1.store.rowCount "Team" = 0 ∧ outcome.1.store.rowCount "team" = 1 := by
  intro live route outcome
  have hmodel : (live.store.tableFor route.delegate).map (·.model.name) = .ok "team" := rfl
  refine ⟨rfl, rfl, rfl, rfl, fun heq => ?_, rfl, rfl, rfl⟩
  rw [heq] at hmodel
  have hother : (live.store.tableOf route.model).map (·.model.name) = .ok "Team" := rfl
  rw [hother] at hmodel
  exact absurd hmodel (by decide)

end ModelGateway.Gateway
