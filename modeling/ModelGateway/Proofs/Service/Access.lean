import ModelGateway.Proofs.Store.Run
import ModelGateway.Service.App

/-!
# Requests without the key

A request presents the key if its first authorization header is the bearer form of the key
(`App.Presents`).

* **One request** (`App.unauthenticated_request_sees_nothing`): a request that does not present the
  key leaves the client and its events as they are, and its answer is the same whatever its body,
  the gateway and the state are, up to an id that is generated for it. It is 401 without a body
  unless the request asks for options or for the health of the service.
* **Many requests** (`App.served_filter`): callers that present the key see the same, and the client
  becomes the same, if all requests that do not present it are left out.

Both come from `App.respond_of_not_presents`, which says what the layers make of such a request. The
layers are taken from the inside out, each with the form in which the next one needs it. The check
of the key alone does not keep a request from the gateway: a question for options passes it without
a key (`App.authenticated_of_options`), and does not come so far only because the layer for pages of
other origins answers it (`App.shared_of_not_presents`).
-/

namespace ModelGateway

/-! ## Headers -/

namespace Headers

/-- The headers of other names, after one was set, do not depend on what it was set to. -/
theorem filter_set (headers : Headers) (name value : String) :
    (headers.set name value).filter (fun h => h.1 != name) =
      headers.filter fun h => h.1 != name := by
  unfold set
  rw [List.filter_append, List.filter_filter]
  simp

/-- Setting a header leaves the first one of another name. -/
theorem get?_set_of_ne {name other : String} (h : name ≠ other) (headers : Headers)
    (value : String) : (headers.set other value).get? name = headers.get? name := by
  unfold set get?
  rw [List.find?_append, List.find?_filter]
  have hset : List.find? (fun h => h.1 == name) [(other, value)] = none := by
    rw [List.find?_singleton, if_neg (by simpa using h.symm)]
  rw [hset, Option.or_none]
  congr 2
  funext e
  by_cases hname : e.1 = name
  · simp [hname, h]
  · simp [hname]

end Headers

/-! ## Requests -/

namespace HttpRequest

/-- The request with another body. -/
def withBody (r : HttpRequest) (body : String) : HttpRequest :=
  { r with body }

end HttpRequest

namespace App

variable {σ τ : Type}

/-- The request presents a key: its authorization is exactly the bearer form of the key. -/
def Presents (key : String) (r : HttpRequest) : Prop :=
  r.headers.get? "authorization" = some ("Bearer " ++ key)

instance (key : String) : DecidablePred (Presents key) := fun r =>
  inferInstanceAs (Decidable (r.headers.get? "authorization" = some ("Bearer " ++ key)))

/-- A request that is accepted presents the key. -/
theorem presents_of_accepts {key : String} {r : HttpRequest} (h : accepts key r = true) :
    Presents key r := by
  unfold accepts at h
  split at h
  · rename_i value hvalue
    obtain ⟨-, heq⟩ := Bool.and_eq_true_iff.mp h
    unfold Presents
    rw [hvalue, eq_of_beq heq]
  · cases h

/-- The answer to a request without the key, before ids are given out. -/
def turnedAway (method path : String) : HttpResponse :=
  if method == "OPTIONS" then .empty 200
  else if path == "/healthz" then health method
  else .empty 401

/-- The id of a request: its own, or one that is generated. -/
def requestId (app : App σ) (r : HttpRequest) (s : AppState σ) : String :=
  (r.headers.get? "x-request-id").getD (app.freshId s.received)

/-- A response to a request up to an id that was generated for the request. -/
def withoutGeneratedId (r : HttpRequest) (response : HttpResponse) : HttpResponse :=
  if (r.headers.get? "x-request-id").isSome then response
  else { response with headers := response.headers.filter fun h => h.1 != "x-request-id" }

/-! ## Layers -/

section Layers

variable {app : App σ} {r : HttpRequest}

/-- That whatever is posted counts as JSON leaves the method. -/
theorem method_asJson (r : HttpRequest) : (asJson r).method = r.method := by
  unfold asJson
  split_ifs <;> rfl

/-- That whatever is posted counts as JSON leaves the key. -/
theorem accepts_asJson (key : String) (r : HttpRequest) :
    accepts key (asJson r) = accepts key r := by
  unfold accepts asJson
  split_ifs
  · rw [Headers.get?_set_of_ne (by decide)]
  · rfl

/-- Behind the layer for pages of other origins a question for options would be put to the gateway,
whether the request presents the key or not. -/
theorem authenticated_of_options (hm : r.method = "OPTIONS") (t : Traced σ) :
    app.authenticated r t = app.enveloped r t := by
  have hjson : asJson r = r := by
    unfold asJson
    rw [hm]
    rfl
  unfold authenticated
  dsimp only
  rw [hjson, hm]
  rfl

/-- The gateway is not asked for a request without the key that is no question for options. -/
theorem authenticated_of_not_presents (hm : r.method ≠ "OPTIONS") (hr : ¬ Presents app.key r)
    (t : Traced σ) : app.authenticated r t = (.empty 401, t) := by
  have hrefused : accepts app.key r = false :=
    Bool.eq_false_iff.mpr fun h => hr (presents_of_accepts h)
  unfold authenticated
  dsimp only
  rw [method_asJson, accepts_asJson, hrefused, bne_iff_ne.mpr hm]
  rfl

/-- The path decides about a request without the key that is no question for options, and the client
stays as it is. -/
theorem routed_of_not_presents (hm : r.method ≠ "OPTIONS") (hr : ¬ Presents app.key r)
    (t : Traced σ) :
    app.routed r t = (if r.path == "/healthz" then health r.method else .empty 401, t) := by
  unfold routed
  split_ifs
  · rfl
  · exact authenticated_of_not_presents hm hr t

/-- A request without the key leaves the client as it is: a question for options is answered before
it is counted, and any other request is turned away by its path or for lack of the key. -/
theorem shared_of_not_presents (hr : ¬ Presents app.key r) (s : AppState σ) :
    (app.shared r s).1 = readable (turnedAway r.method r.path) ∧
      (app.shared r s).2.live = s.live := by
  unfold shared turnedAway
  split_ifs with hoptions hhealth
  · exact ⟨rfl, rfl⟩
  · have hm : r.method ≠ "OPTIONS" := by simpa using hoptions
    unfold counted
    rw [routed_of_not_presents hm hr, if_pos hhealth]
    exact ⟨rfl, rfl⟩
  · have hm : r.method ≠ "OPTIONS" := by simpa using hoptions
    unfold counted
    rw [routed_of_not_presents hm hr, if_neg hhealth]
    exact ⟨rfl, rfl⟩

/-- What becomes of a request without the key: method, path and id decide about the answer, and the
client stays as it is. -/
theorem respond_of_not_presents (hr : ¬ Presents app.key r) (s : AppState σ) :
    (app.respond r s).1 =
        finished r.method (app.requestId r s) (readable (turnedAway r.method r.path)) ∧
      (app.respond r s).2.live = s.live := by
  obtain ⟨hanswer, hlive⟩ := shared_of_not_presents hr { s with received := s.received + 1 }
  unfold respond
  dsimp only
  rw [hanswer]
  exact ⟨rfl, hlive⟩

end Layers

/-- Up to a generated id, an answer does not depend on the number of requests before it. -/
theorem withoutGeneratedId_finished (app : App σ) (app' : App τ) {r r' : HttpRequest}
    (hr : r'.headers = r.headers) (s : AppState σ) (s' : AppState τ) (response : HttpResponse) :
    withoutGeneratedId r (finished r.method (app.requestId r s) response) =
      withoutGeneratedId r (finished r.method (app'.requestId r' s') response) := by
  unfold withoutGeneratedId
  cases hid : r.headers.get? "x-request-id" with
  | some id =>
    unfold requestId
    rw [hr, hid]
    rfl
  | none =>
    unfold finished
    simp only [Option.isSome_none, Bool.false_eq_true, if_false, Headers.filter_set]

/-- Away from options and health, a request without the key is refused without a body. -/
theorem finished_turnedAway {method path : String} (hm : method ≠ "OPTIONS")
    (hp : path ≠ "/healthz") (id : String) :
    (finished method id (readable (turnedAway method path))).status = 401 ∧
      (finished method id (readable (turnedAway method path))).body = "" := by
  have haway : turnedAway method path = .empty 401 := by
    unfold turnedAway
    rw [if_neg (by simpa using hm), if_neg (by simpa using hp)]
  rw [haway]
  refine ⟨rfl, ?_⟩
  unfold finished
  split_ifs <;> rfl

/-! ## One request -/

/-- A request without the key changes nothing in the client, and neither its body nor the gateway
nor the state shows in its answer. -/
theorem unauthenticated_request_sees_nothing {c : Config} {key : String} (hc : c.apiKey = some key)
    {r : HttpRequest} (hr : ¬ Presents key r)
    (gateway : Gateway σ) (freshId : Nat → String) (s : AppState σ) :
    let app := ofConfig c gateway freshId
    (app.respond r s).2.live = s.live ∧
      (∀ (τ : Type) (gateway' : Gateway τ) (freshId' : Nat → String) (body : String)
          (s' : AppState τ),
        withoutGeneratedId r (app.respond r s).1 =
          withoutGeneratedId r
            ((ofConfig c gateway' freshId').respond (r.withBody body) s').1) ∧
      (r.method ≠ "OPTIONS" → r.path ≠ "/healthz" →
        (app.respond r s).1.status = 401 ∧ (app.respond r s).1.body = "") := by
  intro app
  have hkey : ∀ {ρ : Type} (g : Gateway ρ) (ids : Nat → String), (ofConfig c g ids).key = key := by
    intro ρ g ids
    unfold ofConfig
    rw [hc]
    rfl
  have hr' : ¬ Presents app.key r := by
    rw [hkey]
    exact hr
  obtain ⟨hanswer, hlive⟩ := respond_of_not_presents hr' s
  refine ⟨hlive, ?_, ?_⟩
  · intro τ gateway' freshId' body s'
    have hother : ¬ Presents (ofConfig c gateway' freshId').key (r.withBody body) := by
      rw [hkey]
      exact hr
    rw [hanswer, (respond_of_not_presents hother s').1]
    exact withoutGeneratedId_finished app (ofConfig c gateway' freshId') rfl s s' _
  · intro hm hp
    rw [hanswer]
    exact finished_turnedAway hm hp _

/-! ## A service for seats -/

namespace SeatService

/-- The configuration with a key. -/
def config : Config :=
  { Config.standard with apiKey := some "secret" }

/-- A gateway with a field that creates seats. -/
def gateway : Gateway LiveStore where
  schema := {
    catalog := ⟨[], []⟩
    resolvers := {
      dispatch := ⟨[("createOneSeat", .model {
        model := "Seat", operationId := "createOne", operation := .create, delegate := "seat" })]⟩
      readers := [] }
    limits := .standard }
  client := LiveStore.client fun _ => Store.Seats.supply

/-- One seat is taken. -/
def state : AppState LiveStore :=
  .initial {
    store := Store.Seats.made [.execute "seat" .create
      (.obj [("data", Store.Seats.seat (.ofNat 1) (.ofNat 1) (.ofNat 7))])]
    calls := 1 }

/-- A request with a guessed key that would create a seat. -/
def guess : HttpRequest where
  method := "POST"
  path := "/graphql"
  headers := [("authorization", "Bearer guess")]
  body := Json.text
    (.obj [("query", .str "mutation \x7b createOneSeat(row: 1) \x7b row \x7d \x7d")])

end SeatService

/-- A guessed key opens nothing. -/
theorem guessed_key_sees_nothing :
    let app := ofConfig SeatService.config SeatService.gateway fun _ => "id"
    let r := SeatService.guess
    let s := SeatService.state
    SeatService.config.apiKey = some "secret" ∧ ¬ Presents "secret" r ∧
      r.method ≠ "OPTIONS" ∧ r.path ≠ "/healthz" ∧
      (app.respond r s).2.live = s.live ∧
      (∀ (τ : Type) (gateway' : Gateway τ) (freshId' : Nat → String) (body : String)
          (s' : AppState τ),
        withoutGeneratedId r (app.respond r s).1 =
          withoutGeneratedId r
            ((ofConfig SeatService.config gateway' freshId').respond (r.withBody body) s').1) ∧
      (app.respond r s).1.status = 401 ∧ (app.respond r s).1.body = "" := by
  intro app r s
  have hr : ¬ Presents "secret" r := by decide
  have hm : r.method ≠ "OPTIONS" := by decide
  have hp : r.path ≠ "/healthz" := by decide
  obtain ⟨hlive, hsame, hrefused⟩ :=
    unauthenticated_request_sees_nothing (c := SeatService.config) rfl hr SeatService.gateway
      (fun _ => "id") s
  exact ⟨rfl, hr, hm, hp, hlive, hsame, hrefused hm hp⟩

/-! ## Many requests -/

/-- What a request is answered, up to a generated id, and what the client becomes depend on the
client and not on the requests that were counted before. -/
theorem respond_congr (app : App σ) (r : HttpRequest) {s s' : AppState σ} (h : s.live = s'.live) :
    withoutGeneratedId r (app.respond r s).1 = withoutGeneratedId r (app.respond r s').1 ∧
      (app.respond r s).2.live = (app.respond r s').2.live := by
  have hshared : ∀ n n', (app.shared r { s with received := n }).1 =
        (app.shared r { s' with received := n' }).1 ∧
      (app.shared r { s with received := n }).2.live =
        (app.shared r { s' with received := n' }).2.live := by
    intro n n'
    unfold shared
    split_ifs
    · exact ⟨rfl, h⟩
    · unfold counted
      dsimp only
      rw [h]
      exact ⟨rfl, rfl⟩
  obtain ⟨hanswer, hlive⟩ := hshared (s.received + 1) (s'.received + 1)
  refine ⟨?_, hlive⟩
  unfold respond
  dsimp only
  rw [hanswer]
  exact withoutGeneratedId_finished app app rfl s s' _

/-- Answers requests one after another: the answers to those that present the key, up to generated
ids, and what the client becomes. -/
def served (app : App σ) : List HttpRequest → AppState σ → List HttpResponse × Traced σ
  | [], s => ([], s.live)
  | r :: rest, s =>
    let (answer, s) := app.respond r s
    let (answers, live) := served app rest s
    (if Presents app.key r then withoutGeneratedId r answer :: answers else answers, live)

/-- Requests that do not present the key may be left out: those that do are answered the same, and
the client becomes the same. -/
theorem served_filter (app : App σ) (requests : List HttpRequest) {s s' : AppState σ}
    (h : s.live = s'.live) :
    app.served requests s =
      app.served (requests.filter fun r => Presents app.key r) s' := by
  induction requests generalizing s s' with
  | nil =>
    rw [List.filter_nil, served, served, h]
  | cons r rest ih =>
    rw [served]
    dsimp only
    by_cases hr : Presents app.key r
    · obtain ⟨hanswer, hlive⟩ := respond_congr app r h
      rw [List.filter_cons_of_pos (by simpa using hr), served]
      dsimp only
      rw [if_pos hr, if_pos hr, hanswer, ih hlive]
    · have hlive := (respond_of_not_presents hr s).2
      rw [List.filter_cons_of_neg (by simpa using hr), if_neg hr]
      exact ih (hlive.trans h)

end App

end ModelGateway
