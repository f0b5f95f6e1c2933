import ModelGateway.Gateway.Body
import ModelGateway.Service.Config
import ModelGateway.Service.Envelope
import ModelGateway.Service.Metrics

/-!
# The service

Every path but `/healthz` answers requests to the gateway, for callers that present the key. A
request passes through layers: it gets an id, pages of other origins may read the answer, it is
counted, it needs the key, and errors in its answer are put into the envelope.

A question for options needs no key. It is the layer for pages of other origins (`App.shared`) that
keeps such a question from the gateway, since it answers all of them itself.
-/

namespace ModelGateway

/-- A service in front of a gateway. -/
structure App (σ : Type) where
  gateway : Gateway σ
  /-- The key that callers present. -/
  key : String
  /-- The greatest size of a request body in bytes. -/
  bodyLimit : Nat
  /-- The id of the n-th request, if it brings none. -/
  freshId : Nat → String

/-- What a service remembers. -/
structure AppState (σ : Type) where
  live : Traced σ
  /-- The requests that were counted. -/
  exchanges : List Exchange
  /-- The number of requests so far. -/
  received : Nat

namespace AppState

/-- The state before any request. -/
def initial {σ : Type} (client : σ) : AppState σ where
  live := { state := client, events := [] }
  exchanges := []
  received := 0

/-- The counters that have moved. -/
def series {σ : Type} (s : AppState σ) : List Series :=
  s.live.events.flatMap Series.ofEvent ++ s.exchanges.flatMap Series.ofExchange

end AppState

namespace App

variable {σ : Type}

/-- The service that a configuration describes. -/
def ofConfig (c : Config) (gateway : Gateway σ) (freshId : Nat → String) : App σ where
  gateway := gateway
  key := c.apiKey.getD ""
  bodyLimit := c.server.bodyLimit
  freshId := freshId

/-! ## Answering -/

/-- Why a request is not passed on to the gateway. -/
inductive Refusal where
  /-- Its body is not said to be JSON. -/
  | mediaType
  /-- Its body is larger than allowed. -/
  | tooLarge
  /-- Its body is no request to the gateway. -/
  | body (fault : BodyFault)
deriving DecidableEq, Repr

namespace Refusal

/-- The response. -/
def response : Refusal → HttpResponse
  | .mediaType => .plain 415 "Expected request with `Content-Type: application/json`"
  | .tooLarge => .plain 413 "Failed to buffer the request body: length limit exceeded"
  | .body .unreadable => .plain 400 "Failed to parse the request body as JSON"
  | .body .unfit => .plain 422 "Failed to deserialize the JSON body into the target type"

end Refusal

/-- The request to the gateway that a body holds. -/
def requestOf (bodyLimit : Nat) (r : HttpRequest) : Except Refusal Request :=
  if !((r.headers.get? "content-type").any MediaType.isJson) then .error .mediaType
  else if bodyLimit < r.body.utf8ByteSize then .error .tooLarge
  else (Request.ofText r.body).mapError .body

/-- A response to a method: one that opens a tunnel has no body. -/
def forTunnel (method : String) (r : HttpResponse) : HttpResponse :=
  if method == "CONNECT" && r.isSuccess then { r with body := "" } else r

/-- Answers a request to the gateway. -/
def answer (app : App σ) (r : HttpRequest) (t : Traced σ) : HttpResponse × Traced σ :=
  match requestOf app.bodyLimit r with
  | .error refusal => (refusal.response, t)
  | .ok request =>
    let (response, t) := app.gateway.answer request t
    (forTunnel r.method (.json 200 (Gateway.responseJson response)), t)

/-- A request as it is answered: whatever is posted counts as JSON. -/
def asJson (r : HttpRequest) : HttpRequest :=
  if r.method == "POST" then { r with headers := r.headers.set "content-type" "application/json" }
  else r

/-- Whether a request presents the key. -/
def accepts (key : String) (r : HttpRequest) : Bool :=
  match r.headers.get? "authorization" with
  | some value => value.toList.all Http.isVisible && value == "Bearer " ++ key
  | none => false

/-- Answers a request to the gateway, in the envelope if it reports an error. -/
def enveloped (app : App σ) (r : HttpRequest) (t : Traced σ) : HttpResponse × Traced σ :=
  let (response, t) := app.answer r t
  (Envelope.wrap response, t)

/-- Answers a request that presents the key, or that asks for options. -/
def authenticated (app : App σ) (r : HttpRequest) (t : Traced σ) : HttpResponse × Traced σ :=
  let r := asJson r
  if r.method != "OPTIONS" && !accepts app.key r then (.empty 401, t) else app.enveloped r t

/-! ## Layers -/

/-- Says that the service is well. -/
def health (method : String) : HttpResponse :=
  if method == "GET" || method == "HEAD" then .json 200 (.obj [("status", .str "ok")])
  else .empty 405

/-- Answers a request by its path. -/
def routed (app : App σ) (r : HttpRequest) (t : Traced σ) : HttpResponse × Traced σ :=
  if r.path == "/healthz" then (health r.method, t) else app.authenticated r t

/-- Answers a request and counts it. -/
def counted (app : App σ) (r : HttpRequest) (s : AppState σ) : HttpResponse × AppState σ :=
  let (response, live) := app.routed r s.live
  let exchange :=
    { method := r.method, route := Exchange.routeLabel r.path, status := response.status }
  (response, { s with live, exchanges := s.exchanges ++ [exchange] })

/-- Lets pages of any origin read a response. -/
def readable (r : HttpResponse) : HttpResponse :=
  { r with headers := r.headers.set "access-control-allow-origin" "*" }

/-- Answers a request; a question for options is answered here, without looking at the request. -/
def shared (app : App σ) (r : HttpRequest) (s : AppState σ) : HttpResponse × AppState σ :=
  if r.method == "OPTIONS" then (readable (.empty 200), s)
  else
    let (response, s) := app.counted r s
    (readable response, s)

/-- A response with the id of its request, and without a body if the request asks for none. -/
def finished (method id : String) (r : HttpResponse) : HttpResponse :=
  { r with
    headers := r.headers.set "x-request-id" id
    body := if method == "HEAD" then "" else r.body }

/-- Answers a request. -/
def respond (app : App σ) (r : HttpRequest) (s : AppState σ) : HttpResponse × AppState σ :=
  let id := (r.headers.get? "x-request-id").getD (app.freshId s.received)
  let (response, s) := app.shared r { s with received := s.received + 1 }
  (finished r.method id response, s)

end App

end ModelGateway
