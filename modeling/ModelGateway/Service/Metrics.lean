import ModelGateway.Gateway.Resolve

/-!
# Metrics

Counters by name and labels, and their text exposition: one line for each counter with its labels in
a fixed order. Lines are sorted by their characters.
-/

namespace ModelGateway

/-- A request to the service that was answered. -/
structure Exchange where
  method : String
  /-- The label of the path. -/
  route : String
  status : Nat
deriving DecidableEq, Repr

namespace Exchange

/-- The label of a path. All paths of requests to the gateway share one, since callers put their
version into the path. -/
def routeLabel (path : String) : String :=
  if path == "/healthz" then "healthz" else "graphql"

end Exchange

/-- A counter. -/
structure Series where
  name : String
  labels : List (String × String)
deriving DecidableEq

namespace Series

/-- The characters of a label value between quotes. -/
def escaped : List Char → List Char
  | [] => []
  | c :: rest =>
    if c = '\\' then '\\' :: '\\' :: escaped rest
    else if c = '"' then '\\' :: '"' :: escaped rest
    else if c = '\n' then '\\' :: 'n' :: escaped rest
    else c :: escaped rest

/-- A label with its value. -/
def labelText (label : String × String) : String :=
  label.1 ++ "=\"" ++ String.ofList (escaped label.2.toList) ++ "\""

/-- The line for a counter that has reached `count`. -/
def line (s : Series) (count : Nat) : String :=
  s.name ++ "\x7b" ++ String.intercalate "," (s.labels.map labelText) ++ "\x7d "
    ++ String.ofList (Decimal.digitChars count)

/-- The word for an outcome. -/
def outcome (ok : Bool) : String :=
  if ok then "ok" else "error"

/-- The counters that an event moves. -/
def ofEvent : Event → List Series
  | .operation field operation ok =>
    [⟨"dataproxy_operations_total",
        [("field", field), ("operation", operation), ("outcome", outcome ok)]⟩,
      ⟨"dataproxy_operation_duration_seconds_count", [("operation", operation)]⟩]
  | .traversal model field ok =>
    [⟨"dataproxy_relation_traversals_total",
      [("model", model), ("field", field), ("outcome", outcome ok)]⟩]

/-- The counters that an exchange moves. -/
def ofExchange (e : Exchange) : List Series :=
  let status := String.ofList (Decimal.digitChars e.status)
  [⟨"http_requests_total", [("method", e.method), ("route", e.route), ("status", status)]⟩,
    ⟨"http_request_duration_seconds_count", [("method", e.method), ("route", e.route)]⟩]

/-- Puts a line in its place among sorted lines. -/
def insertLine (new : String) : List String → List String
  | [] => [new]
  | old :: rest => if new < old then new :: old :: rest else old :: insertLine new rest

/-- The sorted lines for counters that were moved, once for each time. -/
def lines (moved : List Series) : List String :=
  (moved.eraseDups.map fun s => s.line (moved.count s)).foldl (fun acc l => insertLine l acc) []

end Series

end ModelGateway
