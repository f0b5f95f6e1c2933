import ModelGateway.Gateway.Request

/-!
# Requests as texts

A request is sent as a JSON text. Where the text is no request, its first fault decides what is said
about it: the text may break the rules of JSON, or be JSON of another shape (`BodyFault`). So the
text is read from left to right and no further than to the first fault.
-/

namespace ModelGateway

open Json (Token Building)

/-- Why a text is no request. -/
inductive BodyFault where
  /-- It breaks the rules of JSON. -/
  | unreadable
  /-- It has another shape. -/
  | unfit
deriving DecidableEq, Repr

namespace Body

/-! ## Values -/

/-- Reads one value; the innermost frame of the machine is the one that the value goes into. -/
def takeTree : Building → List Token → Except BodyFault (Source × List Token)
  | _, [] => .error .unreadable
  | b, token :: rest =>
    match b.step token with
    | some ⟨[.list [tree]], .comma⟩ => .ok (tree, rest)
    | some b => takeTree b rest
    | none => .error .unreadable

/-- Reads any value inside the request, without deciding whether it is one. -/
def anything : List Token → Except BodyFault (Source × List Token) :=
  takeTree ⟨[.list []], .value⟩

/-- Reads any value inside the request. -/
def value (tokens : List Token) : Except BodyFault (Json × List Token) := do
  let (tree, rest) ← anything tokens
  match tree.toJson? with
  | some j => return (j, rest)
  | none => .error .unreadable

/-- What is wrong with a token in place of a text. -/
def textFault : Token → BodyFault
  | .number (some _) | .word _ | .openList | .openObject => .unfit
  | _ => .unreadable

/-- Reads a text. -/
def text : List Token → Except BodyFault (String × List Token)
  | .text (some s) :: rest => .ok (s, rest)
  | token :: _ => .error (textFault token)
  | [] => .error .unreadable

/-- Reads null or something else. -/
def nullable {α : Type} (read : List Token → Except BodyFault (α × List Token)) :
    List Token → Except BodyFault (Option α × List Token)
  | .word .null :: rest => .ok (none, rest)
  | tokens => (read tokens).map fun (x, rest) => (some x, rest)

/-! ## Objects -/

/-- The parts that have been read. -/
structure Parts where
  query : Option String
  operationName : Option (Option String)
  /-- The values for the variables. -/
  bindings : Option (Option Json)
  extensions : Option (Option Json)

/-- No parts. -/
def Parts.none : Parts := ⟨.none, .none, .none, .none⟩

/-- Whether a part has been read. -/
def Parts.has (p : Parts) (name : String) : Bool :=
  match name with
  | "query" => p.query.isSome
  | "operationName" => p.operationName.isSome
  | "variables" => p.bindings.isSome
  | "extensions" => p.extensions.isSome
  | _ => false

/-- Reads the part under a name; what is under other names does not matter. -/
def part (p : Parts) (name : String) (tokens : List Token) :
    Except BodyFault (Parts × List Token) :=
  match name with
  | "query" => (text tokens).map fun (x, rest) => ({ p with query := some x }, rest)
  | "operationName" =>
    (nullable text tokens).map fun (x, rest) => ({ p with operationName := some x }, rest)
  | "variables" =>
    (nullable value tokens).map fun (x, rest) => ({ p with bindings := some x }, rest)
  | "extensions" =>
    (nullable value tokens).map fun (x, rest) => ({ p with extensions := some x }, rest)
  | _ => (anything tokens).map fun (_, rest) => (p, rest)

/-- Reads a name, the colon and the part under the name. -/
def entry (p : Parts) : List Token → Except BodyFault (Parts × List Token)
  | .text (some name) :: rest =>
    if p.has name then .error .unfit
    else
      match rest with
      | .colon :: rest => part p name rest
      | _ => .error .unreadable
  | _ => .error .unreadable

/-- Reads further entries up to the end of the object. -/
def entries : Nat → Parts → List Token → Except BodyFault (Parts × List Token)
  | fuel + 1, p, .comma :: rest => do
    let (p, rest) ← entry p rest
    entries fuel p rest
  | _, p, .closeObject :: rest => .ok (p, rest)
  | _, _, _ => .error .unreadable

/-- Reads the rest of an object. -/
def object : List Token → Except BodyFault (Parts × List Token)
  | .closeObject :: rest => .ok (.none, rest)
  | tokens => do
    let (p, rest) ← entry .none tokens
    entries rest.length p rest

/-- The request with some parts, of which the text of the request is needed. -/
def Parts.request (p : Parts) : Except BodyFault Request :=
  match p.query with
  | .none => .error .unfit
  | some query =>
    .ok { query, operationName := p.operationName.join
          bindings := (p.bindings.join.bind Json.asEntries?).getD [] }

/-! ## Lists -/

/-- Goes on to the next item of a list that is not complete. -/
def nextItem : List Token → Except BodyFault (List Token)
  | .comma :: rest => .ok rest
  | .closeList :: _ => .error .unfit
  | _ => .error .unreadable

/-- Reads the rest of a list, which holds all four parts in order. -/
def list : List Token → Except BodyFault (Parts × List Token)
  | .closeList :: _ => .error .unfit
  | tokens => do
    let (query, rest) ← text tokens
    let (operationName, rest) ← nullable text (← nextItem rest)
    let (bindings, rest) ← nullable value (← nextItem rest)
    let (extensions, rest) ← nullable value (← nextItem rest)
    match rest with
    | .closeList :: rest => return (⟨query, operationName, bindings, extensions⟩, rest)
    | _ => .error .unreadable

/-! ## Requests -/

/-- Reads a request. -/
def request : List Token → Except BodyFault (Request × List Token)
  | .openObject :: rest => do
    let (p, rest) ← object rest
    return (← p.request, rest)
  | .openList :: rest => do
    let (p, rest) ← list rest
    return (← p.request, rest)
  | .text (some _) :: _ | .number (some _) :: _ | .word _ :: _ => .error .unfit
  | _ => .error .unreadable

end Body

/-- Reads a request that is the whole text. -/
def Request.ofText (s : String) : Except BodyFault Request :=
  let scan := Token.ofText s
  match Body.request scan.tokens with
  | .error fault => .error fault
  | .ok (r, rest) => if rest.isEmpty && scan.complete then .ok r else .error .unreadable

end ModelGateway
