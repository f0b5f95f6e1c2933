import ModelGateway.Json.Printer
import ModelGateway.Json.Reader
import ModelGateway.Text.Lower

/-!
# HTTP messages

Requests and responses as the service sees them. Names of headers are in lower case, and of several
headers of one name the first counts. `HttpRequest.make?` refuses what is no request.
-/

namespace ModelGateway

/-- Headers by lower-case name. -/
abbrev Headers := List (String × String)

namespace Headers

/-- The value of the first header of a name. -/
def get? (headers : Headers) (name : String) : Option String :=
  (headers.find? fun h => h.1 == name).map (·.2)

/-- The headers with one of a name in place of all of that name. -/
def set (headers : Headers) (name value : String) : Headers :=
  (headers.filter fun h => h.1 != name) ++ [(name, value)]

end Headers

/-- A request. -/
structure HttpRequest where
  method : String
  /-- The path of the target, without a query. -/
  path : String
  headers : Headers
  body : String
deriving DecidableEq, Repr

/-- A response. -/
structure HttpResponse where
  status : Nat
  headers : Headers
  body : String
deriving DecidableEq, Repr

/-! ## Characters -/

namespace Http

/-- Whether a character may stand in a method, a header name or a part of a media type. -/
def isTokenChar (c : Char) : Bool :=
  c.isAlphanum || "!#$%&'*+-.^_|~".toList.contains c || c.toNat == 0x60

/-- Whether a text is a token. -/
def isToken (s : String) : Bool :=
  !s.isEmpty && s.toList.all isTokenChar

/-- Whether a character may stand in the value of a header. -/
def isValueChar (c : Char) : Bool :=
  c == '\t' || (0x20 ≤ c.toNat && c.toNat != 0x7f)

/-- Whether a character of a value can be shown in ASCII. -/
def isVisible (c : Char) : Bool :=
  isValueChar c && c.toNat < 0x7f

/-- Whether a character may stand in the path of a target. -/
def isPathChar (c : Char) : Bool :=
  0x21 ≤ c.toNat && c != '#' && c != '<' && c != '>' && c != '?' && c.toNat != 0x60

/-- Whether a character may stand in the query of a target. -/
def isQueryChar (c : Char) : Bool :=
  0x21 ≤ c.toNat && c != '"' && c != '#' && c != '<' && c != '>'

/-- Whether a character may stand in the name of a host, with its user and its port. -/
def isHostChar (c : Char) : Bool :=
  c.isAlphanum || "!$%&'()*+,-.:;=@[]_~".toList.contains c

/-- Whether a path without the query after it is one. -/
def isTargetPath (cs : List Char) : Bool :=
  match cs.dropWhile isPathChar with
  | [] => true
  | '#' :: _ => true
  | '?' :: rest =>
    match rest.dropWhile isQueryChar with
    | [] => true
    | c :: _ => c == '#'
  | _ => false

/-- The path that a target with a path of its own starts with. -/
def pathOf? (cs : List Char) : Option String :=
  if isTargetPath cs then some (String.ofList (cs.takeWhile isPathChar)) else none

/-- Splits the scheme of an absolute target off. -/
def dropScheme? : List Char → Option (List Char)
  | ':' :: '/' :: '/' :: rest => some rest
  | c :: rest => if c.isAlphanum || c == '+' || c == '-' || c == '.' then dropScheme? rest else none
  | [] => none

/-- The path of a target that names a host. -/
def hostPath? (absolute : Bool) (cs : List Char) : Option String :=
  let rest := cs.dropWhile isHostChar
  if rest.length == cs.length then none
  else
    match rest with
    | [] => some (if absolute then "/" else "")
    | c :: _ =>
      if !absolute then none
      else if c == '/' then pathOf? rest
      else if c == '?' || c == '#' then (pathOf? rest).map fun _ => "/"
      else none

/-- The path of a target. -/
def targetPath? (target : String) : Option String :=
  match target.toList with
  | [] => none
  | ['*'] => some "*"
  | '/' :: rest => pathOf? ('/' :: rest)
  | cs =>
    match dropScheme? cs with
    | some rest => hostPath? true rest
    | none => hostPath? false cs

end Http

namespace HttpRequest

/-- A header with its name in lower case, if it is one. -/
def header? (name value : String) : Option (String × String) :=
  if Http.isToken name && value.toList.all Http.isValueChar then some (Text.lowerAscii name, value)
  else none

/-- A request, if its parts can be those of one. -/
def make? (method target : String) (headers : Headers) (body : String) : Option HttpRequest := do
  guard (Http.isToken method)
  let path ← Http.targetPath? target
  let headers ← headers.mapM fun h => header? h.1 h.2
  return { method, path, headers, body }

end HttpRequest

/-! ## Media types -/

namespace MediaType

/-- Whether a character may stand between the quotes of a parameter. -/
def isQuotedChar (c : Char) : Bool :=
  0x20 ≤ c.toNat && c.toNat != 0x7f && c != '"'

/-- Drops the value of a parameter and the semicolon after it. -/
def dropValue? : List Char → Option (List Char)
  | '"' :: rest =>
    match rest.takeWhile isQuotedChar, rest.dropWhile isQuotedChar with
    | _ :: _, '"' :: rest =>
      match rest.dropWhile (· == ' ') with
      | [] => some []
      | ';' :: rest => some rest
      | _ => none
    | _, _ => none
  | cs =>
    match cs.takeWhile Http.isTokenChar, cs.dropWhile Http.isTokenChar with
    | _, [] => some []
    | _ :: _, ';' :: rest => some rest
    | _, _ => none

/-- Whether a text is a list of parameters, each with a name and a value. -/
def areParameters : Nat → List Char → Bool
  | _, [] => true
  | 0, _ => false
  | fuel + 1, cs =>
    match cs with
    | ' ' :: rest => areParameters fuel rest
    | cs =>
      match cs.takeWhile Http.isTokenChar, cs.dropWhile Http.isTokenChar with
      | _ :: _, '=' :: rest =>
        match dropValue? rest with
        | some rest => areParameters fuel rest
        | none => false
      | _, _ => false

/-- The parts of a name around its last plus sign, which does not come first. -/
def splitSuffix (name : List Char) : List Char × Option (List Char) :=
  match name.reverse.dropWhile (· != '+') with
  | [] | ['+'] => (name, none)
  | _ :: before => (before.reverse, some (name.drop (before.length + 1)))

/-- Whether a subtype is JSON, or a format that is written in JSON. -/
def isJsonName (name : List Char) : Bool :=
  let (main, suffix) := splitSuffix name
  main == "json".toList || suffix == some "json".toList

/-- Whether a media type is one of JSON. -/
def isJson (s : String) : Bool :=
  let cs := (Text.lowerAscii s).toList
  match cs.takeWhile (· != '/'), cs.dropWhile (· != '/') with
  | main, '/' :: rest =>
    let name := rest.takeWhile Http.isTokenChar
    main == "application".toList && isJsonName name &&
      match rest.dropWhile Http.isTokenChar with
      | [] => true
      | ';' :: parameters => areParameters parameters.length parameters
      | _ => false
  | _, _ => false

end MediaType

/-! ## Responses -/

namespace HttpResponse

/-- A response without a body. -/
def empty (status : Nat) : HttpResponse :=
  { status, headers := [], body := "" }

/-- A response with a plain text. -/
def plain (status : Nat) (body : String) : HttpResponse :=
  { status, headers := [("content-type", "text/plain; charset=utf-8")], body }

/-- A response with a JSON value. -/
def json (status : Nat) (value : Json) : HttpResponse :=
  { status, headers := [("content-type", "application/json")], body := value.text }

/-- Whether the request was fulfilled. -/
def isSuccess (r : HttpResponse) : Bool :=
  200 ≤ r.status && r.status < 300

end HttpResponse

end ModelGateway
