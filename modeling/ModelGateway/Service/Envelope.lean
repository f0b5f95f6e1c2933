import ModelGateway.Service.Http

/-!
# The error envelope

Callers look for errors in an envelope of their own and not in the answer to a request. An answer
whose first error has a wording is replaced by that envelope, under the status of a bad request.

To see whether it reports an error the whole body of a response has to arrive. That of an answer to
a request is a text and does (`Envelope.wrap`); in general a body is any bytes, and may break off
(`StreamedResponse.wrap`).
-/

namespace ModelGateway

/-! ## Responses on their way -/

/-- The body of a response on its way. -/
inductive StreamedBody where
  /-- It arrives, with these bytes. -/
  | arrives (bytes : ByteArray)
  /-- It breaks off before its end. -/
  | breaks

/-- A response on its way. -/
structure StreamedResponse where
  status : Nat
  headers : Headers
  body : StreamedBody

/-- A response as it is sent. -/
def HttpResponse.streamed (r : HttpResponse) : StreamedResponse :=
  { status := r.status, headers := r.headers, body := .arrives r.body.toUTF8 }

/-! ## Envelopes -/

namespace Envelope

/-- The error code that callers know. -/
def errorCode : String := "P5006"

/-- The envelope with a wording. -/
def engineNotStarted (message : String) : Json :=
  .obj [("EngineNotStarted", .obj [("reason", .obj [("KnownEngineStartupError",
    .obj [("msg", .str message), ("error_code", .str errorCode)])])])]

/-- The first error of an answer. -/
def firstError? (answer : Json) : Option Json :=
  match answer.get? "errors" with
  | some (.arr errors) => errors.head?
  | some (.obj entries) => Entries.get? entries "0"
  | _ => none

/-- The wording of the first error of an answer, if there is one. -/
def firstMessage? (answer : Json) : Option String :=
  match (firstError? answer).bind (·.get? "message") with
  | some (.str message) => if message.isEmpty then none else some message
  | _ => none

/-- Replaces a response that reports an error; its headers stay, those about the body apart. Any
other response stays as it is. -/
def wrap (r : HttpResponse) : HttpResponse :=
  match (Json.read? r.body).bind firstMessage? with
  | none => r
  | some message =>
    let wrapped := HttpResponse.json 400 (engineNotStarted message)
    { wrapped with
      headers := wrapped.headers ++
        r.headers.filter fun h => h.1 != "content-length" && h.1 != "content-type" }

end Envelope

namespace StreamedResponse

/-- Replaces a response that reports an error, as far as it arrives: a body that breaks off takes
status and headers with it, and bytes that are no text are no JSON. -/
def wrap (r : StreamedResponse) : StreamedResponse :=
  match r.body with
  | .breaks => (HttpResponse.empty 500).streamed
  | .arrives bytes =>
    match String.fromUTF8? bytes with
    | some body => (Envelope.wrap { status := r.status, headers := r.headers, body }).streamed
    | none => r

end StreamedResponse

end ModelGateway
