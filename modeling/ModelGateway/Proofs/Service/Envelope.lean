import ModelGateway.Proofs.Json.RoundTrip
import ModelGateway.Service.Envelope

/-!
# What the error envelope does to a response

A response reports an error if its body arrives and is read as JSON whose pointer
`/errors/0/message` is a text that is not empty (`StreamedResponse.Reports`). The reader takes JSON
with no more lists and objects inside each other than `Source.maxLevel`.

* **Pointers** (`Json.pointer?`): the part of a value at a path of names and places. The wording
  that the envelope looks for stands at one (`Envelope.firstMessage?_eq_some_iff`).
* **Envelopes** (`Envelope.read?_engineNotStarted`): the text of an envelope reads back as the
  envelope, and reports no error itself.
* **Responses** (`StreamedResponse.wrap_exact`): a response that reports an error becomes an
  envelope with its other headers, one whose body breaks off a bare failure, any other response
  stays as it is, and wrapping twice is wrapping once.
-/

namespace ModelGateway

/-! ## Pointers -/

namespace Json

/-- The place in a list that a part of a pointer means: digits without a needless zero. -/
def place? (part : String) : Option Nat :=
  if part = "0" then some 0
  else if part.toList.all Char.isDigit && part.toList.head?.any (· ≠ '0') then
    some (part.toList.foldl (fun n c => n * 10 + (c.toNat - '0'.toNat)) 0)
  else none

/-- The part of a value under a name of an object, or at a place of a list. -/
def part? : Json → String → Option Json
  | .obj entries, part => Entries.get? entries part
  | .arr items, part => (place? part).bind (items[·]?)
  | _, _ => none

/-- The part of a value at the end of a pointer. -/
def pointer? : Json → List String → Option Json
  | value, [] => some value
  | value, part :: rest => (value.part? part).bind fun inner => inner.pointer? rest

/-- A list inside so many others. -/
def nested : Nat → Json
  | 0 => .arr []
  | n + 1 => .arr [nested n]

/-- Lists inside each other are a value without numbers. -/
theorem worded_nested (n : Nat) : (nested n).Worded (n + 1) := by
  induction n with
  | zero => exact .arr (List.forall_mem_nil _)
  | succ n ih => exact .arr (List.forall_mem_singleton.mpr ih)

/-- Lists inside each other have no value if more are open than a value may have. -/
theorem toJson?_tree_nested {level : Nat} (n : Nat) (h : Source.maxLevel < level + (n + 1)) :
    ((nested n).tree level).toJson? = none := by
  induction n generalizing level with
  | zero =>
    rw [nested, tree, Source.toJson?, if_neg (by omega)]
  | succ n ih =>
    rw [nested, tree, itemTrees, Source.toJson?, Source.toJsonItems?, ih (by omega)]
    exact ite_self _

/-- A name that is no place leads into objects only. -/
theorem part?_eq_get? {part : String} (h : place? part = none) (value : Json) :
    value.part? part = value.get? part := by
  cases value with
  | arr items =>
    change (place? part).bind (items[·]?) = none
    rw [h]
    rfl
  | _ => rfl

end Json

/-! ## Headers -/

namespace Headers

/-- The values of the headers of a name, in their order. -/
def values (headers : Headers) (name : String) : List String :=
  (headers.filter fun h => h.1 == name).map (·.2)

/-- The values of a name that a filter keeps. -/
theorem values_filter_of_pos {headers : Headers} {keeps : String → Bool} {name : String}
    (h : keeps name = true) : values (headers.filter fun h => keeps h.1) name =
      headers.values name := by
  unfold values
  rw [List.filter_filter]
  congr 1
  refine List.filter_congr ?_
  intro e _
  by_cases hname : e.1 = name
  · rw [hname, h, Bool.and_true]
  · rw [beq_false_of_ne hname, Bool.false_and]

/-- A name that a filter drops has no values. -/
theorem values_filter_of_neg {headers : Headers} {keeps : String → Bool} {name : String}
    (h : keeps name = false) : values (headers.filter fun h => keeps h.1) name = [] := by
  unfold values
  rw [List.filter_filter, List.map_eq_nil_iff, List.filter_eq_nil_iff]
  intro e _
  by_cases hname : e.1 = name
  · rw [hname, h, Bool.and_false]
    exact Bool.false_ne_true
  · rw [beq_false_of_ne hname, Bool.false_and]
    exact Bool.false_ne_true

/-- The values of a name after a header of another name. -/
theorem values_cons_of_ne {name other : String} (h : other ≠ name) (value : String)
    (headers : Headers) : values ((other, value) :: headers) name = headers.values name := by
  unfold values
  rw [List.filter_cons_of_neg (by simpa using h)]

end Headers

/-! ## Messages -/

namespace Envelope

/-- The first error of an answer is at the start of a pointer. -/
theorem firstError?_eq (answer : Json) :
    firstError? answer = (answer.part? "errors").bind (·.part? "0") := by
  have herrors : Json.place? "errors" = none := by decide
  rw [Json.part?_eq_get? herrors]
  unfold firstError?
  cases answer.get? "errors" with
  | none => rfl
  | some errors =>
    cases errors with
    | arr items => exact List.head?_eq_getElem?
    | _ => rfl

/-- The wording that the envelope looks for is the text at a pointer, unless it is empty. -/
theorem firstMessage?_eq_some_iff {answer : Json} {message : String} :
    firstMessage? answer = some message ↔
      answer.pointer? ["errors", "0", "message"] = some (.str message) ∧ message ≠ "" := by
  have hmessage : Json.place? "message" = none := by decide
  have hpointer : answer.pointer? ["errors", "0", "message"] =
      (firstError? answer).bind (·.get? "message") := by
    rw [firstError?_eq, Option.bind_assoc]
    simp only [Json.pointer?, Option.bind_fun_some, Json.part?_eq_get? hmessage]
  rw [hpointer]
  unfold firstMessage?
  cases (firstError? answer).bind (·.get? "message") with
  | none => simp
  | some value =>
    cases value with
    | str text =>
      rw [Option.some_inj, Json.str.injEq]
      dsimp only
      split_ifs with hempty
      · rw [String.isEmpty_iff] at hempty
        constructor
        · rintro ⟨⟩
        · rintro ⟨rfl, hne⟩
          exact absurd hempty hne
      · rw [Option.some_inj]
        constructor
        · rintro rfl
          exact ⟨rfl, mt String.isEmpty_iff.mpr hempty⟩
        · exact And.left
    | _ => simp

/-! ## Envelopes -/

/-- An envelope is a value without numbers. -/
theorem worded_engineNotStarted (message : String) : (engineNotStarted message).Worded 4 := by
  have hinner : (Json.obj [("msg", .str message), ("error_code", .str errorCode)]).Worded 1 := by
    refine .obj (by simp [Entries.names]) (List.forall_mem_cons.mpr ⟨.str _, ?_⟩)
    exact List.forall_mem_singleton.mpr (.str _)
  refine .obj (List.nodup_singleton _) (List.forall_mem_singleton.mpr ?_)
  refine .obj (List.nodup_singleton _) (List.forall_mem_singleton.mpr ?_)
  exact .obj (List.nodup_singleton _) (List.forall_mem_singleton.mpr hinner)

/-- The text of an envelope reads back as the envelope. -/
theorem read?_engineNotStarted (message : String) :
    Json.read? (engineNotStarted message).text = some (engineNotStarted message) :=
  (worded_engineNotStarted message).read?_text (by decide)

/-- An envelope reports no error itself. -/
theorem firstMessage?_engineNotStarted (message : String) :
    firstMessage? (engineNotStarted message) = none :=
  rfl

/-- Whether the headers of a name stay when the body is replaced. -/
def keeps (name : String) : Bool :=
  name != "content-length" && name != "content-type"

/-- A response that reports an error becomes an envelope with its other headers. -/
theorem wrap_of_message {r : HttpResponse} {message : String}
    (h : (Json.read? r.body).bind firstMessage? = some message) :
    wrap r =
      { status := 400
        headers := ("content-type", "application/json") :: r.headers.filter fun h => keeps h.1
        body := (engineNotStarted message).text } := by
  unfold wrap
  rw [h]
  rfl

/-- A response that reports no error stays as it is. -/
theorem wrap_of_none {r : HttpResponse} (h : (Json.read? r.body).bind firstMessage? = none) :
    wrap r = r := by
  unfold wrap
  rw [h]

end Envelope

/-! ## Responses -/

namespace StreamedResponse

variable {r : StreamedResponse} {message : String}

/-- The response as a text, if its body arrives and is one. -/
def text? (r : StreamedResponse) : Option HttpResponse :=
  match r.body with
  | .breaks => none
  | .arrives bytes =>
    (String.fromUTF8? bytes).map fun body => { status := r.status, headers := r.headers, body }

/-- The body reports an error: it arrives as JSON that has a text at the pointer to the wording of
the first error, and the text is not empty. -/
def Reports (r : StreamedResponse) (message : String) : Prop :=
  ∃ bytes body value, r.body = .arrives bytes ∧ String.fromUTF8? bytes = some body ∧
    Json.read? body = some value ∧
    value.pointer? ["errors", "0", "message"] = some (.str message) ∧ message ≠ ""

/-- A text that is sent is the text. -/
theorem text?_streamed (r : HttpResponse) : r.streamed.text? = some r := by
  have hbody : String.fromUTF8? r.body.toUTF8 = some r.body := dif_pos r.body.isValidUTF8
  unfold text? HttpResponse.streamed
  dsimp only
  rw [hbody]
  rfl

/-- A response with a text is sent as it was. -/
theorem streamed_of_text? {text : HttpResponse} (h : r.text? = some text) : text.streamed = r := by
  obtain ⟨status, headers, body⟩ := r
  cases body with
  | breaks => cases h
  | arrives bytes =>
    obtain ⟨body, hbody, rfl⟩ := Option.map_eq_some_iff.mp h
    unfold String.fromUTF8? at hbody
    split_ifs at hbody
    cases hbody
    rfl

/-- Wrapping a response and sending it is sending it and wrapping what is sent. -/
theorem wrap_streamed (r : HttpResponse) : r.streamed.wrap = (Envelope.wrap r).streamed := by
  have hbody : String.fromUTF8? r.body.toUTF8 = some r.body := dif_pos r.body.isValidUTF8
  unfold wrap HttpResponse.streamed
  dsimp only
  rw [hbody]

/-- What arrives and is no text stays as it is. -/
theorem wrap_of_no_text (harrives : r.body ≠ .breaks) (h : r.text? = none) : r.wrap = r := by
  obtain ⟨status, headers, body⟩ := r
  cases body with
  | breaks => exact absurd rfl harrives
  | arrives bytes =>
    unfold wrap
    dsimp only
    rw [Option.map_eq_none_iff.mp h]

/-- What a response reports is the wording that the envelope looks for. -/
theorem reports_iff :
    r.Reports message ↔
      ∃ text, r.text? = some text ∧
        (Json.read? text.body).bind Envelope.firstMessage? = some message := by
  simp only [Option.bind_eq_some_iff, Envelope.firstMessage?_eq_some_iff]
  constructor
  · rintro ⟨bytes, body, value, hbytes, hbody, hvalue, hmessage⟩
    refine ⟨⟨r.status, r.headers, body⟩, ?_, value, hvalue, hmessage⟩
    unfold text?
    rw [hbytes]
    dsimp only
    rw [hbody]
    rfl
  · rintro ⟨text, htext, value, hvalue, hmessage⟩
    unfold text? at htext
    cases hbytes : r.body with
    | breaks =>
      rw [hbytes] at htext
      cases htext
    | arrives bytes =>
      rw [hbytes] at htext
      obtain ⟨body, hbody, rfl⟩ := Option.map_eq_some_iff.mp htext
      exact ⟨bytes, body, value, hbytes, hbody, hvalue, hmessage⟩

/-- A response that reports an error becomes an envelope with its other headers. -/
theorem wrap_of_reports (h : r.Reports message) :
    r.wrap =
      { status := 400
        headers := ("content-type", "application/json") ::
          r.headers.filter fun h => Envelope.keeps h.1
        body := .arrives (Envelope.engineNotStarted message).text.toUTF8 } := by
  obtain ⟨text, htext, hmessage⟩ := reports_iff.mp h
  rw [← streamed_of_text? htext, wrap_streamed, Envelope.wrap_of_message hmessage]
  rfl

/-- A response that arrives and reports no error stays as it is. -/
theorem wrap_of_not_reports (harrives : r.body ≠ .breaks) (h : ¬∃ message, r.Reports message) :
    r.wrap = r := by
  cases htext : r.text? with
  | none => exact wrap_of_no_text harrives htext
  | some text =>
    have hmessage : (Json.read? text.body).bind Envelope.firstMessage? = none := by
      refine Option.eq_none_iff_forall_ne_some.mpr ?_
      intro message hmessage
      exact h ⟨message, reports_iff.mpr ⟨text, htext, hmessage⟩⟩
    rw [← streamed_of_text? htext, wrap_streamed, Envelope.wrap_of_none hmessage]

/-- A response whose body breaks off becomes a failure without headers and body. -/
theorem wrap_of_breaks (h : r.body = .breaks) : r.wrap = (HttpResponse.empty 500).streamed := by
  unfold wrap
  rw [h]

/-- A response that is sent reports no error if there is no wording in its text. -/
theorem not_reports_streamed {r : HttpResponse}
    (h : (Json.read? r.body).bind Envelope.firstMessage? = none) :
    ¬∃ message, r.streamed.Reports message := by
  rintro ⟨message, hreports⟩
  obtain ⟨text, htext, hmessage⟩ := reports_iff.mp hreports
  rw [text?_streamed] at htext
  cases htext
  cases h.symm.trans hmessage

/-- A response that was wrapped arrives and reports no error. -/
theorem settled_wrap (r : StreamedResponse) :
    r.wrap.body ≠ .breaks ∧ ¬∃ message, r.wrap.Reports message := by
  by_cases h : ∃ message, r.Reports message
  · obtain ⟨message, hreports⟩ := h
    rw [wrap_of_reports hreports]
    refine ⟨StreamedBody.noConfusion, ?_⟩
    -- the new body is the text of the envelope
    change ¬∃ again, (HttpResponse.streamed
      ⟨400, _, (Envelope.engineNotStarted message).text⟩).Reports again
    refine not_reports_streamed ?_
    rw [Envelope.read?_engineNotStarted]
    exact Envelope.firstMessage?_engineNotStarted message
  · by_cases hbreaks : r.body = .breaks
    · rw [wrap_of_breaks hbreaks]
      refine ⟨StreamedBody.noConfusion, not_reports_streamed ?_⟩
      rfl
    · rw [wrap_of_not_reports hbreaks h]
      exact ⟨hbreaks, h⟩

/-- A response that reports an error is answered with status 400 and exactly the envelope with its
wording, and keeps all headers of other names than those about the body, each with all its values in
their order; the new body has the one media type. If the body breaks off, the answer is status 500
without headers and body. Any other response stays as it is: status, headers and bytes. So to wrap a
response twice is to wrap it once. -/
theorem wrap_exact (r : StreamedResponse) :
    (∀ message, r.Reports message →
      r.wrap.status = 400 ∧
      r.wrap.body = .arrives (Envelope.engineNotStarted message).text.toUTF8 ∧
      r.wrap.headers.values "content-type" = ["application/json"] ∧
      r.wrap.headers.values "content-length" = [] ∧
      ∀ name, name ≠ "content-type" → name ≠ "content-length" →
        r.wrap.headers.values name = r.headers.values name) ∧
    (r.body = .breaks → r.wrap = { status := 500, headers := [], body := .arrives "".toUTF8 }) ∧
    (r.body ≠ .breaks → (¬∃ message, r.Reports message) → r.wrap = r) ∧
    r.wrap.wrap = r.wrap := by
  obtain ⟨harrives, hsettled⟩ := settled_wrap r
  refine ⟨?_, wrap_of_breaks, wrap_of_not_reports, wrap_of_not_reports harrives hsettled⟩
  intro message hreports
  rw [wrap_of_reports hreports]
  have hdropped : ∀ name, Envelope.keeps name = false →
      Headers.values (r.headers.filter fun h => Envelope.keeps h.1) name = [] :=
    fun name h => Headers.values_filter_of_neg h
  refine ⟨rfl, rfl, ?_, ?_, ?_⟩
  · exact congrArg (List.cons "application/json") (hdropped "content-type" (by decide))
  · exact (Headers.values_cons_of_ne (by decide) _ _).trans (hdropped "content-length" (by decide))
  · intro name htype hlength
    refine (Headers.values_cons_of_ne (Ne.symm htype) _ _).trans (Headers.values_filter_of_pos ?_)
    unfold Envelope.keeps
    rw [bne_iff_ne.mpr hlength, bne_iff_ne.mpr htype]
    rfl

/-- A response whose body breaks off does not stay as it is, and one whose body is JSON that words
an error does, if more lists are inside each other than the reader takes. -/
theorem broken_replaced_deep_spared :
    let broken : StreamedResponse := { status := 200, headers := [], body := .breaks }
    let answer := Json.obj [("errors", .arr [.obj [("message", .str "m")]]), ("data", .nested 126)]
    let deep := (HttpResponse.json 200 answer).streamed
    broken.wrap.status = 500 ∧
      deep.body = .arrives answer.text.toUTF8 ∧
      answer.pointer? ["errors", "0", "message"] = some (.str "m") ∧
      deep.wrap = deep ∧ deep.status = 200 := by
  intro broken answer deep
  have hworded : answer.Worded 128 := by
    refine .obj (by decide) (List.forall_mem_cons.mpr ⟨?_, ?_⟩)
    · refine .arr (List.forall_mem_singleton.mpr ?_)
      exact .obj (by decide) (List.forall_mem_singleton.mpr (.str "m"))
    · exact List.forall_mem_singleton.mpr (Json.worded_nested 126)
  have hdata : ((Json.nested 126).tree 1).toJson? = none :=
    Json.toJson?_tree_nested 126 (by decide)
  have hunread : Json.read? answer.text = none := by
    rw [hworded.read?_text_eq]
    unfold answer
    rw [Json.tree, Json.entryTrees, Json.entryTrees, Source.toJson?, Source.toJsonEntries?,
      Source.toJsonEntries?, hdata]
    rfl
  refine ⟨rfl, rfl, rfl, ?_, rfl⟩
  refine wrap_of_not_reports StreamedBody.noConfusion (not_reports_streamed ?_)
  change (Json.read? answer.text).bind Envelope.firstMessage? = none
  rw [hunread]
  rfl

end StreamedResponse

end ModelGateway
