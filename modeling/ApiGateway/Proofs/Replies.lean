import ApiGateway.Proofs.Deliveries
import ApiGateway.Proofs.Json.RoundTrip
import ApiGateway.Proofs.PostponedHandlers
import ApiGateway.Proofs.TrimmedTexts

/-!
# Replies of operations

A handler that leaves the form of its response open returns a reply.  Text, JSON scalars and
structured JSON take different ways through the preparation of the payload and the choice of
a native form, but where JSON is asked for, each of them is encoded once.  So the body that
is sent is the document of the payload.  A reply without content has no body to be typed.
Its preparation drops the media type, and the response has that of the operation all the
same.

Main definitions:

- `Payload.value?`: the JSON value that a payload stands for.

Main results:

- `MediaType.withCharset_of_isJson`: JSON media types are announced as they are.
- `Payload.respond_of_asksForJson`: one encoding, whatever the payload is.
- `Dispatcher.delivers_reply`: what a reply is delivered as.
- `Dispatcher.json_reply_is_sent_as_document`: the body sent is the document of the payload.
- `Dispatcher.contentless_reply_is_sent_with_media_type`: what is sent without content.
-/

namespace ApiGateway

variable {E : Signature} {σ : Type}

/-! ## JSON media types -/

namespace MediaType

/-- A JSON media type is an application type. -/
theorem application_isPrefix_of_isJson {mediaType : Bytes} (h : isJson mediaType = true) :
    Bytes.ofString "application" <+: mediaType := by
  have hcut : (Bytes.cut 47 (withoutParameters mediaType)).1 = Bytes.ofString "application" := by
    rw [isJson] at h
    split at h
    · cases h
    · rename_i main sub hcut
      rw [hcut]
      exact beq_iff_eq.1 (Bool.and_eq_true_iff.1 h).1
  rw [← hcut]
  exact (Bytes.cut_isPrefix 47 _).trans
    ((Bytes.trimEnd_isPrefix _ _).trans (Bytes.cut_isPrefix 59 mediaType))

/-- JSON media types are announced as they are. -/
theorem withCharset_of_isJson {mediaType : Bytes} (h : isJson mediaType = true) :
    withCharset mediaType = mediaType := by
  have htext : (Bytes.ofString "text/").isPrefixOf mediaType = false := by
    refine Bool.eq_false_iff.2 fun htext => ?_
    have hboth : Bytes.ofString "text/" <+: Bytes.ofString "application" :=
      List.prefix_of_prefix_length_le (List.isPrefixOf_iff_prefix.1 htext)
        (application_isPrefix_of_isJson h) (by decide)
    exact absurd hboth (by decide)
  rw [withCharset, htext, Bool.false_and]
  exact if_neg Bool.false_ne_true

end MediaType

/-! ## Payloads -/

namespace Payload

/-- The JSON value that a payload stands for: text is the string of its bytes. -/
def value? : Payload → Option Json.Value
  | .text value => some (.ofText value)
  | .json value => some value
  | _ => Option.none

section Responding

variable {data : Payload} {v : Json.Value} {mediaType : Option Bytes}

/-- Where JSON is asked for, nothing is worth a line. -/
theorem notices_of_asksForJson (data : Payload) (hjson : asksForJson mediaType = true) :
    data.notices mediaType = [] := by
  cases data with
  | json value => rw [notices, hjson, Bool.or_true, if_pos rfl]
  | _ => rfl

/-- Where JSON is asked for, a media type is declared. -/
theorem exists_of_asksForJson (h : asksForJson mediaType = true) : ∃ type, mediaType = some type :=
  Option.isSome_iff_exists.1 (Option.isSome_of_any h)

/-- Where JSON is asked for, text is encoded when the payload is prepared. -/
theorem prepare_text_of_asksForJson (hjson : asksForJson mediaType = true) (value : Bytes)
    (status : Option Int) :
    prepare (.text value) mediaType status =
      ⟨.text (Json.Value.ofText value).dump, status.getD 200, mediaType⟩ :=
  if_pos hjson

/-- Structured JSON is encoded when it is sent. -/
theorem prepare_json_of_isStructured (hshape : v.isStructured = true) (type : Bytes)
    (status : Option Int) :
    prepare (.json v) (some type) status = ⟨.json v, status.getD 200, some type⟩ :=
  if_pos hshape

/-- Where JSON is asked for, a JSON scalar is encoded when the payload is prepared. -/
theorem prepare_json_of_asksForJson (hjson : asksForJson mediaType = true)
    (hshape : v.isStructured = false) (status : Option Int) :
    prepare (.json v) mediaType status = ⟨.text v.dump, status.getD 200, mediaType⟩ := by
  rw [prepare, hshape, if_neg Bool.false_ne_true, if_pos hjson]

/-- A payload that stands for a value is sent as it is prepared, under the declared media type. -/
theorem respond_of_value? (hvalue : data.value? = some v) (type : Bytes) (status : Option Int)
    (headers : Http.Headers) :
    data.respond (some type) .none status headers =
      .ok (Prepared.respond (data.prepare (some type) status) (some type) headers) := by
  cases data with
  | text value => rfl
  | json value => rfl
  | none => cases hvalue
  | binary value => cases hvalue
  | native value => cases hvalue

/--
Where JSON is asked for, the response has the declared media type, and its body is the text of the
value that the payload stands for.
-/
theorem respond_of_asksForJson (hjson : asksForJson mediaType = true)
    (hvalue : data.value? = some v) (status : Option Int) (headers : Http.Headers) :
    ∃ res, data.respond mediaType .none status headers = .ok res ∧
      res.head = ⟨status.getD 200, mediaType, headers⟩ ∧ res.body? = some v.dump ∧
      res.IsMaterialized := by
  rcases exists_of_asksForJson hjson with ⟨type, rfl⟩
  refine ⟨_, respond_of_value? hvalue type status headers, ?_⟩
  cases data with
  | text value =>
      cases hvalue
      rw [prepare_text_of_asksForJson hjson]
      exact ⟨rfl, rfl, trivial⟩
  | json value =>
      cases hvalue
      cases hshape : v.isStructured with
      | true =>
          rw [prepare_json_of_isStructured hshape, Prepared.respond]
          dsimp only
          rw [if_pos hshape]
          exact ⟨rfl, rfl, trivial⟩
      | false =>
          rw [prepare_json_of_asksForJson hjson hshape]
          exact ⟨rfl, rfl, trivial⟩
  | none => cases hvalue
  | binary value => cases hvalue
  | native value => cases hvalue

/-- No content without a status is 204, under the media type that is declared nevertheless. -/
theorem respond_none_of_no_status (mediaType contentType : Option Bytes) (headers : Http.Headers) :
    respond .none mediaType contentType .none headers =
      .ok (.plain ⟨204, contentType.or mediaType, headers⟩ .none) := by
  simp only [respond, prepare, defaultMediaType, Option.or_none, Prepared.respond, scalarBody]

end Responding
end Payload

/-! ## Replies in a run -/

namespace Dispatcher

variable {d : Dispatcher E} {sc : Scope} {inv : Invoker E} {host : Host (Exchange E) σ} {s : σ}
  {reply : Reply}

/-- An invoked operation is called, and its result is responded to. -/
theorem serve_of_branch_eq_invoke (h : d.branch sc.routing = .invoke inv) :
    d.serve sc = (inv.invoke sc).bind (respond d.observed inv.mediaType) := by
  rw [serve, h]

/-- A reply is delivered as the response that it becomes, if that has its body at hand. -/
theorem delivers_reply (hinvoked : d.branch sc.routing = .invoke inv)
    (hreply : ((inv.invoke sc).run host s).outcome = .ok (.reply reply)) {res : Native}
    (hnative : reply.body.respond inv.mediaType none reply.status reply.headers = .ok res)
    (hnotices : reply.body.notices inv.mediaType = []) (hmaterialized : res.IsMaterialized) :
    (d.serve sc).Delivers host s (if d.observed then [res.toCanonical inv.mediaType] else [])
      (Native.wholeMessages res.head (res.body?.getD [])) := by
  have hresult : (HandlerResult.reply reply).toNative inv.mediaType = .ok res := hnative
  rw [serve_of_branch_eq_invoke hinvoked]
  exact .after (inv.admits_invoke sc) (inv.admits_invoke_of trivial (fun _ => trivial) sc) hreply
    (delivers_respond hresult hnotices hmaterialized d.observed host _)

/--
Under a JSON media type a reply is sent as the JSON document of its payload.  The operation has
returned text or a JSON value without numbers, with any status and headers.  Then nothing is logged,
and the response has the declared media type, also in the canonical form that an observer is shown.
It is sent as one chunk, which is a JSON text and decodes to the value of the payload: for text, to
the JSON string of its bytes.
-/
theorem json_reply_is_sent_as_document (hinvoked : d.branch sc.routing = .invoke inv)
    (hjson : MediaType.isJson inv.operation.mediaType = true)
    (hreply : ((inv.invoke sc).run host s).outcome = .ok (.reply reply)) {v : Json.Value}
    (hvalue : reply.body.value? = some v) (hfree : Json.NumberFree v.document)
    (real : Json.Numeral → Binary64) :
    let declared := inv.operation.mediaType
    let status := reply.status.getD 200
    ∃ headers body,
      (d.serve sc).Delivers host s
        (if d.observed then [⟨status, some declared, some declared, reply.headers, some body⟩]
          else [])
        [.start status headers, .body body false] ∧
      headers.get? contentTypeName =
        (reply.headers.get? contentTypeName).or (some declared) ∧
      Json.Grammar real (.element v.document) body ∧
      ∃ w, Json.decode? real body = some w ∧ w.same v = true := by
  intro declared status
  have hasks : Payload.asksForJson inv.mediaType = true := hjson
  rcases Payload.respond_of_asksForJson hasks hvalue reply.status reply.headers with
    ⟨res, hnative, hhead, hbody, hmaterialized⟩
  have hdelivers := delivers_reply hinvoked hreply hnative
    (Payload.notices_of_asksForJson reply.body hasks) hmaterialized
  have hcanonical : res.toCanonical inv.mediaType =
      ⟨status, some declared, some declared, reply.headers, some v.dump⟩ := by
    rw [Native.toCanonical, Native.status, hhead, hbody]
    rfl
  rw [hcanonical, hhead, hbody, Option.getD_some, Native.wholeMessages_eq] at hdelivers
  have hread : Json.read? real v.dump = some v.document := Json.read?_dump real hfree
  refine ⟨_, v.dump, hdelivers, ?_, Json.read?_eq_some_iff.1 hread,
    Json.Value.ofDocument v.document, ?_, ?_⟩
  · rw [Native.get?_wholeHeaders]
    exact congrArg (fun type => (reply.headers.get? contentTypeName).or (some type))
      (MediaType.withCharset_of_isJson hjson)
  · rw [Json.decode?, hread]
    rfl
  · rw [Json.Value.same, Json.Value.document_ofDocument]
    exact (Json.NumberFree.same_iff hfree _).2 rfl

end Dispatcher

/-! ## Samples -/

namespace Sample

/-- An operation that declares the media types and answers with the reply. -/
def replying (reply : Reply) (produces : List Bytes) : Invoker Signature.empty where
  operation := { operationId := [97], produces }
  handler := .sync fun _ => .done (.reply reply)

/-- A dispatcher of that operation, with an observer. -/
def answering (reply : Reply) (produces : List Bytes) : Dispatcher Signature.empty where
  ownBasePath := none
  operations := .ofList [([97], replying reply produces)]
  fallback _ := .done ()
  subApps := .empty
  observed := true

/-- A request for that operation. -/
def operationScope : Scope :=
  { request := {}, routing := some { operationId := some [97] } }

/-- The events of that request. -/
def answeringEvents (reply : Reply) (produces : List Bytes) :
    List (Event (Exchange Signature.empty)) :=
  ((answering reply produces).serve operationScope).transcript accepting ()

/-- The media type of a flavour of JSON, with a parameter. -/
def flavouredJson : Bytes :=
  Bytes.ofString "application/problem+json; v=1"

/-- Text with a quotation mark and bytes that are not valid UTF-8. -/
def oddText : Reply :=
  { body := .text [34, 0, 255], status := some 418 }

/-- That text is sent as the JSON string of its bytes. -/
theorem oddText_is_sent_as_string :
    (answering oddText [flavouredJson]).branch operationScope.routing =
        .invoke (replying oddText [flavouredJson]) ∧
      MediaType.isJson (replying oddText [flavouredJson]).operation.mediaType = true ∧
      (((replying oddText [flavouredJson]).invoke operationScope).run accepting ()).outcome =
        .ok (.reply oddText) ∧
      oddText.body.value? = some (.ofText [34, 0, 255]) ∧
      Json.NumberFree (Json.Value.ofText [34, 0, 255]).document ∧
      Event.logged (answeringEvents oddText [flavouredJson]) = [] ∧
      ∃ w, Json.decode? (fun _ => Binary64.zero)
          (Message.bodyOf (Event.messages (answeringEvents oddText [flavouredJson]))) = some w ∧
        w.same (.ofText [34, 0, 255]) = true := by
  have hinvoked : (answering oddText [flavouredJson]).branch operationScope.routing =
      .invoke (replying oddText [flavouredJson]) := rfl
  have hjson : MediaType.isJson (replying oddText [flavouredJson]).operation.mediaType = true := by
    decide
  have hreply : (((replying oddText [flavouredJson]).invoke operationScope).run accepting
      ()).outcome = .ok (.reply oddText) := rfl
  have hvalue : oddText.body.value? = some (.ofText [34, 0, 255]) := rfl
  have hfree : Json.NumberFree (Json.Value.ofText [34, 0, 255]).document := .string _
  rcases Dispatcher.json_reply_is_sent_as_document hinvoked hjson hreply hvalue hfree
      fun _ => Binary64.zero with
    ⟨headers, body, hdelivers, -, -, hdecoded⟩
  have hsent : Event.messages (answeringEvents oddText [flavouredJson]) =
      [.start 418 headers, .body body false] :=
    hdelivers.complete (hdelivers.accepted ⟨fun _ _ => rfl, fun _ _ => rfl⟩)
  refine ⟨hinvoked, hjson, hreply, hvalue, hfree, hdelivers.unlogged, ?_⟩
  have hbody : Message.bodyOf [.start 418 headers, .body body false] = body :=
    List.append_nil body
  rw [hsent, hbody]
  exact hdecoded

end Sample

/-! ## Replies without content -/

/--
A reply without content and status is sent as 204 with one empty chunk, and an observer is shown no
body.  The preparation of the reply drops the media type.  The response and its canonical form have
that of the operation all the same, so the start announces it unless the reply gives another one.
-/
theorem Dispatcher.contentless_reply_is_sent_with_media_type {d : Dispatcher E} {sc : Scope}
    {inv : Invoker E} {host : Host (Exchange E) σ} {s : σ} {reply : Reply}
    (hinvoked : d.branch sc.routing = .invoke inv)
    (hreply : ((inv.invoke sc).run host s).outcome = .ok (.reply reply))
    (hempty : reply.body = .none) (hstatus : reply.status = none) :
    let declared := inv.operation.mediaType
    (reply.body.prepare (some declared) reply.status).mediaType = none ∧
      ∃ headers,
        (d.serve sc).Delivers host s
          (if d.observed then [⟨204, some declared, some declared, reply.headers, none⟩] else [])
          [.start 204 headers, .body [] false] ∧
        headers.get? contentTypeName =
          (reply.headers.get? contentTypeName).or (some (MediaType.withCharset declared)) := by
  intro declared
  have hnative : reply.body.respond inv.mediaType none reply.status reply.headers =
      .ok (.plain ⟨204, some declared, reply.headers⟩ none) := by
    rw [hempty, hstatus, Payload.respond_none_of_no_status]
    rfl
  have hnotices : reply.body.notices inv.mediaType = [] := by
    rw [hempty]
    rfl
  have hdelivers := delivers_reply hinvoked hreply hnative hnotices trivial
  refine ⟨?_, _, hdelivers, Native.get?_wholeHeaders _ _⟩
  rw [hempty, hstatus]
  rfl

namespace Sample

/-- A reply without content is sent with the media type of its operation. -/
theorem contentless_reply_is_typed :
    (answering {} [MediaType.text]).branch operationScope.routing =
        .invoke (replying {} [MediaType.text]) ∧
      (((replying {} [MediaType.text]).invoke operationScope).run accepting ()).outcome =
        .ok (.reply {}) ∧
      ({} : Reply).body = .none ∧ ({} : Reply).status = none ∧
      ∃ headers, Event.messages (answeringEvents {} [MediaType.text]) =
          [.start 204 headers, .body [] false] ∧
        headers.get? contentTypeName = some (Bytes.ofString "text/plain; charset=utf-8") := by
  have hinvoked : (answering {} [MediaType.text]).branch operationScope.routing =
      .invoke (replying {} [MediaType.text]) := rfl
  have hreply : (((replying {} [MediaType.text]).invoke operationScope).run accepting
      ()).outcome = .ok (.reply {}) := rfl
  rcases (Dispatcher.contentless_reply_is_sent_with_media_type hinvoked hreply rfl rfl).2 with
    ⟨headers, hdelivers, htype⟩
  refine ⟨hinvoked, hreply, rfl, rfl, headers, ?_, htype⟩
  exact hdelivers.complete (hdelivers.accepted ⟨fun _ _ => rfl, fun _ _ => rfl⟩)

/--
A contentless reply without headers, to an operation that declares nothing, is not sent without
content type, and its canonical form has one.
-/
theorem contentless_reply_is_not_untyped :
    (¬∃ headers, Event.messages (answeringEvents {} []) = [.start 204 headers, .body [] false] ∧
        headers.contains contentTypeName = false) ∧
      Event.observed (answeringEvents {} []) =
        [⟨204, some MediaType.json, some MediaType.json, [], none⟩] := by
  refine ⟨?_, by decide⟩
  rintro ⟨headers, hsent, huntyped⟩
  have hmessages : Event.messages (answeringEvents {} []) =
      [.start 204 [(contentTypeName, MediaType.json), (contentLengthName, [48])],
        .body [] false] := by decide
  rw [hmessages] at hsent
  cases hsent
  exact absurd huntyped (by decide)

end Sample
end ApiGateway
