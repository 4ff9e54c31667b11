import ApiGateway.Response.Framing

/-!
# Canonical forms

The canonical form of a response says all about it but its native shape.  Going from a
canonical form to a native response and back settles the two media types and touches
nothing else, and a form that is settled stays as it is.  The canonical form of a
materialized response is settled already unless its media type is still open, so the
response that it becomes is sent with the same messages.

Main definitions:

- `Canonical.sentType`: the media type with which a canonical response is sent.
- `Canonical.roundTrip`: to a native response and back.
- `Canonical.settle`, `Canonical.Settled`: what comes back, and forms that come back unchanged.
- `Native.IsMaterialized`: responses whose body is at hand.

Main results:

- `Canonical.toNative_eq`: the native response of a canonical one.
- `Canonical.settle_eq_self_iff`: the forms that come back unchanged.
- `Canonical.roundTrip_keeps_response`: what a round trip keeps, and what it settles.
- `Native.canonical_form_keeps_messages`: a materialized response and its canonical form are
  sent with the same messages.
-/

namespace ApiGateway

/-! ## Payloads with a given status -/

namespace Payload

/-- No content under a given status keeps the status and the media type. -/
theorem respond_none (mediaType contentType : Option Bytes) (status : Int)
    (headers : Http.Headers) :
    respond .none mediaType contentType (some status) headers =
      .ok (.plain ⟨status, contentType.or mediaType, headers⟩ Option.none) := by
  simp only [respond, prepare, defaultMediaType, Option.or_self, Option.or_none,
    Prepared.respond, scalarBody]

/-- Bytes are sent as they are, whatever media type is declared for them. -/
theorem respond_binary (value : Bytes) (mediaType contentType : Option Bytes)
    (status : Option Int) (headers : Http.Headers) :
    respond (.binary value) mediaType contentType status headers =
      .ok (.plain ⟨status.getD 200, (contentType.or mediaType).or (some MediaType.binary), headers⟩
        (some value)) := by
  simp only [respond, prepare, defaultMediaType, Option.or_self, Prepared.respond, scalarBody]

end Payload

/-! ## Round trips -/

namespace Canonical

/--
The media type with which a canonical response is sent: its content type, else its declared media
type, else the fallback, and for a body without any of these that of bytes.
-/
def sentType (c : Canonical) (fallback : Option Bytes) : Option Bytes :=
  c.contentType.or (c.mediaType.or (fallback.or (c.body.map fun _ => MediaType.binary)))

/-- The native response is a plain one, whatever the response was before. -/
theorem toNative_eq (c : Canonical) (fallback : Option Bytes) :
    c.toNative fallback =
      .ok (.plain ⟨c.status, c.sentType fallback, c.headers⟩ c.body) := by
  unfold toNative sentType
  cases c.body with
  | none =>
      rw [Option.elim_none, Payload.respond_none, Option.map_none, Option.or_none]
  | some value =>
      rw [Option.elim_some, Payload.respond_binary, Option.map_some, Option.getD_some]
      simp only [Option.or_assoc]

/-- To a native response and back under the same media type. -/
def roundTrip (c : Canonical) (mediaType : Option Bytes) : Except Fault Canonical :=
  (c.toNative mediaType).map fun res => res.toCanonical mediaType

/-- The canonical response with its media types settled. -/
def settle (c : Canonical) (mediaType : Option Bytes) : Canonical :=
  { c with mediaType, contentType := c.sentType mediaType }

/-- A round trip settles the media types. -/
theorem roundTrip_eq (c : Canonical) (mediaType : Option Bytes) :
    c.roundTrip mediaType = .ok (c.settle mediaType) := by
  rw [roundTrip, toNative_eq]
  rfl

/-- A form is settled if only a response without body and media type has no content type. -/
structure Settled (c : Canonical) (mediaType : Option Bytes) : Prop where
  declared : c.mediaType = mediaType
  typed : c.contentType = none → mediaType = none ∧ c.body = none

/-- The media types are settled after a round trip. -/
theorem settled_settle (c : Canonical) (mediaType : Option Bytes) :
    (c.settle mediaType).Settled mediaType where
  declared := rfl
  typed := by
    intro hnone
    have hsent : c.sentType mediaType = none := hnone
    simp only [sentType, Option.or_eq_none_iff, Option.map_eq_none_iff] at hsent
    exact hsent.2.2

/-- A settled form is sent with its own content type. -/
theorem Settled.sentType_eq {c : Canonical} {mediaType : Option Bytes}
    (h : c.Settled mediaType) : c.sentType mediaType = c.contentType := by
  cases htype : c.contentType with
  | some type => rw [sentType, htype, Option.some_or]
  | none =>
      obtain ⟨hmedia, hbody⟩ := h.typed htype
      rw [sentType, htype, h.declared, hmedia, hbody]
      rfl

/-- The settled forms are those that come back unchanged. -/
theorem settle_eq_self_iff {c : Canonical} {mediaType : Option Bytes} :
    c.settle mediaType = c ↔ c.Settled mediaType := by
  constructor
  · intro hsame
    rw [← hsame]
    exact c.settled_settle mediaType
  · intro h
    rw [settle, h.sentType_eq, ← h.declared]

/--
A round trip always succeeds and keeps status, headers and body.  The media type becomes the one
of the round trip, and the content type the first that is known of the content type, the media
type, the one of the round trip, and that of bytes if there is a body.  A second round trip
changes nothing.
-/
theorem roundTrip_keeps_response (c : Canonical) (mediaType : Option Bytes) :
    ∃ back, c.roundTrip mediaType = .ok back ∧
      back.status = c.status ∧ back.headers = c.headers ∧ back.body = c.body ∧
      back.contentType =
        c.contentType.or (c.mediaType.or (mediaType.or (c.body.map fun _ => MediaType.binary))) ∧
      back.mediaType = mediaType ∧ back.roundTrip mediaType = .ok back := by
  refine ⟨c.settle mediaType, c.roundTrip_eq mediaType, rfl, rfl, rfl, rfl, rfl, ?_⟩
  rw [roundTrip_eq, settle_eq_self_iff.2 (c.settled_settle mediaType)]

end Canonical

/-! ## Messages -/

namespace Native

variable {E : Signature}

/-- The body of a plain or JSON response is at hand; that of a stream or a file is not. -/
def IsMaterialized : Native → Prop
  | .plain _ _ => True
  | .json _ _ => True
  | .stream _ _ => False
  | .file _ _ => False

/-- A materialized response is sent as a start and its whole body. -/
theorem send_of_isMaterialized {res : Native} (h : res.IsMaterialized) :
    (res.send : Prog (Exchange E) Unit) =
      Exchange.sendAll (wholeMessages res.head (res.body?.getD [])) := by
  cases res with
  | plain head content => rfl
  | json head content => rfl
  | stream head chunks => cases h
  | file head path => cases h

/-- The canonical form of a response is settled unless its media type is open. -/
theorem settled_toCanonical {res : Native} {mediaType : Option Bytes}
    (h : res.head.mediaType.isSome ∨ res.body? = none ∧ mediaType = none) :
    (res.toCanonical mediaType).Settled mediaType where
  declared := rfl
  typed := by
    intro hnone
    have htype : res.head.mediaType = none := hnone
    rcases h with hsome | ⟨hbody, hmedia⟩
    · rw [htype] at hsome
      cases hsome
    · exact ⟨hmedia, hbody⟩

/--
A materialized response becomes a plain one through its canonical form, with its own head and body,
and is sent with the same messages, unless its media type is still open.
-/
theorem canonical_form_keeps_messages {res : Native} {mediaType : Option Bytes}
    (hmaterialized : res.IsMaterialized)
    (htype : res.head.mediaType.isSome ∨ res.body? = none ∧ mediaType = none) :
    (res.toCanonical mediaType).toNative mediaType = .ok (.plain res.head res.body?) ∧
      ((Native.plain res.head res.body?).send : Prog (Exchange E) Unit) = res.send ∧
      (res.send : Prog (Exchange E) Unit) =
        Exchange.sendAll (wholeMessages res.head (res.body?.getD [])) := by
  have hsend := send_of_isMaterialized (E := E) hmaterialized
  refine ⟨?_, hsend.symm, hsend⟩
  rw [Canonical.toNative_eq, (settled_toCanonical htype).sentType_eq]
  rfl

end Native

/-! ## A sample -/

namespace Sample

/-- A JSON response that was given a content type and a content length of its own, in capitals. -/
def labelledJson : Native :=
  .json
    { status := 201
      mediaType := some MediaType.json
      headers := [(Bytes.ofString "CONTENT-TYPE", [116]), (Bytes.ofString "CONTENT-LENGTH", [57])] }
    (.ofText [120])

/-- It comes back as a plain response with the same text, and no header is added to its own. -/
theorem labelledJson_comes_back :
    labelledJson.IsMaterialized ∧ labelledJson.head.mediaType.isSome ∧
      (labelledJson.toCanonical (some MediaType.text)).toNative (some MediaType.text) =
        .ok (.plain labelledJson.head (some [34, 120, 34])) ∧
      ((Native.plain labelledJson.head (some [34, 120, 34])).send :
          Prog (Exchange Signature.empty) Unit) =
        Exchange.sendAll [.start 201 labelledJson.head.headers, .body [34, 120, 34] false] := by
  have hmaterialized : labelledJson.IsMaterialized := trivial
  have htype : labelledJson.head.mediaType.isSome ∨
      labelledJson.body? = none ∧ some MediaType.text = none := .inl rfl
  obtain ⟨hback, hsame, hsend⟩ :=
    Native.canonical_form_keeps_messages (E := Signature.empty) hmaterialized htype
  exact ⟨hmaterialized, rfl, hback, hsame.trans hsend⟩

end Sample
end ApiGateway
