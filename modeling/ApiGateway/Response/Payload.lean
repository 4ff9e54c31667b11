import ApiGateway.Exchange.Log
import ApiGateway.Response.Native

/-!
# Payloads

A payload is what a handler returns without choosing a native response: nothing,
text, bytes or a JSON value.  Building a response settles its status, its media
type and the serialization of the payload.  A native response inside a payload can
be written down, so that it can be refused.

Main definitions:

- `Payload.prepare`: status and serialization under a declared media type.
- `Payload.respond`: the native response of a payload.
- `Payload.notices`: what serializing a payload is logged as.
-/

namespace ApiGateway

/-- Data returned by a handler. -/
inductive Payload where
  | none
  | text (value : Bytes)
  | binary (value : Bytes)
  | json (value : Json.Value)
  | native (value : Native)

/-- Whether a payload has parts or is a single value. -/
inductive Shape where
  | structured
  | scalar
deriving DecidableEq, Repr

/-- A payload with its serialization settled. -/
structure Prepared where
  data : Payload
  status : Int
  mediaType : Option Bytes

namespace Payload

/-- JSON objects and arrays are structured, all else is scalar. -/
def shape : Payload → Shape
  | .json value => if value.isStructured then .structured else .scalar
  | _ => .scalar

/-- Whether a declared media type asks for JSON. -/
def asksForJson (mediaType : Option Bytes) : Bool :=
  mediaType.any MediaType.isJson

/-- The bare text of a JSON scalar: a string without quotes, all else as in a document. -/
def scalarText (value : Json.Value) : Bytes :=
  if value.kind = .string then value.text else value.dump

/--
Settles status and serialization.  Nothing becomes 204 without media type unless a status is
given; all else defaults to 200.  Text is JSON-encoded where JSON is asked for.  Structured JSON
stays as it is, under `application/json` by default; a JSON scalar becomes text, encoded where
JSON is asked for and bare otherwise.
-/
def prepare (data : Payload) (mediaType : Option Bytes) (status : Option Int) : Prepared :=
  match data with
  | .none =>
    match status with
    | .none => ⟨.none, 204, .none⟩
    | some code => ⟨.none, code, mediaType⟩
  | .text value =>
    if asksForJson mediaType then
      ⟨.text (Json.Value.ofText value).dump, status.getD 200, mediaType⟩
    else
      ⟨.text value, status.getD 200, mediaType⟩
  | .json value =>
    if value.isStructured then
      ⟨.json value, status.getD 200, some (mediaType.getD MediaType.json)⟩
    else if asksForJson mediaType then
      ⟨.text value.dump, status.getD 200, mediaType⟩
    else
      ⟨.text (scalarText value), status.getD 200, mediaType⟩
  | other => ⟨other, status.getD 200, mediaType⟩

/-- A JSON scalar that nobody asked to be JSON is sent as text, which is worth a line. -/
def notices (data : Payload) (mediaType : Option Bytes) : List LogEntry :=
  match data with
  | .json value =>
    if value.isStructured || asksForJson mediaType then [] else [.scalarStringified]
  | _ => []

/-- The media type of a payload for which none is declared. -/
def defaultMediaType : Payload → Option Bytes
  | .text _ => some MediaType.text
  | .binary _ => some MediaType.binary
  | _ => .none

/-- The body of a scalar payload, absent for no content. -/
def scalarBody : Payload → Option Bytes
  | .text value => some value
  | .binary value => some value
  | .json value => some (scalarText value)
  | _ => .none

/-- A reply must not carry a native response. -/
def nestedNative : Fault :=
  .gateway .invalidReturnShape <|
    Bytes.ofString "cannot return a native response inside a reply, " ++
      Bytes.ofString "only raw data can be returned in a reply"

/-- The response of a prepared payload under a settled media type. -/
def Prepared.respond (prepared : Prepared) (mediaType : Option Bytes) (headers : Http.Headers) :
    Native :=
  match prepared.data with
  | .json value =>
    if value.isStructured then
      Native.ofJson ⟨prepared.status, mediaType, headers⟩ value
    else
      .plain ⟨prepared.status, mediaType, headers⟩ (some (scalarText value))
  | data => .plain ⟨prepared.status, mediaType, headers⟩ data.scalarBody

/--
The native response of a payload.  The media type is the content type, else the declared media
type, else the one chosen by serialization, else the one that suits the payload.
-/
def respond (data : Payload) (mediaType contentType : Option Bytes) (status : Option Int)
    (headers : Http.Headers) : Except Fault Native :=
  match data with
  | .native _ => .error nestedNative
  | data =>
    let prepared := data.prepare mediaType status
    let chosen := contentType.or (mediaType.or prepared.mediaType)
    .ok (Prepared.respond prepared (chosen.or prepared.data.defaultMediaType) headers)

end Payload
end ApiGateway
