import ApiGateway.Response.Payload

/-!
# Canonical responses and handler results

The canonical form of a response holds everything but its native shape; native
responses are converted to it for observers, and handlers may return it.  A
handler result is a native response, a canonical one, or a reply.

Main definitions:

- `Native.toCanonical`, `Canonical.toNative`: the two conversions.
- `HandlerResult.toNative`: the native response of a handler result.
-/

namespace ApiGateway

/-- A response without its native shape. -/
structure Canonical where
  status : Int := 200
  mediaType : Option Bytes := none
  contentType : Option Bytes := none
  headers : Http.Headers := []
  body : Option Bytes := none
deriving DecidableEq, Repr

/-- The canonical form of a response under a declared media type. -/
def Native.toCanonical (res : Native) (mediaType : Option Bytes) : Canonical where
  status := res.status
  mediaType := mediaType
  contentType := res.head.mediaType
  headers := res.head.headers
  body := res.body?

/-- The native response of a canonical one: its body is sent as bytes. -/
def Canonical.toNative (res : Canonical) (fallback : Option Bytes) : Except Fault Native :=
  Payload.respond (res.body.elim .none .binary) (res.mediaType.or fallback) res.contentType
    (some res.status) res.headers

/-- A payload with an optional status and headers. -/
structure Reply where
  body : Payload := .none
  status : Option Int := none
  headers : Http.Headers := []

/-- What a handler returns. -/
inductive HandlerResult where
  | native (res : Native)
  | canonical (res : Canonical)
  | reply (res : Reply)

namespace HandlerResult

/-- The native response of a handler result under the declared media type. -/
def toNative (result : HandlerResult) (mediaType : Option Bytes) : Except Fault Native :=
  match result with
  | .native res => .ok res
  | .canonical res => res.toNative mediaType
  | .reply res => res.body.respond mediaType none res.status res.headers

/-- What converting a handler result is logged as. -/
def notices (result : HandlerResult) (mediaType : Option Bytes) : List LogEntry :=
  match result with
  | .reply res => res.body.notices mediaType
  | _ => []

end HandlerResult
end ApiGateway
