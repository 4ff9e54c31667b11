import ApiGateway.Http.Headers

/-!
# Response messages

A response is handed to the host as messages: one that starts it with a status and
headers, then chunks of its body, the last of which says that no more follow.

Main definitions:

- `Message`: a start or a chunk.
- `Message.bodyOf`: the body that a list of messages carries.
-/

namespace ApiGateway

/-- A part of a response on its way to the client. -/
inductive Message where
  | start (status : Int) (headers : Http.Headers)
  | body (chunk : Bytes) (more : Bool)
deriving DecidableEq, Repr

namespace Message

/-- Whether the message starts a response. -/
def isStart : Message → Bool
  | .start _ _ => true
  | .body _ _ => false

/-- Whether the message is the last one of its response. -/
def isLast : Message → Bool
  | .start _ _ => false
  | .body _ more => !more

/-- The bytes of the body that a message carries. -/
def chunk : Message → Bytes
  | .start _ _ => []
  | .body chunk _ => chunk

/-- The body that a list of messages carries. -/
def bodyOf (messages : List Message) : Bytes :=
  messages.flatMap chunk

end Message
end ApiGateway
