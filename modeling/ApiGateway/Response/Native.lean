import ApiGateway.Fault
import ApiGateway.Http.Headers
import ApiGateway.Response.MediaType

/-!
# Native responses

The four forms in which a response can be sent: a plain one with or without a
body, a JSON document, a stream of chunks, and a file.

Main definitions:

- `Native`: a response in one of the four forms.
- `Native.body?`: the body of a response that holds one.
- `Native.ofJson`, `Native.ofProblem`: responses carrying a document.
-/

namespace ApiGateway

/-- What every response has: a status, possibly a media type, and headers. -/
structure Head where
  status : Int := 200
  mediaType : Option Bytes := none
  headers : Http.Headers := []
deriving DecidableEq, Repr

/-- A response ready to be sent. -/
inductive Native where
  /-- A response with an optional body. -/
  | plain (head : Head) (content : Option Bytes)
  /-- A response whose body is the text of a JSON value. -/
  | json (head : Head) (content : Json.Value)
  /-- A response whose chunks are produced while it is sent; the source may fail. -/
  | stream (head : Head) (chunks : List (Except Fault Bytes))
  /-- A response whose body is read from a file while it is sent. -/
  | file (head : Head) (path : Bytes)

namespace Native

/-- The head of a response. -/
def head : Native → Head
  | .plain head _ => head
  | .json head _ => head
  | .stream head _ => head
  | .file head _ => head

/-- The status of a response. -/
def status (res : Native) : Int :=
  res.head.status

/-- The body that a response holds; streams and files hold none. -/
def body? : Native → Option Bytes
  | .plain _ content => content
  | .json _ content => some content.dump
  | .stream _ _ => none
  | .file _ _ => none

/-- Whether a response holds a body. -/
def hasBody (res : Native) : Bool :=
  res.body?.isSome

/-- A JSON response; it announces `application/json` unless told otherwise. -/
def ofJson (head : Head) (content : Json.Value) : Native :=
  .json { head with mediaType := some (head.mediaType.getD MediaType.json) } content

/-- The response that carries a problem. -/
def ofProblem (p : Problem) : Native :=
  .plain { status := p.status, mediaType := some MediaType.problem } (some p.text)

/-- Adds a header, replacing the first one of that name. -/
def setHeader (name value : Bytes) : Native → Native
  | .plain head content => .plain { head with headers := head.headers.set name value } content
  | .json head content => .json { head with headers := head.headers.set name value } content
  | .stream head chunks => .stream { head with headers := head.headers.set name value } chunks
  | .file head path => .file { head with headers := head.headers.set name value } path

@[simp]
theorem status_ofProblem (p : Problem) : (ofProblem p).status = p.status :=
  rfl

@[simp]
theorem body?_ofProblem (p : Problem) : (ofProblem p).body? = some p.text :=
  rfl

@[simp]
theorem body?_ofJson (head : Head) (content : Json.Value) :
    (ofJson head content).body? = some content.dump :=
  rfl

end Native
end ApiGateway
