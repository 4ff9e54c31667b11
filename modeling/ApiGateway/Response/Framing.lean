import ApiGateway.Exchange.Effects

/-!
# Framing responses as messages

A response is sent as its start followed by its body.  The start carries the
headers of the response, then a content type and a content length where these are
due and not given already.

Main definitions:

- `Native.startHeaders`: the headers of the start.
- `Native.send`: the messages of a response, in order.
-/

namespace ApiGateway

/-- The header name of the media type. -/
def contentTypeName : Bytes :=
  Bytes.ofString "content-type"

/-- The header name of the body length. -/
def contentLengthName : Bytes :=
  Bytes.ofString "content-length"

/-- The number of bytes of a file that are read at once. -/
def fileChunkSize : Nat :=
  65536

namespace Native

variable {E : Signature}

/-- The headers with a content type, if the media type is known and none is given. -/
def startHeaders (headers : Http.Headers) (mediaType : Option Bytes) : Http.Headers :=
  match mediaType with
  | none => headers
  | some type =>
    if headers.contains contentTypeName then
      headers
    else
      headers.set contentTypeName (MediaType.withCharset type)

/-- The messages of a response whose body is at hand. -/
def wholeMessages (head : Head) (body : Bytes) : List Message :=
  let headers := startHeaders head.headers head.mediaType
  let sized :=
    if headers.contains contentLengthName then
      headers
    else
      headers.set contentLengthName (Bytes.ofNat body.length)
  [.start head.status sized, .body body false]

/-- Sends the chunks of a stream as they come, then an empty last one. -/
def sendChunks : List (Except Fault Bytes) → Prog (Exchange E) Unit
  | [] => Exchange.send (.body [] false)
  | .ok chunk :: rest => (Exchange.send (.body chunk true)).bind fun _ => sendChunks rest
  | .error e :: _ => .fault e

/-- The start of a file response of that content. -/
def fileStart (head : Head) (path content : Bytes) : Message :=
  let headers := startHeaders head.headers (some (head.mediaType.getD (MediaType.ofFileName path)))
  .start head.status (headers.set contentLengthName (Bytes.ofNat content.length))

/-- Pieces of a body as chunks, of which only the last one ends it; at least one chunk. -/
def bodyMessages : List Bytes → List Message
  | [] => [.body [] false]
  | [piece] => [.body piece false]
  | piece :: rest => .body piece true :: bodyMessages rest

/-- The messages of a file response of that content. -/
def fileMessages (head : Head) (path content : Bytes) : List Message :=
  fileStart head path content :: bodyMessages (Bytes.chunks fileChunkSize content)

/-- Sends a response; a missing file fails before anything is sent. -/
def send : Native → Prog (Exchange E) Unit
  | .plain head content => Exchange.sendAll (wholeMessages head (content.getD []))
  | .json head content => Exchange.sendAll (wholeMessages head content.dump)
  | .stream head chunks =>
    (Exchange.send (.start head.status (startHeaders head.headers head.mediaType))).bind fun _ =>
      sendChunks chunks
  | .file head path =>
    .call (.readFile path) fun (content : Option Bytes) =>
      match content with
      | none => .fault (.gateway .fileNotFound path)
      | some content => Exchange.sendAll (fileMessages head path content)

end Native
end ApiGateway
