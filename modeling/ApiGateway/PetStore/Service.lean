import ApiGateway.Exchange.Body
import ApiGateway.Gateway.App
import ApiGateway.PetStore.Repository
import ApiGateway.Scheduling.Spawn

/-!
# The pet store service

A gateway over the pet repository: four operations, one of which has no handler, a
health route, and an observer that writes an access log.  A session drives seven
requests through it and says what goes to the two output streams.

Main definitions:

- `Service.app`: the gateway.
- `Service.session`: the output of the session.
-/

namespace ApiGateway
namespace PetStore

/-- An operation of the handlers. -/
inductive StoreOp where
  | list
  | find (id : Int64)
  | create (name : Bytes)
  /-- Writes a line about a failed request. -/
  | report (line : Bytes)

/-- The operations of the handlers and the types of their answers. -/
def Store : Signature where
  Op := StoreOp
  Ans
    | .list => Json.Value
    | .find _ => Option Json.Value
    | .create _ => Json.Value
    | .report _ => Unit

namespace Service

/-! ## The gateway -/

/-- The described API. -/
def spec : Specification where
  title := Bytes.ofString "Pet Store"
  basePath := Bytes.ofString "/v1"
  operations := [
    { path := Bytes.ofString "/pets", operationId := Bytes.ofString "listPets" },
    { path := Bytes.ofString "/pets/\x7bpetId\x7d", operationId := Bytes.ofString "getPet",
      parameters := [⟨Bytes.ofString "petId", .path, true⟩] },
    { path := Bytes.ofString "/pets", method := .post, operationId := Bytes.ofString "addPet",
      hasRequestBody := true },
    { path := Bytes.ofString "/pets/\x7bpetId\x7d", method := .delete,
      operationId := Bytes.ofString "deletePet" }]

/-- A reply with a document. -/
def documentReply (value : Json.Value) (status : Option Int) : HandlerResult :=
  .reply { body := .json value, status }

/-- Lists all pets. -/
def listPets (_ : Arguments) : Immediate Store HandlerResult :=
  .call .list fun (pets : Json.Value) => .done (documentReply pets none)

/-- There is no pet of the requested id. -/
def noSuchPet : Fault :=
  .problem (Problem.notFound (Bytes.ofString "no such pet")) none

/-- Finds the pet named by the path. -/
def getPet (args : Arguments) : Immediate Store HandlerResult :=
  match args.getInt? (Bytes.ofString "petId") with
  | none => .fault noSuchPet
  | some id =>
    .call (.find id) fun (pet : Option Json.Value) =>
      match pet with
      | none => .fault noSuchPet
      | some value => .done (documentReply value none)

/-- Stores a pet named by the body in a later step. -/
def addPet (args : Arguments) : Prog Store HandlerResult :=
  .suspend <| .call (.create (args.body.getD [])) fun (pet : Json.Value) =>
    .done (documentReply pet (some 201))

/-- The handlers by operation id; there is none for deleting. -/
def handlers : Resolver Store :=
  Registry.ofList [
    (Bytes.ofString "listPets", .sync listPets),
    (Bytes.ofString "getPet", .sync getPet),
    (Bytes.ofString "addPet", .async addPet)]

/-- Tells that the service is up. -/
def health : RouteHandler Store := fun _ =>
  .done (.plain { mediaType := some MediaType.text } (some (Bytes.ofString "ok")))

/-- The gateway with its observer and its API, and what setting it up logs. -/
def mounted : Registration (App Store) :=
  (App.observe {} true).addApi spec handlers { stubStatus := some 501 }

/-- The gateway with its health route. -/
def app : Except Fault (App Store) :=
  match mounted.failure with
  | some e => .error e
  | none => mounted.value.addRoute [.get] (Bytes.ofString "/health") health

/-! ## The session -/

/-- A text for one of the two output streams. -/
inductive Output where
  | out (text : Bytes)
  | err (text : Bytes)
deriving DecidableEq, Repr

namespace Output

/-- The text for the standard output. -/
def outText : Output → Bytes
  | .out text => text
  | .err _ => []

/-- The text for the error stream. -/
def errText : Output → Bytes
  | .out _ => []
  | .err text => text

end Output

/-- The service while it handles a request. -/
structure Console where
  repository : Repository := Repository.initial
  source : Body.Source := []
  output : List Output := []

namespace Console

/-- Writes a text. -/
def write (c : Console) (text : Output) : Console :=
  { c with output := c.output ++ [text] }

/-- Performs an operation of the handlers. -/
def perform (c : Console) : (op : StoreOp) → Store.Ans op × Console
  | .list => (c.repository.list, c)
  | .find id => (c.repository.find? id, c)
  | .create name =>
    let (pet, repository) := c.repository.create name
    (pet, { c with repository })
  | .report line => ((), c.write (.err line))

/-- The text that shows a message of the response to a request. -/
def messageText (request : Bytes) : Message → Bytes
  | .start status _ => request ++ Bytes.ofString " " ++ Bytes.ofInt status
  | .body chunk more =>
    Bytes.ofString " " ++ chunk ++ (if more then [] else Bytes.ofString "\n")

/-- The line of the access log for a response. -/
def accessLine (response : Canonical) : Bytes :=
  Bytes.ofString "[tsuba][access] " ++ Bytes.ofInt response.status ++ Bytes.ofString " " ++
    response.contentType.getD (Bytes.ofString "-") ++ Bytes.ofString "\n"

/-- Answers the operations of the exchange of a request. -/
def host (request : Bytes) : Host (Exchange Store) Console where
  answer
    | .send message, c => (.ok (), c.write (.out (messageText request message)))
    | .receiveBody, c =>
      let reading := Body.readAll c.source
      (reading.outcome, { c with source := reading.rest })
    | .log entry, c => ((), c.write (.err entry.line))
    | .observe response, c => (.ok (), c.write (.err (accessLine response)))
    | .readFile _, c => (none, c)
    | .enter _, c => ((), c)
    | .effect op, c => c.perform op

end Console

/-- A failed request is reported; what cannot be presented fails the task. -/
def onFailure (e : Fault) : Task (Exchange Store) :=
  if e.isPresentable then
    Task.perform (.effect (.report (Bytes.ofString "request failed: " ++ e.message ++
      Bytes.ofString "\n")))
  else
    .fault e

/-- Drives one request through the gateway on the inline executor. -/
def request (app : App Store) (method : Http.Method) (target body : Bytes)
    (console : Console) : Console :=
  let line := method.token ++ Bytes.ofString " " ++ target ++ Bytes.ofString " ->"
  let work := app.serve { request := { method, target } }
  let script := spawnProg { onDone := some .done, onFailure := some onFailure } work
  (Inline.run (Console.host line) script { console with source := [.ok ⟨body, false⟩] }).1

/-- The requests of the session. -/
def requests : List (Http.Method × Bytes × Bytes) := [
  (.get, Bytes.ofString "/health", []),
  (.get, Bytes.ofString "/v1/pets", []),
  (.get, Bytes.ofString "/v1/pets/1", []),
  (.get, Bytes.ofString "/v1/pets/9", []),
  (.post, Bytes.ofString "/v1/pets", Bytes.ofString "Luna"),
  (.delete, Bytes.ofString "/v1/pets/1", []),
  (.get, Bytes.ofString "/v2/pets", [])]

/-- What the session writes, in order. -/
def session : Except Fault (List Output) :=
  app.map fun gateway =>
    let start : Console := { output := mounted.log.map fun entry => .err entry.line }
    (requests.foldl (fun c r => request gateway r.1 r.2.1 r.2.2 c) start).output

end Service
end PetStore
end ApiGateway
