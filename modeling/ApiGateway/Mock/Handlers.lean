import ApiGateway.Mock.Events
import ApiGateway.Operation.Invoker
import ApiGateway.Routing.RouteTable

/-!
# Mock handlers

Handlers that give a fixed answer, fail, or tell what they were given.

Main definitions:

- `Mock.Operation`: operation handlers.
- `Mock.Route`: route handlers.
- `Mock.Recorder`: an endpoint that answers with its name.
- `Mock.Step`: one step of a scripted endpoint.
- `Mock.fixedBinder`: a binder that ignores what is declared.
-/

namespace ApiGateway
namespace Mock

/-- A text, or null. -/
def textOrNull (text : Option Bytes) : Json.Value :=
  text.elim .null .ofText

/-- A member of an object. -/
def member (key : String) (value : Json.Value) : Bytes × Json.Value :=
  (Bytes.ofString key, value)

/-! ## Operations -/

/-- What the arguments of a call say about a name. -/
def argumentValue (args : Arguments) (name : Bytes) : Json.Value :=
  .ofMembers [
    member "get" (textOrNull (args.get? name)),
    member "all" (.ofItems ((args.all name).map .ofText)),
    member "int" ((args.getInt? name).elim .null .ofInt),
    member "contains" (.ofBool (args.contains name))]

/-- What a call was given. -/
def callValue (names : List Bytes) (args : Arguments) : Json.Value :=
  .ofMembers [
    member "size" (.ofInt (Int64.ofInt args.size)),
    member "args" (names.foldl (fun v n => v.set n (argumentValue args n)) (.ofMembers [])),
    member "body" (textOrNull args.body),
    member "method" (.ofText args.scope.request.method.token),
    member "path" (.ofText args.scope.request.path),
    member "root" (.ofText args.scope.rootPath)]

/-- What a mock operation answers. -/
inductive Operation where
  | give (result : HandlerResult)
  | fail (e : Fault)
  /-- Tells what the call was given. -/
  | echo (status : Option Int) (headers : Http.Headers) (names : List Bytes)

namespace Operation

/-- The answer to a call. -/
def answer (op : Operation) (args : Arguments) : Immediate Events HandlerResult :=
  match op with
  | .give result => .done result
  | .fail e => .fault e
  | .echo status headers names =>
    .done (.reply { body := .json (callValue names args), status, headers })

/-- The handler that answers at once. -/
def sync (op : Operation) (name : Bytes) : OperationHandler Events :=
  .sync fun args =>
    if name.isEmpty then op.answer args
    else .call (name ++ Bytes.ofString ":start") fun _ => op.answer args

/-- The handler that suspends before it answers. -/
def async (op : Operation) (pace : Pace) : OperationHandler Events :=
  .async fun args => pace.run id (op.answer args).toProg

end Operation

/-- A binder that binds fixed values, and then what it was asked for. -/
def fixedBinder (values : List (Bytes × Bytes)) : Binder := fun op sc identifiers args =>
  let asked := [
    (Bytes.ofString "op", op.operationId), (Bytes.ofString "uri", sc.request.target),
    (Bytes.ofString "pythonic", Bytes.ofString (if identifiers then "true" else "false"))]
  ⟨(values ++ asked).foldl (fun args v => args.add v.1 v.2) args, none⟩

/-! ## Routes -/

/-- What a mock route answers. -/
inductive Route where
  | give (res : Native)
  | fail (e : Fault)
  /-- Tells what the request was, and its body as often as it is read. -/
  | echo (names : List Bytes) (reads : Nat)

namespace Route

/-- What a request was. -/
def requestValue (names : List Bytes) (ctx : RouteContext) : Json.Value :=
  .ofMembers [
    member "params" (.ofItems (ctx.params.map fun p => .ofItems [.ofText p.1, .ofText p.2])),
    member "got" <| names.foldl
      (fun v n => v.set n (textOrNull (ctx.params.get? n))) (.ofMembers []),
    member "path" (.ofText ctx.request.path),
    member "query" (.ofText ctx.request.query)]

/-- Reads the body a number of times, adding a member for each reading. -/
def readBodies (value : Json.Value) : Nat → Prog (RouteEffects Events) Json.Value
  | 0 => .done value
  | n + 1 => RouteContext.body.bind fun body =>
    readBodies (value.set (Bytes.ofString "body" ++ Bytes.ofNat (n + 1)) (.ofText body)) n

/-- The answer to a request. -/
def answer (route : Route) (ctx : RouteContext) : Prog (RouteEffects Events) Native :=
  match route with
  | .give res => .done res
  | .fail e => .fault e
  | .echo names reads =>
    (readBodies (requestValue names ctx) reads).bind fun value => .done (Native.ofJson {} value)

/-- The handler that suspends before it answers. -/
def handler (route : Route) (pace : Pace) : RouteHandler Events := fun ctx =>
  pace.run (RouteOp.effect (E := Events)) (route.answer ctx)

end Route

/-! ## Endpoints -/

/-- An endpoint that answers with its name, or fails. -/
structure Recorder where
  name : Bytes
  status : Int := 200
  delay : Nat := 0
  fault : Option Fault := none

namespace Recorder

/-- The messages of a recorder. -/
def messages (r : Recorder) : List Message :=
  [.start r.status [(Bytes.ofString "content-type", Bytes.ofString "text/plain")],
    .body r.name false]

/-- Writes the prefix that was consumed, then suspends and answers. -/
def serve (r : Recorder) : Endpoint Events := fun sc =>
  .call (.effect (r.name ++ Bytes.ofString " root=" ++ sc.rootPath)) fun _ =>
    Prog.delayed r.delay (r.fault.elim (Exchange.sendAll r.messages) .fault)

end Recorder

/-- A step of a scripted endpoint. -/
inductive Step where
  | send (message : Message)
  | respond (res : Native)
  /-- Reads the body and writes it as an event. -/
  | read
  | event (text : Bytes)
  | fail (e : Fault)
  | pause

namespace Step

/-- The program of a step. -/
def prog : Step → Prog (Exchange Events) Unit
  | .send message => Exchange.send message
  | .respond res => res.send
  | .read => Exchange.receiveBody.bind fun body =>
    .call (.effect (Bytes.ofString "read " ++ body)) fun _ => .done ()
  | .event text => .call (.effect text) fun _ => .done ()
  | .fail e => .fault e
  | .pause => .suspend (.done ())

/-- Does the steps of a script, one after another. -/
def runAll : List Step → Prog (Exchange Events) Unit
  | [] => .done ()
  | step :: rest => step.prog.bind fun _ => runAll rest

end Step
end Mock
end ApiGateway
