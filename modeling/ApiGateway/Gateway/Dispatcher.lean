import ApiGateway.Operation.Invoker
import ApiGateway.Response.Framing

/-!
# Dispatching routed requests

A dispatcher answers a request by its routing context.  A request of another mounted
API is delegated to it; otherwise a registered operation is invoked, and a request
without operation goes to the fallback.

Main definitions:

- `Dispatcher`: what requests are dispatched over.
- `Branch`: the five ways a request can go, and `Dispatcher.branch` to select one.
- `Dispatcher.serve`: the dispatcher as an endpoint.
-/

namespace ApiGateway

/-- What requests are dispatched over. -/
structure Dispatcher (E : Signature) where
  /-- The base path of the API that dispatches; the application itself has none. -/
  ownBasePath : Option Bytes
  operations : Registry (Invoker E)
  /-- Answers requests without operation. -/
  fallback : Endpoint E
  /-- The mounted APIs by base path. -/
  subApps : Registry (Endpoint E)
  /-- Whether operation responses are shown to the observer. -/
  observed : Bool

/-- The way that a request goes. -/
inductive Branch (E : Signature) where
  | missingRouting
  | delegate (subApp : Endpoint E)
  | invoke (operation : Invoker E)
  | fallback
  | unknownOperation (operationId : Bytes)

namespace Dispatcher

variable {E : Signature}

/-- No routing context is attached to the request. -/
def missingRouting : Fault :=
  .gateway .missingRouting <|
    Bytes.ofString "no routing context attached to the request; " ++
      Bytes.ofString "install a routing middleware upstream"

/-- The routed operation is not registered. -/
def unknownOperation (operationId : Bytes) : Fault :=
  .gateway .unknownOperation <|
    Bytes.ofString "operation_id '" ++ operationId ++ Bytes.ofString "'"

/-- The mounted API that a request belongs to, if it is another one than this. -/
def subApp? (d : Dispatcher E) (routing : Routing) : Option (Endpoint E) :=
  match routing.apiBasePath with
  | none => none
  | some base => if d.ownBasePath = some base then none else d.subApps.find? base

/-- The way that a request goes; the first that applies is taken. -/
def branch (d : Dispatcher E) (routing : Option Routing) : Branch E :=
  match routing with
  | none => .missingRouting
  | some routing =>
    match d.subApp? routing with
    | some subApp => .delegate subApp
    | none =>
      match routing.operationId with
      | none => .fallback
      | some id =>
        match d.operations.find? id with
        | some invoker => .invoke invoker
        | none => .unknownOperation id

/-- Normalizes a handler result, shows it to the observer and sends it. -/
def respond (observed : Bool) (mediaType : Option Bytes) (result : HandlerResult) :
    Prog (Exchange E) Unit :=
  (Exchange.logAll (result.notices mediaType)).bind fun _ =>
    match result.toNative mediaType with
    | .error e => .fault e
    | .ok res =>
      if observed then
        (Exchange.observe (res.toCanonical mediaType)).bind fun _ => res.send
      else
        res.send

/-- Answers a request by its routing context. -/
def serve (d : Dispatcher E) : Endpoint E := fun sc =>
  match d.branch sc.routing with
  | .missingRouting => .fault missingRouting
  | .delegate subApp => subApp sc
  | .invoke invoker =>
    (invoker.invoke sc).bind (respond d.observed invoker.mediaType)
  | .fallback => d.fallback sc
  | .unknownOperation id => .fault (unknownOperation id)

end Dispatcher
end ApiGateway
