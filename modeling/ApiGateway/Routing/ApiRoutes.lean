import ApiGateway.Exchange.Effects
import ApiGateway.Routing.Selection

/-!
# Routing requests to mounted APIs

Each mounted API lists its operations under a base path.  A request belongs to the
API with the longest base path that owns its path; an API without base path claims
a request only through one of its operations.

Main definitions:

- `ApiRoutes`: the operations of one API, and `ApiRoutes.match?` to select one.
- `ApiRoutes.owns`: whether a base path owns a path, by whole segments.
- `Routing.resolve`: the routing context of a request.
- `Routing.middleware`: attaches it before the request goes on.
-/

namespace ApiGateway

/-- An operation of an API as far as routing is concerned. -/
structure OperationRoute where
  method : Http.Method
  pattern : Routing.Pattern
  operationId : Bytes
deriving DecidableEq, Repr

/-- The operations of one API, in order, with paths relative to its base path. -/
structure ApiRoutes where
  basePath : Bytes
  operations : List OperationRoute := []
deriving DecidableEq, Repr

namespace ApiRoutes

/-- Appends an operation. -/
def add (routes : ApiRoutes) (method : Http.Method) (path operationId : Bytes) :
    Except Fault ApiRoutes :=
  match Routing.Pattern.parse path with
  | .error e => .error e.toFault
  | .ok pattern =>
    .ok { routes with operations := routes.operations ++ [⟨method, pattern, operationId⟩] }

/-- Adds operations one after another; tells the number of operations or the fault after each. -/
def addAll (routes : ApiRoutes) :
    List (Http.Method × Bytes × Bytes) → ApiRoutes × List (Except Fault Nat)
  | [] => (routes, [])
  | (method, path, operationId) :: rest =>
    match routes.add method path operationId with
    | .error e =>
      let (final, outcomes) := routes.addAll rest
      (final, .error e :: outcomes)
    | .ok added =>
      let (final, outcomes) := added.addAll rest
      (final, .ok added.operations.length :: outcomes)

/-- The most specific operation for a method and a path, with its parameters. -/
def match? (routes : ApiRoutes) (method : Http.Method) (path : Bytes) :
    Option (OperationRoute × Params) :=
  let candidates := (routes.operations.filter fun op => op.method = method).filterMap
    (Routing.Candidate.of? OperationRoute.pattern path)
  (Routing.mostSpecific candidates).map fun c => (c.entry, c.params)

/-- Whether the base path is the path itself or ends before a slash of it. -/
def owns (routes : ApiRoutes) (path : Bytes) : Bool :=
  match routes.basePath.isPrefixOf? path with
  | none => false
  | some rest => rest.isEmpty || rest.head? == some 47

/-- The routing context of a request whose path is owned by this API. -/
def contextFor (routes : ApiRoutes) (method : Http.Method) (path : Bytes) : Routing :=
  match routes.match? method (path.drop routes.basePath.length) with
  | some (op, params) =>
    { apiBasePath := some routes.basePath, operationId := some op.operationId, params }
  | none => { apiBasePath := some routes.basePath }

end ApiRoutes

namespace Routing

/-- A longer base path replaces the longest one so far. -/
def longerBase (best : Option ApiRoutes) (next : ApiRoutes) : Option ApiRoutes :=
  match best with
  | none => some next
  | some api => if api.basePath.length < next.basePath.length then some next else some api

/-- The first API with the longest non-empty base path that owns a path. -/
def owner? (apis : List ApiRoutes) (path : Bytes) : Option ApiRoutes :=
  (apis.filter fun api => !api.basePath.isEmpty && api.owns path).foldl longerBase none

/-- The context of the first API without base path that has an operation for the request. -/
def rootContext (apis : List ApiRoutes) (method : Http.Method) (path : Bytes) : Routing :=
  let matched := (apis.filter fun api => api.basePath.isEmpty).findSome? fun api =>
    (api.match? method path).map fun found => (api, found)
  match matched with
  | some (api, op, params) =>
    { apiBasePath := some api.basePath, operationId := some op.operationId, params }
  | none => {}

/-- The routing context of a request. -/
def resolve (apis : List ApiRoutes) (sc : Scope) : Routing :=
  match owner? apis sc.relativePath with
  | some api => api.contextFor sc.request.method sc.relativePath
  | none => rootContext apis sc.request.method sc.relativePath

/-- Attaches the routing context and passes the request on. -/
def middleware {E : Signature} (apis : List ApiRoutes) (next : Endpoint E) : Endpoint E :=
  fun sc =>
    let inside := sc.enter (resolve apis sc)
    .call (.enter inside) fun _ => next inside

end Routing
end ApiGateway
