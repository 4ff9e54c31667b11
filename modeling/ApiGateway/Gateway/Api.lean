import ApiGateway.Gateway.Dispatcher
import ApiGateway.Routing.ApiRoutes
import ApiGateway.Routing.RouteTable

/-!
# APIs

An API serves one specification under its base path.  Setting it up registers every
operation of the specification with its handler; an operation without handler gets a
stub if the options name a status for it, and is refused otherwise.

Main definitions:

- `normalizeBasePath`: a base path without slashes at its end.
- `Api.create`: sets up an API.  `Api.addOperation`, `Api.addRoute`: registers more.
- `Api.serve`: the API as an endpoint.
-/

namespace ApiGateway

/-- A base path without slashes at its end. -/
def normalizeBasePath (path : Bytes) : Bytes :=
  Bytes.trimEnd (· == 47) path

/-- How an API is set up. -/
structure ApiOptions where
  /-- Replaces the base path of the specification. -/
  basePath : Option Bytes := none
  /-- Whether parameters are bound under the identifiers of their names. -/
  identifiers : Bool := false
  /-- The status of stubs for operations without handler; without it they are refused. -/
  stubStatus : Option Int := none
  binder : Binder := Binder.standard

namespace ApiOptions

/-- The base path under which a specification is served. -/
def basePathFor (options : ApiOptions) (spec : Specification) : Bytes :=
  normalizeBasePath (options.basePath.getD spec.basePath)

end ApiOptions

/-- What a registration leaves, what it has logged, and its fault if it has failed. -/
structure Registration (α : Type) where
  value : α
  log : List LogEntry := []
  failure : Option Fault := none

/-- An API with its tables. -/
structure Api (E : Signature) where
  spec : Specification
  handlers : Resolver E
  options : ApiOptions
  basePath : Bytes
  operations : Registry (Invoker E) := Registry.empty
  routes : RouteTable E := RouteTable.empty
  routing : ApiRoutes

namespace Api

variable {E : Signature}

/-! ## Registering operations -/

/-- The fault of a stub: the operation is known but not implemented. -/
def notImplemented (status : Int) (operationId : Bytes) : Fault :=
  .problem
    (Problem.ofStatus status <|
      Bytes.ofString "operation '" ++ operationId ++ Bytes.ofString "' is not implemented")
    (some .unresolvedOperation)

/-- No handler is known for an operation. -/
def unresolved (operationId : Bytes) : Fault :=
  .gateway .unresolvedOperation <|
    Bytes.ofString "operation_id '" ++ operationId ++ Bytes.ofString "'"

/-- The handler of an operation, or its stub. -/
def handlerFor (api : Api E) (op : OperationSpec) :
    Except Fault (OperationHandler E × List LogEntry) :=
  match api.handlers.find? op.operationId with
  | some handler => .ok (handler, [])
  | none =>
    match api.options.stubStatus with
    | none => .error (unresolved op.operationId)
    | some status =>
      .ok (.sync fun _ => .fault (notImplemented status op.operationId),
        [.handlerMissing op.operationId status])

/-- The invoker of an operation of this API. -/
def invokerFor (api : Api E) (op : OperationSpec) (handler : OperationHandler E) : Invoker E where
  operation := op
  handler := handler
  binder := some api.options.binder
  apiBasePath := api.basePath
  identifiers := api.options.identifiers

/-- The specification declares no operation for the path and the method. -/
def noOperation (path : Bytes) (method : Http.Method) : Fault :=
  .invalidArgument <|
    Bytes.ofString "no operation for " ++ method.token ++ Bytes.ofString " " ++ path

/-- The declared operation has no id. -/
def noOperationId (op : OperationSpec) (method : Http.Method) : Fault :=
  .invalidArgument <|
    Bytes.ofString "operation " ++ method.token ++ Bytes.ofString " " ++ op.path ++
      Bytes.ofString " has no operation_id"

/--
Registers the first operation that the specification declares for a path and a method.  The
invoker is registered before the template is read, so a malformed template leaves it behind.
-/
def addOperation (api : Api E) (path : Bytes) (method : Http.Method) : Registration (Api E) :=
  match api.spec.find? path method with
  | none => { value := api, failure := some (noOperation path method) }
  | some op =>
    if op.operationId.isEmpty then
      { value := api, failure := some (noOperationId op method) }
    else
      match api.handlerFor op with
      | .error e => { value := api, failure := some e }
      | .ok (handler, log) =>
        let invoker := api.invokerFor op handler
        let registered := { api with operations := api.operations.insert op.operationId invoker }
        match api.routing.add op.method op.path op.operationId with
        | .error e => { value := registered, log, failure := some e }
        | .ok routing => { value := { registered with routing }, log }

/-- Registers operations in order, up to the first that fails. -/
def addOperations (api : Api E) : List OperationSpec → Registration (Api E)
  | [] => { value := api }
  | op :: rest =>
    let first := api.addOperation op.path op.method
    match first.failure with
    | some _ => first
    | none =>
      let others := first.value.addOperations rest
      { others with log := first.log ++ others.log }

/-- An API without operations. -/
def blank (spec : Specification) (handlers : Resolver E) (options : ApiOptions) : Api E where
  spec := spec
  handlers := handlers
  options := options
  basePath := options.basePathFor spec
  routing := { basePath := options.basePathFor spec }

/-- Sets up an API with all operations of a specification. -/
def create (spec : Specification) (handlers : Resolver E) (options : ApiOptions) :
    Registration (Api E) :=
  let registration := (blank spec handlers options).addOperations spec.operations
  match registration.failure with
  | some _ => registration
  | none =>
    let api := registration.value
    { registration with
      log := registration.log ++ [.apiMounted spec.title api.basePath api.operations.size] }

/-- Registers a manual route. -/
def addRoute (api : Api E) (methods : List Http.Method) (path : Bytes)
    (handler : RouteHandler E) : Except Fault (Api E) :=
  (api.routes.add methods path handler []).map fun routes => { api with routes }

/-! ## Answering requests -/

/-- The dispatcher over the tables of the API. -/
def dispatcher (api : Api E) (observed : Bool) : Dispatcher E where
  ownBasePath := some api.basePath
  operations := api.operations
  fallback := api.routes.serve
  subApps := Registry.empty
  observed := observed

/-- Answers a routed request. -/
def serve (api : Api E) (observed : Bool) : Endpoint E :=
  (api.dispatcher observed).serve

end Api
end ApiGateway
