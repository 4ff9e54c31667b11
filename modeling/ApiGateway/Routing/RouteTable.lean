import ApiGateway.Response.Framing
import ApiGateway.Routing.Selection

/-!
# Manual routes

Routes that are registered by hand, outside of any specification.  A request is
answered by the handler of the most specific route for its method and path, and by
a 404 or 405 problem where there is none.

Main definitions:

- `RouteTable.add`: registers a handler for some methods.
- `RouteTable.lookup`: what a method and a path lead to.
- `RouteHandler`: handlers, which may read the request body any number of times.
- `RouteTable.serve`: the table as an endpoint.
-/

namespace ApiGateway

/-! ## Handlers -/

/-- An operation of a route handler: reading the body, or one of the application. -/
inductive RouteOp (E : Signature) where
  | body
  | effect (op : E.Op)

/-- The operations of a route handler and the types of their answers. -/
def RouteEffects (E : Signature) : Signature where
  Op := RouteOp E
  Ans
    | .body => Except Fault Bytes
    | .effect op => E.Ans op

/-- What a route handler is given besides its operations. -/
structure RouteContext where
  request : Request
  params : Params

/-- A route handler. -/
abbrev RouteHandler (E : Signature) := RouteContext → Prog (RouteEffects E) Native

namespace RouteContext

variable {E : Signature} {α : Type}

/-- Reads the request body, which may fail. -/
def body : Prog (RouteEffects E) Bytes :=
  .call .body .ofExcept

/-- The operations of the application are available to route handlers. -/
def effects (E : Signature) : Embedding E (RouteEffects E) where
  op := .effect
  answer _ a := a

/--
Runs a route handler in an exchange.  The body is received on first use; once that has succeeded
it is kept, and no later use asks the host again.
-/
def serve (kept : Option Bytes) : Prog (RouteEffects E) α → Prog (Exchange E) α
  | .done a => .done a
  | .fault e => .fault e
  | .call .body next =>
    match kept with
    | some bytes => serve kept (next (.ok bytes))
    | none =>
      .call .receiveBody fun (received : Except Fault Bytes) =>
        serve received.toOption (next received)
  | .call (.effect op) next => .call (.effect op) fun answer => serve kept (next answer)
  | .suspend rest => .suspend (serve kept rest)

end RouteContext

/-! ## The table -/

/-- A registered route. -/
structure Route (E : Signature) where
  method : Http.Method
  pattern : Routing.Pattern
  handler : RouteHandler E
  name : Bytes

/-- Routes in the order of their registration. -/
structure RouteTable (E : Signature) where
  routes : List (Route E)

/-- What a method and a path lead to, and the methods that the path is registered for. -/
inductive Lookup (E : Signature) where
  | found (route : Route E) (params : Params) (allowed : Http.MethodSet)
  | methodNotAllowed (allowed : Http.MethodSet)
  | notFound

/-- The problem response for a failed look-up with that code. -/
def lookupProblem (code : ErrorCode) (allowed : Http.MethodSet) : Native :=
  if code = .notFound then
    Native.ofProblem (Problem.notFound [])
  else if code = .methodNotAllowed then
    let response := Native.ofProblem (Problem.methodNotAllowed [])
    if allowed.allowValue.isEmpty then
      response
    else
      response.setHeader (Bytes.ofString "Allow") allowed.allowValue
  else
    Native.ofProblem (Problem.internalServerError [])

namespace Lookup

variable {E : Signature}

/-- The code of a look-up, that of success for a found route. -/
def code : Lookup E → ErrorCode
  | .found .. => .ok
  | .methodNotAllowed _ => .methodNotAllowed
  | .notFound => .notFound

/-- The methods that the path is registered for. -/
def allowed : Lookup E → Http.MethodSet
  | .found _ _ allowed => allowed
  | .methodNotAllowed allowed => allowed
  | .notFound => .empty

end Lookup

namespace RouteTable

variable {E : Signature}

/-- The table without routes. -/
def empty : RouteTable E :=
  ⟨[]⟩

/-- Registers a handler under one template for several methods. -/
def add (table : RouteTable E) (methods : List Http.Method) (path : Bytes)
    (handler : RouteHandler E) (name : Bytes) : Except Fault (RouteTable E) :=
  match Routing.Pattern.parse path with
  | .error e => .error e.toFault
  | .ok pattern =>
    .ok ⟨table.routes ++ methods.map fun method => ⟨method, pattern, handler, name⟩⟩

/-- The routes whose templates match a path. -/
def matching (table : RouteTable E) (path : Bytes) : List (Routing.Candidate (Route E)) :=
  table.routes.filterMap (Routing.Candidate.of? Route.pattern path)

/-- The methods that a path is registered for. -/
def allowed (table : RouteTable E) (path : Bytes) : Http.MethodSet :=
  (table.matching path).foldl (fun methods c => methods.union (.singleton c.entry.method)) .empty

/-- What a method and a path lead to: the most specific route for the method, if there is one. -/
def lookup (table : RouteTable E) (method : Http.Method) (path : Bytes) : Lookup E :=
  let matching := table.matching path
  match Routing.mostSpecific (matching.filter fun c => c.entry.method = method) with
  | some c => .found c.entry c.params (table.allowed path)
  | none => if matching.isEmpty then .notFound else .methodNotAllowed (table.allowed path)

/-- Answers a request with its route, or with a problem where nothing matches. -/
def serve (table : RouteTable E) : Endpoint E := fun sc =>
  match table.lookup sc.request.method sc.relativePath with
  | .found route params _ =>
    (RouteContext.serve none (route.handler ⟨sc.request, params⟩)).bind Native.send
  | failed => (lookupProblem failed.code failed.allowed).send

end RouteTable
end ApiGateway
