import ApiGateway.Routing.ApiRoutes
import ApiGateway.Routing.RouteTable

/-!
# Scanning tables

How the two kinds of tables look for an entry: one pass over all entries, with the best
entry so far, its parameters and its score.  A table of manual routes also gathers the
methods of all entries that match, and reports why it has found none.  A routing list
writes the parameters of its choice over those that its caller has.

Main definitions:

- `Pattern.wordScore`: the score in machine words.
- `Best`, `Best.offer`: the best entry so far, and what a further entry changes.
- `ApiRoutes.matchInto`: the pass over a routing list.
- `RouteTable.scan`, `RouteTable.report`: the pass over a table of manual routes, and its report.
-/

namespace ApiGateway
namespace Routing

/--
The score of a template in machine words: the counts are unsigned words of 64 bits, and the result
is cast to a signed word of 32 bits.
-/
def Pattern.wordScore (p : Pattern) : Int32 :=
  (UInt64.ofNat p.literalCount * 16 +
    (UInt64.ofNat maxSegments - UInt64.ofNat p.paramCount)).toUInt32.toInt32

/-- The best entry so far: its place, the parameters with which it matches, and its score. -/
structure Best where
  place : Option Nat := none
  params : Params := []
  score : Int32 := -1
deriving DecidableEq

/-- A further entry that matches becomes the best one if it is the first or scores more. -/
def Best.offer (best : Best) (place : Nat) (params : Params) (score : Int32) : Best :=
  if best.place.isNone || best.score < score then ⟨some place, params, score⟩ else best

end Routing

/-! ## Routing lists -/

namespace ApiRoutes

/-- An operation is passed over if its method is another one or its template does not match. -/
def scanStep (method : Http.Method) (path : Bytes) (best : Routing.Best)
    (entry : OperationRoute × Nat) : Routing.Best :=
  if entry.1.method ≠ method then
    best
  else
    match entry.1.pattern.match? path with
    | none => best
    | some params => best.offer entry.2 params entry.1.pattern.wordScore

/--
The place of the most specific operation, and the parameters of the caller after the call: those of
that operation, or the ones before the call if there is no such operation.
-/
def matchInto (routes : ApiRoutes) (method : Http.Method) (path : Bytes) (params : Params) :
    Option Nat × Params :=
  let best := routes.operations.zipIdx.foldl (scanStep method path) {}
  (best.place, if best.place.isSome then best.params else params)

end ApiRoutes

/-! ## Tables of manual routes -/

/-- What a pass over a table has come upon so far. -/
structure TableScan where
  best : Routing.Best := {}
  pathMatched : Bool := false
  allowed : Http.MethodSet := .empty

/-- What a table reports: a place and parameters or the reason why there are none. -/
structure DispatchReport where
  route : Except ErrorCode (Nat × Params)
  /-- Whether some template matches the path. -/
  pathMatched : Bool
  /-- The methods for which a template matches the path. -/
  allowed : Http.MethodSet

namespace RouteTable

variable {E : Signature}

/-- A route whose template matches allows its method, and is offered if it is the one asked for. -/
def scanStep (method : Http.Method) (path : Bytes) (scan : TableScan) (entry : Route E × Nat) :
    TableScan :=
  match entry.1.pattern.match? path with
  | none => scan
  | some params =>
    let seen := { scan with
      pathMatched := true
      allowed := scan.allowed.union (.singleton entry.1.method) }
    if entry.1.method ≠ method then
      seen
    else
      { seen with best := scan.best.offer entry.2 params entry.1.pattern.wordScore }

/-- One pass over the routes. -/
def scan (table : RouteTable E) (method : Http.Method) (path : Bytes) : TableScan :=
  table.routes.zipIdx.foldl (scanStep method path) {}

/-- What the table reports for a method and a path. -/
def report (table : RouteTable E) (method : Http.Method) (path : Bytes) : DispatchReport :=
  let scan := table.scan method path
  match scan.best.place with
  | some place => ⟨.ok (place, scan.best.params), true, scan.allowed⟩
  | none =>
    if scan.pathMatched then
      ⟨.error .methodNotAllowed, true, scan.allowed⟩
    else
      ⟨.error .notFound, false, .empty⟩

end RouteTable
end ApiGateway
