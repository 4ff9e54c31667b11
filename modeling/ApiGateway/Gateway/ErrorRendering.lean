import ApiGateway.Response.Framing

/-!
# Rendering faults

A fault that reaches the top of the gateway before a response has started is
answered with a problem and logged.  The client is told the title of the status,
and beyond that only what the fault says about its code; the context of a fault
goes to the log.

Main definitions:

- `Rendering.of?`: the log entry and the problem of a fault, if it has any.
- `Rendering.guarded`: a program whose faults are answered.
- `Rendering.middleware`: the same for endpoints.
-/

namespace ApiGateway

/-- How a fault is logged and answered. -/
structure Rendering where
  entry : LogEntry
  details : Problem
deriving DecidableEq, Repr

namespace Rendering

/-- The status with which a coded fault is answered. -/
def statusOf (category : Category) (code : ErrorCode) : Int :=
  match category with
  | .system => 500
  | .gateway =>
    if code = .missingParameter then 400
    else if code = .notFound ∨ code = .fileNotFound then 404
    else if code = .methodNotAllowed then 405
    else 500

/-- The internal error, about which nothing more is told. -/
def internalError : Problem :=
  Problem.internalServerError []

/-- How a fault is logged and answered; a raised number is not presentable. -/
def of? (e : Fault) : Option Rendering :=
  match e with
  | .problem details _ => some ⟨.faultRendered details.status e.message, details⟩
  | .coded .gateway code _ =>
    let status := statusOf .gateway code
    some ⟨.faultRendered status e.message, Problem.ofStatus status code.message⟩
  | .coded .system code _ =>
    some ⟨.faultRendered (statusOf .system code) e.message, internalError⟩
  | .foreign _ => none
  | _ => some ⟨.faultUnhandled e.message, internalError⟩

/-- Every fault but a raised number is rendered. -/
theorem isSome_of? (e : Fault) : (of? e).isSome = e.isPresentable := by
  cases e with
  | coded category => cases category <;> rfl
  | _ => rfl

variable {E : Signature}

/-- Logs a rendering and sends its problem. -/
def send (r : Rendering) : Prog (Exchange E) Unit :=
  .call (.log r.entry) fun _ => (Native.ofProblem r.details).send

/-- Answers a fault; one that cannot be presented goes on to the host. -/
def answer (e : Fault) : Prog (Exchange E) Unit :=
  match of? e with
  | some r => r.send
  | none => .fault e

/--
Answers the fault that ends a program, unless a start has been handed to the host before,
whether or not the host has accepted it; then the fault goes on to the host.
-/
def guarded (started : Bool) : Prog (Exchange E) Unit → Prog (Exchange E) Unit
  | .done a => .done a
  | .fault e => if started then .fault e else answer e
  | .call op next =>
    .call op fun a => guarded (started || Exchange.startsResponse op) (next a)
  | .suspend rest => .suspend (guarded started rest)

/-- Answers the faults of an endpoint. -/
def middleware (next : Endpoint E) : Endpoint E :=
  fun sc => guarded false (next sc)

end Rendering
end ApiGateway
