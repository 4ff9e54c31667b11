import ApiGateway.Exchange.Effects
import ApiGateway.Operation.Binding
import ApiGateway.Registry

/-!
# Operation handlers and their invocation

A handler turns arguments into a handler result, either at once or possibly after
suspensions.  An invoker holds an operation with its handler; invoking it binds the
parameters, reads the body if one is declared, and runs the handler once.

Main definitions:

- `OperationHandler`, `Resolver`: handlers, and handlers by operation id.
- `Invoker.invoke`: the program of one call.
-/

namespace ApiGateway

/-- A handler of an operation over the application's operations `E`. -/
inductive OperationHandler (E : Signature) where
  /-- Answers without suspending. -/
  | sync (run : Arguments → Immediate E HandlerResult)
  /-- May suspend before it answers. -/
  | async (run : Arguments → Prog E HandlerResult)

namespace OperationHandler

variable {E : Signature}

/-- Whether a handler may suspend. -/
def isAsync : OperationHandler E → Bool
  | .sync _ => false
  | .async _ => true

/-- The program of a handler for given arguments. -/
def program : OperationHandler E → Arguments → Prog E HandlerResult
  | .sync run, args => (run args).toProg
  | .async run, args => run args

end OperationHandler

/-- Handlers by operation id. -/
abbrev Resolver (E : Signature) := Registry (OperationHandler E)

/-- An operation with its handler, ready to be called. -/
structure Invoker (E : Signature) where
  operation : OperationSpec
  handler : OperationHandler E
  /-- Without a binder no parameter is bound. -/
  binder : Option Binder := some Binder.standard
  apiBasePath : Bytes := []
  /-- Whether parameters are bound under the identifiers of their names. -/
  identifiers : Bool := false

namespace Invoker

variable {E : Signature}

/-- The id of the operation. -/
def operationId (inv : Invoker E) : Bytes :=
  inv.operation.operationId

/-- The media type declared for responses. -/
def mediaType (inv : Invoker E) : Option Bytes :=
  some inv.operation.mediaType

/-- Binds the parameters of a request. -/
def bindParameters (inv : Invoker E) (sc : Scope) : Binding :=
  match inv.binder with
  | some binder => binder inv.operation sc inv.identifiers ⟨sc, [], none⟩
  | none => ⟨⟨sc, [], none⟩, none⟩

/-- Binds the parameters, then reads the body if the operation declares one. -/
def arguments (inv : Invoker E) (sc : Scope) : Prog (Exchange E) Arguments :=
  let binding := inv.bindParameters sc
  match binding.failure with
  | some e => .fault e
  | none =>
    if inv.operation.hasRequestBody then
      Exchange.receiveBody.bind fun body => .done { binding.arguments with body := some body }
    else
      .done binding.arguments

/-- A fault of the binder ends the call before the body is read. -/
theorem arguments_of_failure {inv : Invoker E} {sc : Scope} {e : Fault}
    (h : (inv.bindParameters sc).failure = some e) : inv.arguments sc = .fault e := by
  simp only [arguments, h]

/-- Where a body is declared it is read after the parameters are bound. -/
theorem arguments_of_hasRequestBody {inv : Invoker E} {sc : Scope}
    (h : (inv.bindParameters sc).failure = none) (hbody : inv.operation.hasRequestBody = true) :
    inv.arguments sc = Exchange.receiveBody.bind fun body =>
      .done { (inv.bindParameters sc).arguments with body := some body } := by
  simp only [arguments, h, hbody, if_true]

/-- Where no body is declared the arguments are the bound parameters. -/
theorem arguments_of_no_requestBody {inv : Invoker E} {sc : Scope}
    (h : (inv.bindParameters sc).failure = none) (hbody : inv.operation.hasRequestBody = false) :
    inv.arguments sc = .done (inv.bindParameters sc).arguments := by
  simp only [arguments, h, hbody, Bool.false_eq_true, if_false]

/-- Gathers the arguments and runs the handler once. -/
def invoke (inv : Invoker E) (sc : Scope) : Prog (Exchange E) HandlerResult :=
  (inv.arguments sc).bind fun args =>
    (inv.handler.program args).embed (Embedding.effects E)

end Invoker
end ApiGateway
