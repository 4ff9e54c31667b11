import ApiGateway.Fault
import ApiGateway.Http.Cookies
import ApiGateway.Http.Query
import ApiGateway.Operation.Arguments
import ApiGateway.Operation.Identifier
import ApiGateway.Operation.Specification

/-!
# Binding parameters

A binder reads the values of the declared parameters from a request.  It may fail;
what it has bound before the failure stays bound.

Main definitions:

- `Binder`: the form of all binders.
- `Binder.standard`: path parameters from the routing context, the decoded query,
  headers and cookies.
- `Binder.missing`: the fault of a required parameter without value.
-/

namespace ApiGateway

/-- The arguments that a binder leaves, and its fault if it has failed. -/
structure Binding where
  arguments : Arguments
  failure : Option Fault := none

/--
Reads the parameters of an operation from a request, under their names or, if the flag is set,
under the identifiers of their names.
-/
abbrev Binder := OperationSpec → Scope → Bool → Arguments → Binding

namespace Binder

/-- The values that a request gives to a parameter, in order. -/
def valuesOf (sc : Scope) (p : Parameter) : List Bytes :=
  match p.location with
  | .path =>
    match sc.routing.bind fun routing => routing.params.get? p.name with
    | some value => [Http.Percent.decode false value]
    | none => []
  | .query => ((Http.Query.parse sc.request.query).filter (·.1 == p.name)).map Prod.snd
  | .header => (sc.request.header? p.name).toList
  | .cookie =>
    match sc.request.header? (Bytes.ofString "cookie") with
    | some header => ((Http.Cookies.parse header).filter (·.1 == p.name)).map Prod.snd
    | none => []

/-- The fault of a required parameter without value. -/
def missing (p : Parameter) : Fault :=
  .problem
    (Problem.badRequest <|
      Bytes.ofString "missing " ++ p.location.name ++ Bytes.ofString " parameter '" ++ p.name ++
        Bytes.ofString "'")
    (some .missingParameter)

/-- The name under which a parameter is bound. -/
def boundName (identifiers : Bool) (p : Parameter) : Bytes :=
  if identifiers then Identifier.ofName p.name else p.name

/-- Binds parameters one after another, up to the first required one without value. -/
def bindParameters (sc : Scope) (identifiers : Bool) (args : Arguments) :
    List Parameter → Binding
  | [] => ⟨args, none⟩
  | p :: rest =>
    let values := valuesOf sc p
    if values.isEmpty && p.required then
      ⟨args, some (missing p)⟩
    else
      bindParameters sc identifiers (args.addAll (boundName identifiers p) values) rest

/-- The binder used where no other is given. -/
def standard : Binder := fun op sc identifiers args =>
  bindParameters sc identifiers args op.parameters

end Binder
end ApiGateway
