import ApiGateway.Problem

/-!
# Faults

A fault is what stops a computation.  Faults are classified by cause; the wording
of each is one function.

Main definitions:

- `ErrorCode`: the numbered causes of the gateway, with their wording.
- `Fault`: everything that can be raised.
- `Fault.message`: the text of a fault.
-/

namespace ApiGateway

/-! ## Error codes -/

/-- A numbered cause; numbers without a meaning are allowed. -/
structure ErrorCode where
  value : Int
deriving DecidableEq, Repr

namespace ErrorCode

/-- The absence of an error. -/
def ok : ErrorCode := ⟨0⟩

/-- No routing context is attached to the request. -/
def missingRouting : ErrorCode := ⟨1⟩

/-- The routed operation is not registered. -/
def unknownOperation : ErrorCode := ⟨2⟩

/-- A reply carries a native response as its payload. -/
def invalidReturnShape : ErrorCode := ⟨3⟩

/-- No handler is known for an operation. -/
def unresolvedOperation : ErrorCode := ⟨4⟩

/-- A required parameter has no value. -/
def missingParameter : ErrorCode := ⟨5⟩

/-- No route matches the path. -/
def notFound : ErrorCode := ⟨6⟩

/-- Routes match the path, but none for the method. -/
def methodNotAllowed : ErrorCode := ⟨7⟩

/-- The file of a file response does not exist. -/
def fileNotFound : ErrorCode := ⟨8⟩

/-- The wording of a gateway code. -/
def message (code : ErrorCode) : Bytes :=
  match code.value with
  | 0 => Bytes.ofString "success"
  | 1 => Bytes.ofString "no routing information attached to request"
  | 2 => Bytes.ofString "encountered unknown operation_id"
  | 3 => Bytes.ofString "native response cannot be nested in a reply"
  | 4 => Bytes.ofString "operation_id could not be resolved to a handler"
  | 5 => Bytes.ofString "missing required parameter"
  | 6 => Bytes.ofString "route not found"
  | 7 => Bytes.ofString "method not allowed"
  | 8 => Bytes.ofString "file not found"
  | _ => Bytes.ofString "unknown error"

/-- The wording of a code of the operating system. -/
def systemMessage (code : ErrorCode) : Bytes :=
  match code.value with
  | 2 => Bytes.ofString "No such file or directory"
  | 5 => Bytes.ofString "Input/output error"
  | n => Bytes.ofString "Unknown error " ++ Bytes.ofInt n

/-- Whether the code stands for an error at all. -/
def isError (code : ErrorCode) : Bool :=
  code.value != 0

end ErrorCode

/-- Who numbers the codes of a fault: the gateway or the operating system. -/
inductive Category where
  | gateway
  | system
deriving DecidableEq, Repr

namespace Category

/-- The name under which a category is reported. -/
def name : Category → Bytes
  | .gateway => Bytes.ofString "tsuba"
  | .system => Bytes.ofString "generic"

/-- The wording of a code in a category. -/
def message : Category → ErrorCode → Bytes
  | .gateway, code => code.message
  | .system, code => code.systemMessage

end Category

/-! ## Faults -/

/-- What stops a computation. -/
inductive Fault where
  /-- A failure with an account for the client, and possibly a gateway code. -/
  | problem (details : Problem) (code : Option ErrorCode)
  /-- A numbered failure with an optional context. -/
  | coded (category : Category) (code : ErrorCode) (context : Option Bytes)
  /-- An argument that the callee cannot accept. -/
  | invalidArgument (text : Bytes)
  /-- A position outside of its range. -/
  | outOfRange (text : Bytes)
  /-- A broken rule of use. -/
  | logic (text : Bytes)
  /-- Any other failure with a text. -/
  | runtime (text : Bytes)
  /-- A raised number, which no rendering knows how to present. -/
  | foreign (value : Int)
deriving DecidableEq, Repr

namespace Fault

/-- The gateway code with a context. -/
def gateway (code : ErrorCode) (context : Bytes) : Fault :=
  .coded .gateway code (some context)

/-- The whole wording of a fault, of which a reader sees the part before the first zero byte. -/
def wording : Fault → Bytes
  | .problem details _ => details.summary
  | .coded category code none => category.message code
  | .coded category code (some context) =>
    context ++ Bytes.ofString ": " ++ category.message code
  | .invalidArgument text => text
  | .outOfRange text => text
  | .logic text => text
  | .runtime text => text
  | .foreign value => Bytes.ofInt value

/-- The text of a fault. -/
def message (f : Fault) : Bytes :=
  f.wording.takeWhile (· != 0)

/-- Every fault but a raised number can be presented to a client. -/
def isPresentable : Fault → Bool
  | .foreign _ => false
  | _ => true

end Fault
end ApiGateway
