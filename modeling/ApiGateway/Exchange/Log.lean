import ApiGateway.Bytes

/-!
# Log entries

Everything that the gateway writes to its log, with the text of each entry.

Main definitions:

- `LogEntry`: the events worth a line.
- `LogEntry.line`: the line of an event, with its line feed.
-/

namespace ApiGateway

/-- An event that is logged. -/
inductive LogEntry where
  /-- A fault was answered with a problem of that status. -/
  | faultRendered (status : Int) (what : Bytes)
  /-- A fault of unknown cause was answered as an internal error. -/
  | faultUnhandled (what : Bytes)
  /-- A JSON scalar was sent as plain text. -/
  | scalarStringified
  /-- An operation without handler was given a stub that answers with that status. -/
  | handlerMissing (operationId : Bytes) (status : Int)
  /-- An API was set up with that many operations. -/
  | apiMounted (title basePath : Bytes) (operations : Nat)
deriving DecidableEq, Repr

namespace LogEntry

/-- The line of an event. -/
def line : LogEntry → Bytes
  | .faultRendered status what =>
    Bytes.ofString "[tsuba][error] " ++ Bytes.ofInt status ++ Bytes.ofString " " ++ what ++
      Bytes.ofString "\n"
  | .faultUnhandled what =>
    Bytes.ofString "[tsuba][error] 500 unhandled exception: " ++ what ++ Bytes.ofString "\n"
  | .scalarStringified =>
    Bytes.ofString "[tsuba][response] Implicit stringification of a scalar payload; " ++
      Bytes.ofString "declare a media type for this operation\n"
  | .handlerMissing operationId status =>
    Bytes.ofString "[tsuba][api] no handler for '" ++ operationId ++
      Bytes.ofString "', responding with " ++ Bytes.ofInt status ++ Bytes.ofString "\n"
  | .apiMounted title basePath operations =>
    Bytes.ofString "[tsuba][api] '" ++ title ++ Bytes.ofString "' mounted at '" ++ basePath ++
      Bytes.ofString "' with " ++ Bytes.ofNat operations ++ Bytes.ofString " operations\n"

end LogEntry
end ApiGateway
