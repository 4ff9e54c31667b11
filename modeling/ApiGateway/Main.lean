import ApiGateway.PetStore.Service

/-!
# The pet store program

Writes what the session of the pet store service says to the two output streams.
-/

namespace ApiGateway

/-- Writes a text to its stream. -/
def writeOutput : PetStore.Service.Output → IO Unit
  | .out text => do (← IO.getStdout).write ⟨text.toArray⟩
  | .err text => do (← IO.getStderr).write ⟨text.toArray⟩

end ApiGateway

open ApiGateway

/-- Runs the session; a gateway that cannot be set up is reported. -/
def main : IO UInt32 := do
  match PetStore.Service.session with
  | .ok outputs =>
    outputs.forM writeOutput
    return 0
  | .error e =>
    writeOutput (.err (e.message ++ Bytes.ofString "\n"))
    return 1
