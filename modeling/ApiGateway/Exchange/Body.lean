import ApiGateway.Fault

/-!
# Request bodies

A request body arrives in chunks, each of which says whether more follow.  The
source of a request is the list of what its next calls deliver; a call may fail,
and after the list every call delivers an empty last chunk.

Main definitions:

- `Body.Source`: what the next calls deliver.
- `Body.readAll`: reads up to and including the first last chunk.
-/

namespace ApiGateway
namespace Body

/-- A part of a request body. -/
structure Chunk where
  data : Bytes
  more : Bool
deriving DecidableEq, Repr

/-- What the next calls of a receive function deliver. -/
abbrev Source := List (Except Fault Chunk)

/-- What reading has found, what is left to deliver, and how often the source was called. -/
structure Reading where
  outcome : Except Fault Bytes
  rest : Source
  calls : Nat

/-- Reads a whole body; a failing call ends the reading, and what was read is lost. -/
def readAll : Source → Reading
  | [] => ⟨.ok [], [], 1⟩
  | .error e :: rest => ⟨.error e, rest, 1⟩
  | .ok chunk :: rest =>
    if chunk.more then
      let reading := readAll rest
      { reading with
        outcome := reading.outcome.map (chunk.data ++ ·)
        calls := reading.calls + 1 }
    else
      ⟨.ok chunk.data, rest, 1⟩

/-- The source is called at least once. -/
theorem calls_pos (source : Source) : 0 < (readAll source).calls := by
  unfold readAll
  split
  · exact Nat.one_pos
  · exact Nat.one_pos
  · split
    · exact Nat.succ_pos _
    · exact Nat.one_pos

end Body
end ApiGateway
