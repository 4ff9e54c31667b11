import ApiGateway.Routing.Pattern

/-!
# Matching with a bounded split

How a path is matched in place: its segments are written to a buffer that has room for as
many of them as a template can have, and compared with the template one after another.
The captured parameters are gathered first and given to the caller only after the last
comparison.

Main definitions:

- `Split`, `Split.write`, `Split.ofPath`: the segments of a path in a buffer of fixed size.
- `Pattern.gather`: the comparison, segment by segment.
- `Pattern.matchInto`: a match that adds to the parameters of the caller.
-/

namespace ApiGateway
namespace Routing

/-- A buffer of segments, and whether there was no room for a further one. -/
structure Split where
  parts : List Bytes := []
  overflow : Bool := false
  length_le : parts.length ≤ maxSegments := by decide

namespace Split

/-- Writes a segment behind the others. -/
def write (split : Split) (part : Bytes) (h : split.parts.length < maxSegments) : Split where
  parts := split.parts ++ [part]
  overflow := split.overflow
  length_le := by
    rw [List.length_append]
    exact h

/-- Reads segments from a path until it ends or the buffer is full. -/
def readOn (split : Split) : Bytes → Split
  | [] => split
  | c :: rest =>
    if c = 47 then
      split.readOn rest
    else if h : split.parts.length < maxSegments then
      (split.write (c :: rest.takeWhile (· != 47)) h).readOn (rest.dropWhile (· != 47))
    else
      { split with overflow := true }
termination_by path => path.length
decreasing_by
  · exact Nat.lt_succ_self _
  · exact Nat.lt_succ_of_le (List.dropWhile_suffix _).length_le

/-- The segments of a path. -/
def ofPath (path : Bytes) : Split :=
  ({} : Split).readOn path

end Split

namespace Pattern

/-- Compares segments with parts of a path, and adds what is captured to what has been so far. -/
def gather : List Segment → List Bytes → Params → Option Params
  | .literal text :: segments, part :: parts, gathered =>
    if text = part then gather segments parts gathered else none
  | .parameter name :: segments, part :: parts, gathered =>
    if part.isEmpty then none else gather segments parts (gathered ++ [(name, part)])
  | _, _, gathered => some gathered

/-- Whether a path matches, and the parameters of the caller after the match. -/
def matchInto (p : Pattern) (path : Bytes) (params : Params) : Bool × Params :=
  let split := Split.ofPath path
  if split.overflow || split.parts.length != p.segments.length then
    (false, params)
  else
    match gather p.segments split.parts [] with
    | none => (false, params)
    | some gathered => (true, params ++ gathered)

end Pattern
end Routing
end ApiGateway
