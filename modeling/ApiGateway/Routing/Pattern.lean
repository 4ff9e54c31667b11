import ApiGateway.Exchange.Scope
import ApiGateway.Fault

/-!
# Path templates

A template is a path whose segments are literals or named parameters in braces.
It matches a path segment by segment; how many slashes separate the segments of
the path does not matter.

Main definitions:

- `Pattern.parse`: reads a template, or says what is wrong with it.
- `Pattern.match?`: the parameters with which a path matches.
- `Pattern.score`: how specific a template is.
-/

namespace ApiGateway
namespace Routing

/-- The greatest number of segments of a template. -/
def maxSegments : Nat :=
  16

/-- A part of a template between slashes. -/
inductive Segment where
  | literal (text : Bytes)
  | parameter (name : Bytes)
deriving DecidableEq, Repr

/-- A template with its segments. -/
structure Pattern where
  text : Bytes
  segments : List Segment
deriving DecidableEq, Repr

/-- What can be wrong with a template. -/
inductive PatternError where
  | emptyPath
  | noLeadingSlash
  | emptySegment
  | tooManySegments
  | unclosedParameter
  | unnamedParameter
deriving DecidableEq, Repr

namespace PatternError

/-- The wording of a template error. -/
def message : PatternError → Bytes
  | .emptyPath => Bytes.ofString "route path cannot be empty"
  | .noLeadingSlash => Bytes.ofString "route path must start with '/'"
  | .emptySegment => Bytes.ofString "empty path segment is not allowed"
  | .tooManySegments => Bytes.ofString "too many path segments"
  | .unclosedParameter => Bytes.ofString "parameter segment must end with '\x7d'"
  | .unnamedParameter => Bytes.ofString "parameter name cannot be empty"

/-- A template error as a fault. -/
def toFault (e : PatternError) : Fault :=
  .invalidArgument e.message

end PatternError

/-! ## Reading templates -/

namespace Segment

/-- Reads one segment: an opening brace makes it a parameter, which a closing brace must end. -/
def parse (piece : Bytes) : Except PatternError Segment :=
  match piece with
  | 123 :: inside =>
    if piece.getLast? ≠ some 125 then .error .unclosedParameter
    else if inside.length ≤ 1 then .error .unnamedParameter
    else .ok (.parameter inside.dropLast)
  | _ => .ok (.literal piece)

/-- Whether a segment is a literal. -/
def isLiteral : Segment → Bool
  | .literal _ => true
  | .parameter _ => false

end Segment

namespace Pattern

/--
Reads the pieces between slashes.  The text may end after a slash, and one further slash may
follow; any other empty piece is refused.
-/
def parsePieces (room : Nat) : List Bytes → Except PatternError (List Segment)
  | [] => .ok []
  | [[]] => .ok []
  | [[], []] => .ok []
  | [] :: _ => .error .emptySegment
  | piece :: rest =>
    match room with
    | 0 => .error .tooManySegments
    | room + 1 => do
      let segment ← Segment.parse piece
      let segments ← parsePieces room rest
      return segment :: segments

/-- Reads a template, which starts with a slash. -/
def parse : Bytes → Except PatternError Pattern
  | [] => .error .emptyPath
  | c :: rest =>
    if c = 47 then do
      let segments ← parsePieces maxSegments (Bytes.splitOn 47 rest)
      return ⟨c :: rest, segments⟩
    else
      .error .noLeadingSlash

/-! ## Matching -/

/-- The number of segments. -/
def segmentCount (p : Pattern) : Nat :=
  p.segments.length

/-- The number of literal segments. -/
def literalCount (p : Pattern) : Nat :=
  p.segments.countP Segment.isLiteral

/-- The number of parameter segments. -/
def paramCount (p : Pattern) : Nat :=
  p.segments.countP fun s => !s.isLiteral

/-- How specific a template is: literals count most, then a small number of parameters. -/
def score (p : Pattern) : Nat :=
  16 * p.literalCount + (maxSegments - p.paramCount)

/-- The non-empty segments of a path. -/
def pathSegments (path : Bytes) : List Bytes :=
  (Bytes.splitOn 47 path).filter fun piece => !piece.isEmpty

/-- The parameters with which the segments of a path match, one after another. -/
def matchSegments : List Segment → List Bytes → Option Params
  | [], [] => some []
  | .literal text :: segments, piece :: pieces =>
    if text = piece then matchSegments segments pieces else none
  | .parameter name :: segments, piece :: pieces =>
    (matchSegments segments pieces).map ((name, piece) :: ·)
  | _, _ => none

/-- The parameters with which a path matches. -/
def match? (p : Pattern) (path : Bytes) : Option Params :=
  matchSegments p.segments (pathSegments path)

/-- Every segment is a literal or a parameter. -/
theorem literalCount_add_paramCount (p : Pattern) :
    p.literalCount + p.paramCount = p.segments.length := by
  simpa [literalCount, paramCount] using
    (List.length_eq_countP_add_countP Segment.isLiteral (l := p.segments)).symm

/-- A match leaves no segment over on either side. -/
theorem length_eq_of_matchSegments {segments : List Segment} {pieces : List Bytes}
    {params : Params} (h : matchSegments segments pieces = some params) :
    segments.length = pieces.length := by
  fun_induction matchSegments segments pieces generalizing params with
  | case1 => rfl
  | case2 text segments pieces ih => simp [ih h]
  | case3 => cases h
  | case4 name segments piece pieces ih =>
    obtain ⟨rest, hrest, _⟩ := Option.map_eq_some_iff.1 h
    simp [ih hrest]
  | case5 => cases h

end Pattern

end Routing
end ApiGateway
