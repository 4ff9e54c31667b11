import ApiGateway.Bytes

/-!
# Request targets

A request target is a path, optionally followed by `?` and a query, optionally
followed by `#` and a fragment.  Both parts are read without decoding.

Main definitions:

- `Target.path`: the text before the first `?` or `#`.
- `Target.query`: the text between that `?` and the next `#`.
-/

namespace ApiGateway
namespace Http
namespace Target

/-- Whether a byte ends the path: `?` or `#`. -/
def endsPath (c : UInt8) : Bool :=
  c == 63 || c == 35

/-- The target without query and fragment. -/
def path (target : Bytes) : Bytes :=
  target.takeWhile fun c => !endsPath c

/-- The raw query without its question mark, empty if there is none. -/
def query (target : Bytes) : Bytes :=
  match target.dropWhile fun c => !endsPath c with
  | [] => []
  | c :: rest => if c = 63 then rest.takeWhile (· != 35) else []

end Target
end Http
end ApiGateway
