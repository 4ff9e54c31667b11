import ApiGateway.Bytes

/-!
# Cookie headers

A cookie header is a list of pairs separated by `;`; a pair is a name and a value
separated by its first `=`.  Blanks and tabs around pairs, names and values are
dropped, and nothing is decoded.  A part without name contributes nothing.

Main definitions:

- `Cookies.parse`: the pairs of a cookie header value.
-/

namespace ApiGateway
namespace Http
namespace Cookies

/-- A blank or a tab. -/
def isBlank (c : UInt8) : Bool :=
  c == 32 || c == 9

/-- The pair written by one part of the header, if it has a name and an `=`. -/
def parsePart (part : Bytes) : Option (Bytes × Bytes) :=
  match Bytes.cut 61 (Bytes.trim isBlank part) with
  | ([], _) => none
  | (_, none) => none
  | (name, some value) => some (Bytes.trim isBlank name, Bytes.trim isBlank value)

/-- The name and value pairs of a cookie header, in order. -/
def parse (header : Bytes) : List (Bytes × Bytes) :=
  (Bytes.splitOn 59 header).filterMap parsePart

end Cookies
end Http
end ApiGateway
