import ApiGateway.Bytes

/-!
# Identifiers from parameter names

A parameter name becomes an identifier in snake case: words that start with a
capital are separated by underscores, dashes and brackets become underscores, and
what cannot stand in an identifier is dropped.

Main definitions:

- `Identifier.separateWords`: capitals and dashes as word boundaries.
- `Identifier.joinBrackets`: brackets as underscores, other bytes dropped.
- `Identifier.ofName`: the identifier of a name.
-/

namespace ApiGateway
namespace Identifier

/--
Whether a byte starts a word: a capital after a small letter or a digit, or the last capital of
a run before a small letter.
-/
def startsWord (previous : Option UInt8) (c : UInt8) (next : Option UInt8) : Bool :=
  Bytes.isUpper c && previous.any fun p =>
    Bytes.isLower p || Bytes.isDigit p || (Bytes.isUpper p && next.any Bytes.isLower)

/--
Puts an underscore before each word, writes dashes as underscores, and lowers capitals.  Where a
word starts, a letter or a digit has been written last, so it is not asked whether there is an
underscore already.
-/
def separateWords (previous : Option UInt8) : Bytes → Bytes
  | [] => []
  | c :: rest =>
    if c = 45 then
      95 :: separateWords (some c) rest
    else if startsWord previous c rest.head? then
      95 :: Bytes.lowerByte c :: separateWords (some c) rest
    else
      Bytes.lowerByte c :: separateWords (some c) rest

/-- A byte that may stand in an identifier: a letter, a digit or an underscore. -/
def isPart (c : UInt8) : Bool :=
  Bytes.isLetter c || Bytes.isDigit c || c == 95

/-- Writes `][` and `[` as one underscore each, and drops what cannot stand in an identifier. -/
def joinBrackets : Bytes → Bytes
  | 93 :: 91 :: rest => 95 :: joinBrackets rest
  | c :: rest =>
    if c = 91 then 95 :: joinBrackets rest
    else if isPart c then c :: joinBrackets rest
    else joinBrackets rest
  | [] => []

/-- A byte that may start an identifier: a letter or an underscore. -/
def isStart (c : UInt8) : Bool :=
  Bytes.isLetter c || c == 95

/-- The identifier of a name, without the bytes that cannot start it. -/
def ofName (name : Bytes) : Bytes :=
  (joinBrackets (separateWords none name)).dropWhile fun c => !isStart c

end Identifier
end ApiGateway
