import ApiGateway.Http.Percent

/-!
# Query strings

A query is a list of fields separated by `&`; a field is a name and a value
separated by its first `=`.  Names and values are percent-decoded with `+` read
as a blank.  Empty fields are skipped, order and repeats are kept.

Main definitions:

- `Query.parse`: the decoded fields of a query string.
-/

namespace ApiGateway
namespace Http
namespace Query

/-- Decodes one field; a field without `=` has an empty value. -/
def parseField (field : Bytes) : Bytes × Bytes :=
  let (name, value) := Bytes.cut 61 field
  (Percent.decode true name, Percent.decode true (value.getD []))

/-- The decoded name and value pairs of a query string, in order. -/
def parse (query : Bytes) : List (Bytes × Bytes) :=
  ((Bytes.splitOn 38 query).filter fun field => !field.isEmpty).map parseField

end Query
end Http
end ApiGateway
