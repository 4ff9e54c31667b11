import ApiGateway.Decimal.Shortest

/-!
# JSON documents

A JSON document is a finite tree.  Objects keep the order of their members and
may repeat a key.  Strings and keys are arbitrary bytes; only the quote, the
backslash and the control characters below a blank are escaped.

Main definitions:

- `Json.escape`: the inside of a string literal.
- `Json.Document.render`: the compact text of a document.
- `Json.Document.same`: equality, with numbers compared as numbers.
-/

namespace ApiGateway
namespace Json

/-! ## String literals -/

/-- The lower-case hexadecimal digit of a number below sixteen. -/
def hexDigit (n : UInt8) : UInt8 :=
  if n < 10 then 48 + n else 87 + n

/-- How a byte is written inside a string literal. -/
def escapeByte (c : UInt8) : Bytes :=
  if c = 92 then [92, 92]
  else if c = 34 then [92, 34]
  else if c = 10 then [92, 110]
  else if c = 13 then [92, 114]
  else if c = 9 then [92, 116]
  else if c = 8 then [92, 98]
  else if c = 12 then [92, 102]
  else if c < 32 then [92, 117, 48, 48, hexDigit (c / 16), hexDigit (c % 16)]
  else [c]

/-- The inside of the string literal of a text. -/
def escape (s : Bytes) : Bytes :=
  s.flatMap escapeByte

/-- The string literal of a text, with its quotes. -/
def quote (s : Bytes) : Bytes :=
  34 :: (escape s ++ [34])

@[simp]
theorem escape_append (s t : Bytes) : escape (s ++ t) = escape s ++ escape t := by
  simp [escape]

/-! ## Documents -/

/-- A JSON document. -/
inductive Document where
  | null
  | boolean (value : Bool)
  | integer (value : Int64)
  | number (value : Binary64)
  | string (value : Bytes)
  | array (items : List Document)
  | object (members : List (Bytes × Document))

instance : Inhabited Document :=
  ⟨.null⟩

namespace Document

mutual

/-- The compact text of a document; a number without decimal text is written `null`. -/
def render : Document → Bytes
  | .null => Bytes.ofString "null"
  | .boolean true => Bytes.ofString "true"
  | .boolean false => Bytes.ofString "false"
  | .integer i => Bytes.ofInt i.toInt
  | .number d => (Shortest.text d).getD (Bytes.ofString "null")
  | .string s => quote s
  | .array items => 91 :: (renderItems items ++ [93])
  | .object members => 123 :: (renderMembers members ++ [125])

/-- The texts of the items, separated by commas. -/
def renderItems : List Document → Bytes
  | [] => []
  | [item] => item.render
  | item :: rest => item.render ++ 44 :: renderItems rest

/-- The keys and texts of the members, separated by commas. -/
def renderMembers : List (Bytes × Document) → Bytes
  | [] => []
  | [(key, value)] => quote key ++ 58 :: value.render
  | (key, value) :: rest => quote key ++ 58 :: (value.render ++ 44 :: renderMembers rest)

end

mutual

/-- Equality of documents; integers and numbers are different kinds. -/
def same : Document → Document → Bool
  | .null, .null => true
  | .boolean a, .boolean b => a == b
  | .integer a, .integer b => a == b
  | .number a, .number b => a.same b
  | .string a, .string b => a == b
  | .array a, .array b => sameItems a b
  | .object a, .object b => sameMembers a b
  | _, _ => false

/-- Equality of item lists, place by place. -/
def sameItems : List Document → List Document → Bool
  | [], [] => true
  | a :: as, b :: bs => a.same b && sameItems as bs
  | _, _ => false

/-- Equality of member lists, place by place. -/
def sameMembers : List (Bytes × Document) → List (Bytes × Document) → Bool
  | [], [] => true
  | (k, a) :: as, (l, b) :: bs => k == l && a.same b && sameMembers as bs
  | _, _ => false

end

/-- Objects and arrays are structured, all else is scalar. -/
def isStructured : Document → Bool
  | .array _ => true
  | .object _ => true
  | _ => false

end Document

end Json
end ApiGateway
