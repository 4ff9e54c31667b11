import ApiGateway.Json.Document

/-!
# Editable JSON values

A JSON value is built up by setting members and pushing items.  It keeps one
store for each kind it has ever had; its kind says which store is live.  Setting
a member turns the value into an object and pushing an item turns it into an
array, and both leave the other stores as they were.

Main definitions:

- `Json.Value.set`, `Json.Value.push`: the two updates.
- `Json.Value.document`: the document that the live stores describe.
- `Json.Value.dump`, `Json.Value.dumpInto`: the compact text, alone or after other text.
- `Json.Value.find?`, `Json.Value.size`: reading the live store.
-/

namespace ApiGateway
namespace Json

/-- The kinds of JSON values. -/
inductive Kind where
  | null
  | boolean
  | integer
  | number
  | string
  | array
  | object
deriving DecidableEq, Repr

namespace Kind

/-- The name of a kind. -/
def name : Kind → Bytes
  | .null => Bytes.ofString "null"
  | .boolean => Bytes.ofString "boolean"
  | .integer => Bytes.ofString "integer"
  | .number => Bytes.ofString "number"
  | .string => Bytes.ofString "string"
  | .array => Bytes.ofString "array"
  | .object => Bytes.ofString "object"

end Kind

/-- A value with its live kind and the stores of all kinds. -/
structure Value where
  kind : Kind := .null
  flag : Bool := false
  int : Int64 := 0
  number : Binary64 := Binary64.zero
  text : Bytes := []
  items : List Value := []
  members : List (Bytes × Value) := []

instance : Inhabited Value :=
  ⟨⟨.null, false, 0, Binary64.zero, [], [], []⟩⟩

namespace Value

/-! ## Building values -/

/-- The null value. -/
def null : Value := {}

/-- A truth value. -/
def ofBool (b : Bool) : Value :=
  { kind := .boolean, flag := b }

/-- An integer value. -/
def ofInt (i : Int64) : Value :=
  { kind := .integer, int := i }

/-- A floating point value. -/
def ofNumber (d : Binary64) : Value :=
  { kind := .number, number := d }

/-- A string value. -/
def ofText (s : Bytes) : Value :=
  { kind := .string, text := s }

/-- An array of items. -/
def ofItems (items : List Value) : Value :=
  { kind := .array, items := items }

/-- An object of members; keys may repeat. -/
def ofMembers (members : List (Bytes × Value)) : Value :=
  { kind := .object, members := members }

/-- Replaces the first member of that key, or appends a member. -/
def setMember (key : Bytes) (value : Value) : List (Bytes × Value) → List (Bytes × Value)
  | [] => [(key, value)]
  | member :: rest =>
    if member.1 = key then
      (key, value) :: rest
    else
      member :: setMember key value rest

/-- Turns the value into an object and sets a member of it. -/
def set (v : Value) (key : Bytes) (value : Value) : Value :=
  { v with kind := .object, members := setMember key value v.members }

/-- Turns the value into an array and appends an item to it. -/
def push (v : Value) (item : Value) : Value :=
  { v with kind := .array, items := v.items ++ [item] }

/-! ## Reading values -/

/-- The first member of that key, if the value is an object. -/
def find? (v : Value) (key : Bytes) : Option Value :=
  if v.kind = .object then v.members.lookup key else none

/-- The number of live items or members, zero for a scalar. -/
def size (v : Value) : Nat :=
  match v.kind with
  | .array => v.items.length
  | .object => v.members.length
  | _ => 0

/-- Objects and arrays are structured, all else is scalar. -/
def isStructured (v : Value) : Bool :=
  v.kind == .array || v.kind == .object

/-- The value as a floating point number: an integer is converted, all else reads the store. -/
def toNumber (v : Value) : Binary64 :=
  if v.kind = .integer then Binary64.ofInt v.int.toInt else v.number

mutual

/-- The document that the live stores describe. -/
def document : Value → Document
  | ⟨.null, _, _, _, _, _, _⟩ => .null
  | ⟨.boolean, flag, _, _, _, _, _⟩ => .boolean flag
  | ⟨.integer, _, int, _, _, _, _⟩ => .integer int
  | ⟨.number, _, _, number, _, _, _⟩ => .number number
  | ⟨.string, _, _, _, text, _, _⟩ => .string text
  | ⟨.array, _, _, _, _, items, _⟩ => .array (documents items)
  | ⟨.object, _, _, _, _, _, members⟩ => .object (memberDocuments members)

/-- The documents of the items. -/
def documents : List Value → List Document
  | [] => []
  | v :: rest => v.document :: documents rest

/-- The keys and documents of the members. -/
def memberDocuments : List (Bytes × Value) → List (Bytes × Document)
  | [] => []
  | (key, v) :: rest => (key, v.document) :: memberDocuments rest

end

/-- The compact text of the live document. -/
def dump (v : Value) : Bytes :=
  v.document.render

mutual

/-- Appends the compact text of the live stores to what has been written already. -/
def dumpInto : Value → Bytes → Bytes
  | ⟨.null, _, _, _, _, _, _⟩, out => out ++ Bytes.ofString "null"
  | ⟨.boolean, flag, _, _, _, _, _⟩, out =>
    out ++ if flag then Bytes.ofString "true" else Bytes.ofString "false"
  | ⟨.integer, _, int, _, _, _, _⟩, out => out ++ Bytes.ofInt int.toInt
  | ⟨.number, _, _, number, _, _, _⟩, out =>
    out ++ (Shortest.text number).getD (Bytes.ofString "null")
  | ⟨.string, _, _, _, text, _, _⟩, out => out ++ [34] ++ escape text ++ [34]
  | ⟨.array, _, _, _, _, items, _⟩, out => dumpItemsInto items true (out ++ [91]) ++ [93]
  | ⟨.object, _, _, _, _, _, members⟩, out => dumpMembersInto members true (out ++ [123]) ++ [125]

/-- Appends the items, with a comma before each but the first. -/
def dumpItemsInto : List Value → Bool → Bytes → Bytes
  | [], _, out => out
  | v :: rest, first, out =>
    dumpItemsInto rest false (v.dumpInto (if first then out else out ++ [44]))

/-- Appends the members, with a comma before each but the first. -/
def dumpMembersInto : List (Bytes × Value) → Bool → Bytes → Bytes
  | [], _, out => out
  | (key, v) :: rest, first, out =>
    let separated := if first then out else out ++ [44]
    dumpMembersInto rest false (v.dumpInto (separated ++ [34] ++ escape key ++ [34, 58]))

end

/-- Equality of the live documents. -/
def same (v w : Value) : Bool :=
  v.document.same w.document

/-! ## Views of the builders -/

@[simp]
theorem documents_eq_map (items : List Value) : documents items = items.map document := by
  induction items with
  | nil => rfl
  | cons v rest ih => rw [documents, ih, List.map_cons]

@[simp]
theorem memberDocuments_eq_map (members : List (Bytes × Value)) :
    memberDocuments members = members.map fun m => (m.1, m.2.document) := by
  induction members with
  | nil => rfl
  | cons m rest ih => rw [memberDocuments, ih, List.map_cons]

@[simp]
theorem document_ofText (s : Bytes) : (ofText s).document = .string s :=
  rfl

@[simp]
theorem document_ofInt (i : Int64) : (ofInt i).document = .integer i :=
  rfl

@[simp]
theorem document_push (v item : Value) :
    (v.push item).document = .array (v.items.map document ++ [item.document]) := by
  simp [push, document]

@[simp]
theorem document_set (v : Value) (key : Bytes) (value : Value) :
    (v.set key value).document =
      .object ((setMember key value v.members).map fun m => (m.1, m.2.document)) := by
  simp [set, document]

/-- A value is structured exactly when its document is. -/
theorem isStructured_document (v : Value) : v.document.isStructured = v.isStructured := by
  obtain ⟨kind, _, _, _, _, _, _⟩ := v
  cases kind <;> rfl

end Value

end Json
end ApiGateway
