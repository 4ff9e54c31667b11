import ApiGateway.Bytes

/-!
# Header lists

An ordered list of name and value pairs whose names compare without regard to
the case of ASCII letters.  Entries of one name may repeat: reading and setting
touch the first of them, removing touches all.

Main definitions:

- `Headers.get?`, `Headers.contains`: the first value of a name.
- `Headers.set`, `Headers.add`, `Headers.remove`: the three updates.
-/

namespace ApiGateway
namespace Http

/-- Header entries in the order in which they were written. -/
abbrev Headers := List (Bytes × Bytes)

namespace Headers

/-- Whether an entry carries the name, ignoring the case of letters. -/
def named (name : Bytes) (entry : Bytes × Bytes) : Bool :=
  Bytes.sameIgnoringCase entry.1 name

/-- The value of the first entry of that name. -/
def get? (headers : Headers) (name : Bytes) : Option Bytes :=
  (headers.find? (named name)).map Prod.snd

/-- Whether some entry carries the name. -/
def contains (headers : Headers) (name : Bytes) : Bool :=
  (headers.get? name).isSome

/-- Appends an entry. -/
def add (headers : Headers) (name value : Bytes) : Headers :=
  headers ++ [(name, value)]

/-- Replaces the value of the first entry of that name, or appends an entry. -/
def set : Headers → Bytes → Bytes → Headers
  | [], name, value => [(name, value)]
  | entry :: rest, name, value =>
    if named name entry then
      (entry.1, value) :: rest
    else
      entry :: set rest name value

/-- Drops every entry of that name. -/
def remove (headers : Headers) (name : Bytes) : Headers :=
  headers.filter fun entry => !named name entry

@[simp]
theorem get?_nil (name : Bytes) : get? [] name = none :=
  rfl

/-- A name without entry is set by appending it. -/
theorem set_eq_add_of_contains_eq_false {headers : Headers} {name : Bytes}
    (h : headers.contains name = false) (value : Bytes) :
    headers.set name value = headers.add name value := by
  induction headers with
  | nil => rfl
  | cons entry rest ih =>
    simp only [contains, get?, List.find?_cons] at h ih
    cases hn : named name entry with
    | true => simp [hn] at h
    | false =>
      rw [hn] at h
      simp [set, hn, add, ih h]

end Headers

end Http
end ApiGateway
