import ApiGateway.Exchange.Scope

/-!
# Call arguments

The values that a request gives to the parameters of an operation, and its body.
A name may have several values; reading a single one gives the last.

Main definitions:

- `Arguments.get?`, `Arguments.all`, `Arguments.contains`: the values of a name.
- `Arguments.getInt?`: the last value as a 64-bit integer.
-/

namespace ApiGateway

/-- Values bound for one call. -/
structure Arguments where
  scope : Scope
  values : List (Bytes × Bytes) := []
  body : Option Bytes := none
deriving DecidableEq, Repr

namespace Arguments

/-- Binds one more value. -/
def add (args : Arguments) (name value : Bytes) : Arguments :=
  { args with values := args.values ++ [(name, value)] }

/-- Binds values to one name, in order. -/
def addAll (args : Arguments) (name : Bytes) (values : List Bytes) : Arguments :=
  values.foldl (fun args value => args.add name value) args

/-- The values of a name, in order. -/
def all (args : Arguments) (name : Bytes) : List Bytes :=
  (args.values.filter fun entry => entry.1 == name).map Prod.snd

/-- The last value of a name. -/
def get? (args : Arguments) (name : Bytes) : Option Bytes :=
  (args.values.reverse.find? fun entry => entry.1 == name).map Prod.snd

/-- Whether a name has a value. -/
def contains (args : Arguments) (name : Bytes) : Bool :=
  (args.get? name).isSome

/-- The number of bound values. -/
def size (args : Arguments) : Nat :=
  args.values.length

/-- The last value of a name, if it is as a whole a decimal integer of 64 bits. -/
def getInt? (args : Arguments) (name : Bytes) : Option Int64 := do
  let text ← args.get? name
  let value ← Bytes.toInt? text
  if Int64.minValue.toInt ≤ value && value ≤ Int64.maxValue.toInt then
    some (Int64.ofInt value)
  else
    none

@[simp]
theorem values_add (args : Arguments) (name value : Bytes) :
    (args.add name value).values = args.values ++ [(name, value)] :=
  rfl

end Arguments
end ApiGateway
