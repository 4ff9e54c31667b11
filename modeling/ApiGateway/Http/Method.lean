import ApiGateway.Bytes

/-!
# Request methods

The seven methods that a gateway can route, the unknown method that stands for
every other token, and the method sets from which an `Allow` header is written.

Main definitions:

- `Method.ofToken` and `Method.token`: reading and writing a method name.
- `MethodSet`: a set of known methods as a bit mask.
- `MethodSet.allowValue`: the members of a set in the fixed `Allow` order.
-/

namespace ApiGateway
namespace Http

/-- A request method; every token outside the seven known ones is `unknown`. -/
inductive Method where
  | get
  | post
  | put
  | delete
  | patch
  | head
  | options
  | unknown
deriving DecidableEq, Repr

namespace Method

/-- The method named by a token; names are case-sensitive. -/
def ofToken (token : Bytes) : Method :=
  if token = Bytes.ofString "GET" then .get
  else if token = Bytes.ofString "POST" then .post
  else if token = Bytes.ofString "PUT" then .put
  else if token = Bytes.ofString "DELETE" then .delete
  else if token = Bytes.ofString "PATCH" then .patch
  else if token = Bytes.ofString "HEAD" then .head
  else if token = Bytes.ofString "OPTIONS" then .options
  else .unknown

/-- The token of a method, `UNKNOWN` for the unknown one. -/
def token : Method → Bytes
  | .get => Bytes.ofString "GET"
  | .post => Bytes.ofString "POST"
  | .put => Bytes.ofString "PUT"
  | .delete => Bytes.ofString "DELETE"
  | .patch => Bytes.ofString "PATCH"
  | .head => Bytes.ofString "HEAD"
  | .options => Bytes.ofString "OPTIONS"
  | .unknown => Bytes.ofString "UNKNOWN"

/-- The position of a method in the declaration order. -/
def index : Method → Nat
  | .get => 0
  | .post => 1
  | .put => 2
  | .delete => 3
  | .patch => 4
  | .head => 5
  | .options => 6
  | .unknown => 7

/-- Reading back a written method gives the method. -/
@[simp]
theorem ofToken_token (m : Method) : ofToken m.token = m := by
  cases m <;> decide

end Method

/-! ## Sets of methods -/

/-- A set of known methods; the bit of a method is its index. -/
structure MethodSet where
  bits : UInt32
deriving DecidableEq, Repr

namespace MethodSet

/-- The set without members. -/
def empty : MethodSet :=
  ⟨0⟩

/-- The set of one method; the unknown method is in no set. -/
def singleton : Method → MethodSet
  | .get => ⟨1⟩
  | .post => ⟨2⟩
  | .put => ⟨4⟩
  | .delete => ⟨8⟩
  | .patch => ⟨16⟩
  | .head => ⟨32⟩
  | .options => ⟨64⟩
  | .unknown => ⟨0⟩

/-- The members of either set. -/
def union (a b : MethodSet) : MethodSet :=
  ⟨a.bits ||| b.bits⟩

/-- Whether a method is a member. -/
def contains (s : MethodSet) (m : Method) : Bool :=
  s.bits &&& (singleton m).bits != 0

/-- The order in which an `Allow` header lists methods. -/
def allowOrder : List Method :=
  [.get, .head, .post, .put, .delete, .patch, .options]

/-- The members in `Allow` order. -/
def toList (s : MethodSet) : List Method :=
  allowOrder.filter s.contains

/-- The value of an `Allow` header: the members in order, separated by a comma and a blank. -/
def allowValue (s : MethodSet) : Bytes :=
  (Bytes.ofString ", ").intercalate (s.toList.map Method.token)

/-- The empty set has no members. -/
@[simp]
theorem contains_empty (m : Method) : empty.contains m = false := by
  cases m <;> decide

/-- A method set of one known method has exactly that member. -/
theorem contains_singleton (m n : Method) :
    (singleton m).contains n = (m == n && m != .unknown) := by
  cases m <;> cases n <;> decide

/-- A union has the members of both sets. -/
theorem contains_union (a b : MethodSet) (m : Method) :
    (a.union b).contains m = (a.contains m || b.contains m) := by
  have distrib (x y z : UInt32) : (x ||| y) &&& z = x &&& z ||| y &&& z :=
    UInt32.toBitVec_inj.1 (by simp [BitVec.and_or_distrib_right])
  rw [contains, contains, contains, union, distrib, Bool.eq_iff_iff]
  simp only [bne_iff_ne, ne_eq, Bool.or_eq_true, UInt32.or_eq_zero_iff]
  exact Decidable.not_and_iff_or_not

end MethodSet

end Http
end ApiGateway
