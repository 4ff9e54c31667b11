/-!
# Binary64 numbers

A floating point number as its 64-bit pattern, with the readings of the pattern
that comparing, printing and converting need.  All arithmetic is on natural
numbers, so every statement about a number is a statement about its bits.

Main definitions:

- `Binary64.significand`, `Binary64.scale`: a finite magnitude is
  `significand * 2 ^ scale`.
- `Binary64.same`: numeric equality; a NaN differs from itself and the two zeros
  agree.
- `Binary64.ofInt`: the nearest number to an integer, a tie going to the even
  significand.
-/

namespace ApiGateway

/-- A double-precision number given by its bits. -/
structure Binary64 where
  bits : UInt64
deriving DecidableEq, Repr

namespace Binary64

/-- The weight of the sign bit, which is the last of 64. -/
def signWeight : Nat :=
  Nat.pow 2 63

/-- The weight of the hidden bit, and of the lowest exponent bit: the number of fractions. -/
def hiddenWeight : Nat :=
  Nat.pow 2 52

/-- Whether the sign bit is set. -/
def isNegative (x : Binary64) : Bool :=
  signWeight ≤ x.bits.toNat

/-- The bits without the sign. -/
def magnitude (x : Binary64) : Nat :=
  x.bits.toNat % signWeight

/-- The eleven exponent bits. -/
def exponentField (x : Binary64) : Nat :=
  x.magnitude / hiddenWeight

/-- The fifty-two fraction bits. -/
def fraction (x : Binary64) : Nat :=
  x.magnitude % hiddenWeight

/-- Neither infinite nor a NaN. -/
def isFinite (x : Binary64) : Bool :=
  x.exponentField < 2047

/-- Not a number. -/
def isNaN (x : Binary64) : Bool :=
  x.exponentField == 2047 && x.fraction != 0

/-- The integer significand of a finite number, with the hidden bit of a normal one. -/
def significand (x : Binary64) : Nat :=
  if x.exponentField = 0 then x.fraction else hiddenWeight + x.fraction

/-- The binary exponent that goes with the significand. -/
def scale (x : Binary64) : Int :=
  (max x.exponentField 1 : Nat) - 1075

/-- Numeric equality. -/
def same (x y : Binary64) : Bool :=
  !x.isNaN && !y.isNaN && (x.bits == y.bits || x.magnitude == 0 && y.magnitude == 0)

/-- The bits of the nearest number to a natural number below `2 ^ 1023`. -/
def bitsOfNat (n : Nat) : Nat :=
  if n = 0 then
    0
  else
    let top := n.log2
    if top ≤ 52 then
      (1022 + top) * hiddenWeight + n * Nat.pow 2 (52 - top)
    else
      let unit := Nat.pow 2 (top - 52)
      let kept := n / unit
      let dropped := n % unit
      let up := unit < 2 * dropped || (unit == 2 * dropped && kept % 2 == 1)
      (1022 + top) * hiddenWeight + kept + (if up then 1 else 0)

/-- The nearest number to an integer of less than 1023 bits. -/
def ofInt (i : Int) : Binary64 :=
  let magnitude := bitsOfNat i.natAbs
  ⟨UInt64.ofNat (if i < 0 then signWeight + magnitude else magnitude)⟩

/-- Zero, the default number. -/
def zero : Binary64 :=
  ⟨0⟩

instance : Inhabited Binary64 :=
  ⟨zero⟩

/-- Numeric equality is symmetric. -/
theorem same_comm (x y : Binary64) : x.same y = y.same x := by
  simp only [same]
  rw [Bool.and_comm (!x.isNaN), BEq.comm (a := x.bits), Bool.and_comm (x.magnitude == 0)]

end Binary64

end ApiGateway
