import ApiGateway.Bytes
import ApiGateway.Decimal.Binary64

/-!
# Shortest decimal texts

The real numbers that round to a given binary number form an interval around it.
The shortest decimal of the number is the coarsest decimal in that interval, and
of two such decimals the nearer one.  It is written in positional or in
scientific notation, whichever text is shorter, positional on a tie.

Main definitions:

- `Shortest.Interval`: the interval of a finite number, in quarters of its last
  place.
- `Shortest.decimal`: the significant digits and the exponent of the shortest
  decimal.
- `Shortest.text`: the written number.
-/

namespace ApiGateway
namespace Shortest

/-- A non-negative decimal number, `digits * 10 ^ exponent`. -/
structure Decimal where
  digits : Nat
  exponent : Int
deriving DecidableEq, Repr

/-- The reals that round to a number, counted in units of `2 ^ scale`. -/
structure Interval where
  lower : Nat
  middle : Nat
  upper : Nat
  /-- Whether the two ends round to the number as well. -/
  closed : Bool
  scale : Int
deriving DecidableEq, Repr

/-- The rounding interval of a finite number; below a power of two it is half as wide. -/
def interval (x : Binary64) : Interval where
  lower := 4 * x.significand - (if x.fraction = 0 ∧ 1 < x.exponentField then 1 else 2)
  middle := 4 * x.significand
  upper := 4 * x.significand + 2
  closed := x.significand % 2 == 0
  scale := x.scale - 2

namespace Interval

/-! ## Decimal grids

The grid of exponent `t` holds the multiples of `10 ^ t`.  Comparing a multiple
with a point of the interval is exact after both are multiplied by the positive
denominators, so that one unit weighs `unit t` and one grid step weighs `step t`.
-/

/-- The weight of one unit of the interval beside the grid of exponent `t`. -/
def unit (i : Interval) (t : Int) : Nat :=
  Nat.pow 2 i.scale.toNat * Nat.pow 10 (-t).toNat

/-- The weight of one step of the grid of exponent `t`. -/
def step (i : Interval) (t : Int) : Nat :=
  Nat.pow 2 (-i.scale).toNat * Nat.pow 10 t.toNat

/-- Whether `n * 10 ^ t` lies in the interval. -/
def holds (i : Interval) (t : Int) (n : Nat) : Bool :=
  let point := n * i.step t
  if i.closed then
    i.lower * i.unit t ≤ point && point ≤ i.upper * i.unit t
  else
    i.lower * i.unit t < point && point < i.upper * i.unit t

/-- The multiple of `10 ^ t` just at or below the middle. -/
def floor (i : Interval) (t : Int) : Nat :=
  i.middle * i.unit t / i.step t

/-- The nearer of the two grid neighbours of the middle, an even one on a tie. -/
def nearer (i : Interval) (t : Int) : Nat :=
  let below := i.floor t
  let excess := i.middle * i.unit t - below * i.step t
  if 2 * excess < i.step t then below
  else if i.step t < 2 * excess then below + 1
  else if below % 2 = 0 then below
  else below + 1

/-- A grid point in the interval, the nearer neighbour of the middle if both are inside. -/
def pick? (i : Interval) (t : Int) : Option Decimal :=
  let below := i.floor t
  match i.holds t below, i.holds t (below + 1) with
  | true, true => some ⟨i.nearer t, t⟩
  | true, false => some ⟨below, t⟩
  | false, true => some ⟨below + 1, t⟩
  | false, false => none

/-- The exponent of the leading decimal digit of the middle. -/
def leadingExponent (i : Interval) : Int :=
  let num := i.middle * i.unit 0
  let den := i.step 0
  if den ≤ num then
    ((Bytes.ofNat (num / den)).length : Int) - 1
  else
    let places := (Bytes.ofNat (den / num)).length
    if den ≤ num * Nat.pow 10 (places - 1) then 1 - (places : Int) else -(places : Int)

/-- The first hit on ever finer grids, the middle cut to the finest one if there is none. -/
def search (i : Interval) : Nat → Int → Decimal
  | 0, t => ⟨i.floor t, t⟩
  | finer + 1, t =>
    match i.pick? t with
    | some d => d
    | none => i.search finer (t - 1)

end Interval

/-- Moves the trailing zeros of the digits into the exponent. -/
def stripZeros : Nat → Decimal → Decimal
  | 0, d => d
  | fuel + 1, d =>
    if d.digits % 10 = 0 ∧ d.digits ≠ 0 then
      stripZeros fuel ⟨d.digits / 10, d.exponent + 1⟩
    else
      d

/-- The shortest decimal that rounds to a finite positive number. -/
def decimal (x : Binary64) : Decimal :=
  let i := interval x
  stripZeros 20 (i.search 17 i.leadingExponent)

/-! ## Notation -/

/-- The exact integer part of a finite magnitude. -/
def wholePart (x : Binary64) : Nat :=
  let i := interval x
  i.middle * i.unit 0 / i.step 0

/-- Positional notation; a whole number is written with its exact value. -/
def positional (x : Binary64) (d : Decimal) : Bytes :=
  let digits := Bytes.ofNat d.digits
  if 0 ≤ d.exponent then
    Bytes.ofNat (wholePart x)
  else
    let places := (-d.exponent).toNat
    if places < digits.length then
      digits.take (digits.length - places) ++ 46 :: digits.drop (digits.length - places)
    else
      48 :: 46 :: (List.replicate (places - digits.length) 48 ++ digits)

/-- A signed exponent of at least two digits. -/
def exponentText (e : Int) : Bytes :=
  let digits := Bytes.ofNat e.natAbs
  (if e < 0 then 45 else 43) :: (if digits.length < 2 then 48 :: digits else digits)

/-- Scientific notation, with a point only if there is more than one digit. -/
def scientific (d : Decimal) : Bytes :=
  let digits := Bytes.ofNat d.digits
  let mantissa :=
    match digits with
    | first :: second :: rest => first :: 46 :: second :: rest
    | short => short
  mantissa ++ 101 :: exponentText (d.exponent + digits.length - 1)

/-- The text of a finite magnitude. -/
def magnitudeText (x : Binary64) : Bytes :=
  if x.magnitude = 0 then
    [48]
  else
    let d := decimal x
    let plain := positional x d
    let short := scientific d
    if plain.length ≤ short.length then plain else short

/-- The text of a number, nothing for infinities and NaN. -/
def text (x : Binary64) : Option Bytes :=
  if x.isFinite then
    some (if x.isNegative then 45 :: magnitudeText x else magnitudeText x)
  else
    none

end Shortest
end ApiGateway
