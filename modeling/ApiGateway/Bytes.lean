/-!
# Byte strings

Every text that a gateway handles is a list of bytes: paths, header values and
bodies need not be valid UTF-8.  This module fixes the ASCII classes used
throughout, decimal numerals, and the splitting and trimming operations from
which the readers of the library are built.

Main definitions:

- `Bytes.ofString`: the UTF-8 bytes of a literal.
- `Bytes.splitOn`: the pieces between separators, never an empty list.
- `Bytes.cut`: the text before the first separator and the text after it.
- `Bytes.ofNat`, `Bytes.ofInt`: decimal numerals.
-/

namespace ApiGateway

/-- A text as the list of its bytes. -/
abbrev Bytes := List UInt8

namespace Bytes

/-- The UTF-8 bytes of a string. -/
def ofString (s : String) : Bytes :=
  s.toUTF8.data.toList

/-! ## ASCII classes -/

/-- One of the letters `A` to `Z`. -/
def isUpper (c : UInt8) : Bool :=
  65 ≤ c && c ≤ 90

/-- One of the letters `a` to `z`. -/
def isLower (c : UInt8) : Bool :=
  97 ≤ c && c ≤ 122

/-- One of the digits `0` to `9`. -/
def isDigit (c : UInt8) : Bool :=
  48 ≤ c && c ≤ 57

/-- An ASCII letter of either case. -/
def isLetter (c : UInt8) : Bool :=
  isUpper c || isLower c

/-- Maps `A` to `Z` onto `a` to `z` and keeps every other byte. -/
def lowerByte (c : UInt8) : UInt8 :=
  if isUpper c then c + 32 else c

/-- Equality up to the case of ASCII letters. -/
def sameIgnoringCase (a b : Bytes) : Bool :=
  a.map lowerByte == b.map lowerByte

/-! ## Splitting -/

/-- The pieces between the separators; there is one more piece than there are separators. -/
def splitOn (sep : UInt8) : Bytes → List Bytes
  | [] => [[]]
  | c :: rest =>
    if c = sep then
      [] :: splitOn sep rest
    else
      match splitOn sep rest with
      | [] => [[c]]
      | piece :: pieces => (c :: piece) :: pieces

/-- The text before the first separator, and the text after it if there is a separator. -/
def cut (sep : UInt8) : Bytes → Bytes × Option Bytes
  | [] => ([], none)
  | c :: rest =>
    if c = sep then
      ([], some rest)
    else
      let (before, after) := cut sep rest
      (c :: before, after)

/-- Drops the bytes of a class from both ends. -/
def trim (blank : UInt8 → Bool) (s : Bytes) : Bytes :=
  ((s.dropWhile blank).reverse.dropWhile blank).reverse

/-- Drops the bytes of a class from the end. -/
def trimEnd (blank : UInt8 → Bool) (s : Bytes) : Bytes :=
  (s.reverse.dropWhile blank).reverse

/-- Whether the text occurs somewhere inside `s`. -/
def occursIn (text : Bytes) : Bytes → Bool
  | [] => text.isEmpty
  | c :: rest => text.isPrefixOf (c :: rest) || occursIn text rest

/-- Consecutive pieces of at most `size` bytes, for a text of at most `fuel` bytes. -/
def chunksWithin (size : Nat) : Nat → Bytes → List Bytes
  | 0, _ => []
  | fuel + 1, s =>
    if s.isEmpty then [] else s.take size :: chunksWithin size fuel (s.drop size)

/-- Consecutive non-empty pieces of at most `size` bytes each. -/
def chunks (size : Nat) (s : Bytes) : List Bytes :=
  chunksWithin size s.length s

/-! ## Numerals -/

/-- The decimal digits of a number below `10 ^ fuel`. -/
def digitsWithin : Nat → Nat → Bytes
  | 0, _ => []
  | fuel + 1, n =>
    if n < 10 then
      [48 + UInt8.ofNat n]
    else
      digitsWithin fuel (n / 10) ++ [48 + UInt8.ofNat (n % 10)]

/-- The decimal numeral of a natural number, without leading zeros. -/
def ofNat (n : Nat) : Bytes :=
  digitsWithin (n + 1) n

/-- The decimal numeral of an integer, with a minus sign in front of a negative one. -/
def ofInt (i : Int) : Bytes :=
  if i < 0 then 45 :: ofNat i.natAbs else ofNat i.natAbs

/-- The value of a non-empty run of decimal digits. -/
def toNat? (s : Bytes) : Option Nat :=
  if s.isEmpty || !s.all isDigit then
    none
  else
    some (s.foldl (fun n c => 10 * n + (c.toNat - 48)) 0)

/-- The value of an optional minus sign followed by decimal digits. -/
def toInt? : Bytes → Option Int
  | 45 :: digits => (toNat? digits).map fun n => -(n : Int)
  | digits => (toNat? digits).map fun n => (n : Int)

end Bytes

end ApiGateway
