import ApiGateway.Bytes

/-!
# Percent escapes

An escape is a percent sign followed by two hexadecimal digits.  Decoding
replaces each escape once and keeps everything that is not one, so malformed and
cut-off escapes survive verbatim.

Main definitions:

- `Percent.decode`: reads escapes, and `+` as a blank where that is asked for.
- `Percent.encode`: escapes every byte that is not unreserved.
-/

namespace ApiGateway
namespace Http
namespace Percent

/-- The value of a hexadecimal digit of either case. -/
def hexValue (c : UInt8) : Option UInt8 :=
  if 48 ≤ c && c ≤ 57 then some (c - 48)
  else if 97 ≤ c && c ≤ 102 then some (c - 87)
  else if 65 ≤ c && c ≤ 70 then some (c - 55)
  else none

/-- The byte written by two hexadecimal digits. -/
def hexByte (high low : UInt8) : Option UInt8 :=
  match hexValue high, hexValue low with
  | some h, some l => some (16 * h + l)
  | _, _ => none

/-- What a byte outside an escape stands for. -/
def plainByte (plusAsBlank : Bool) (c : UInt8) : UInt8 :=
  if plusAsBlank && c == 43 then 32 else c

/-- Replaces each escape by its byte, and each `+` by a blank if `plusAsBlank` is set. -/
def decode (plusAsBlank : Bool) : Bytes → Bytes
  | c :: high :: low :: rest =>
    if c = 37 then
      match hexByte high low with
      | some b => b :: decode plusAsBlank rest
      | none => c :: decode plusAsBlank (high :: low :: rest)
    else
      plainByte plusAsBlank c :: decode plusAsBlank (high :: low :: rest)
  | c :: rest => plainByte plusAsBlank c :: decode plusAsBlank rest
  | [] => []

/-! ## Writing escapes -/

/-- A byte that needs no escape: a letter, a digit, or one of `-`, `.`, `_` and `~`. -/
def isUnreserved (c : UInt8) : Bool :=
  Bytes.isLetter c || Bytes.isDigit c || c == 45 || c == 46 || c == 95 || c == 126

/-- The upper-case hexadecimal digit of a number below sixteen. -/
def hexDigit (n : UInt8) : UInt8 :=
  if n < 10 then 48 + n else 55 + n

/-- The escape of a byte. -/
def escape (c : UInt8) : Bytes :=
  [37, hexDigit (c / 16), hexDigit (c % 16)]

/-- Keeps unreserved bytes and escapes the others. -/
def encode (s : Bytes) : Bytes :=
  s.flatMap fun c => if isUnreserved c then [c] else escape c

end Percent
end Http
end ApiGateway
