import ApiGateway.Proofs.Json.Numerals
import ApiGateway.Proofs.Json.Strings

/-!
# The JSON grammar

The grammar says which texts stand for a document.  Blanks may stand around every value,
around keys, and inside empty brackets.  Numerals that are not 64-bit integers are read as
numbers in any way.

Main definitions:

- `Phrase`: values, values with the blanks around them, and members of objects.
- `Grammar`: the texts of a phrase.
-/

namespace ApiGateway
namespace Json

/-- A blank, a tab or the end of a line. -/
def isBlank (c : UInt8) : Bool :=
  c == 32 || c == 9 || c == 10 || c == 13

/-- A text of blanks only. -/
def IsBlank (s : Bytes) : Prop :=
  ∀ c ∈ s, isBlank c = true

/-- The words of the grammar with their documents. -/
def words : List (Bytes × Document) :=
  [(Bytes.ofString "null", .null), (Bytes.ofString "true", .boolean true),
    (Bytes.ofString "false", .boolean false)]

/-- The literal of a sequence of units. -/
def literal (us : List StringUnit) : Bytes :=
  34 :: (us.flatMap StringUnit.text ++ [34])

/-- What a text can stand for. -/
inductive Phrase where
  /-- A document. -/
  | value (d : Document)
  /-- A document, with blanks around its text. -/
  | element (d : Document)
  /-- A member of an object, with blanks around its parts. -/
  | member (m : Bytes × Document)

/-- The texts of a phrase, where `real` reads the numerals that are not 64-bit integers. -/
inductive Grammar (real : Numeral → Binary64) : Phrase → Bytes → Prop where
  | word {text : Bytes} {d : Document} (h : (text, d) ∈ words) : Grammar real (.value d) text
  | numeral {n : Numeral} (h : n.WellFormed) : Grammar real (.value (n.document real)) n.text
  | string {us : List StringUnit} (h : ∀ u ∈ us, u.WellFormed) :
      Grammar real (.value (.string (textOf us))) (literal us)
  | emptyArray {blank : Bytes} (h : IsBlank blank) :
      Grammar real (.value (.array [])) (91 :: (blank ++ [93]))
  | array {items : List (Document × Bytes)} (hne : items ≠ [])
      (h : ∀ item ∈ items, Grammar real (.element item.1) item.2) :
      Grammar real (.value (.array (items.map Prod.fst)))
        (91 :: ([44].intercalate (items.map Prod.snd) ++ [93]))
  | emptyObject {blank : Bytes} (h : IsBlank blank) :
      Grammar real (.value (.object [])) (123 :: (blank ++ [125]))
  | object {members : List ((Bytes × Document) × Bytes)} (hne : members ≠ [])
      (h : ∀ member ∈ members, Grammar real (.member member.1) member.2) :
      Grammar real (.value (.object (members.map Prod.fst)))
        (123 :: ([44].intercalate (members.map Prod.snd) ++ [125]))
  | element {before text after : Bytes} {d : Document} (hbefore : IsBlank before)
      (hafter : IsBlank after) (h : Grammar real (.value d) text) :
      Grammar real (.element d) (before ++ (text ++ after))
  | member {before between text : Bytes} {us : List StringUnit} {d : Document}
      (hbefore : IsBlank before) (hbetween : IsBlank between) (hkey : ∀ u ∈ us, u.WellFormed)
      (h : Grammar real (.element d) text) :
      Grammar real (.member (textOf us, d)) (before ++ (literal us ++ (between ++ 58 :: text)))

end Json
end ApiGateway
