import ApiGateway.Json.Document

/-!
# Numerals

A numeral of the JSON grammar has an optional minus sign, a whole part without leading
zeros, and optionally a fraction and an exponent.  Its reader takes the parts one after
another and stops before the first byte that belongs to none.

Main definitions:

- `Numeral`, `Numeral.text`, `Numeral.WellFormed`: numerals by the grammar.
- `Numeral.document`: the document that a numeral stands for.
- `readNumeral`: the reader.

Main results:

- `readNumeral_sound`, `readNumeral_complete`: the reader reads the numerals of the grammar.
- `Numeral.document_ofInt`: decimal numerals of 64-bit integers are read back.
-/

namespace ApiGateway

/-! ## Decimal digits -/

/-- A run of decimal digits that is not empty. -/
def IsDigits (s : Bytes) : Prop :=
  s ≠ [] ∧ ∀ c ∈ s, Bytes.isDigit c = true

namespace Bytes

/-- A run of a class is cut off where no byte of the class follows. -/
theorem cut_at_class {inClass : UInt8 → Bool} {run rest : Bytes}
    (hrun : ∀ c ∈ run, inClass c = true) (hrest : ∀ c, rest.head? = some c → inClass c = false) :
    (run ++ rest).takeWhile inClass = run ∧ (run ++ rest).dropWhile inClass = rest := by
  rw [List.takeWhile_append_of_pos hrun, List.dropWhile_append_of_pos hrun]
  cases rest with
  | nil => exact ⟨List.append_nil run, rfl⟩
  | cons c rest =>
      have hc := hrest c rfl
      simp [hc]

/-- What is left after dropping a class does not start with a byte of it. -/
theorem head?_dropWhile {inClass : UInt8 → Bool} {s : Bytes} {c : UInt8}
    (h : (s.dropWhile inClass).head? = some c) : inClass c = false := by
  have hnot := List.head?_dropWhile_not inClass s
  rw [h] at hnot
  exact hnot

/-- The digits of a number do not depend on a bound that is large enough. -/
theorem digitsWithin_eq {f g n : Nat} (hf : n < f) (hg : n < g) :
    digitsWithin f n = digitsWithin g n := by
  induction f generalizing g n with
  | zero => omega
  | succ f ih =>
      cases g with
      | zero => omega
      | succ g =>
          rw [digitsWithin, digitsWithin]
          by_cases h : n < 10
          · rw [if_pos h, if_pos h]
          · have hrest : digitsWithin f (n / 10) = digitsWithin g (n / 10) :=
              ih (by omega) (by omega)
            rw [if_neg h, if_neg h, hrest]

/-- A number below ten is one digit. -/
theorem ofNat_of_lt {n : Nat} (h : n < 10) : ofNat n = [48 + UInt8.ofNat n] := by
  rw [ofNat, digitsWithin, if_pos h]

/-- The last digit of a larger number follows the others. -/
theorem ofNat_of_ge {n : Nat} (h : 10 ≤ n) :
    ofNat n = ofNat (n / 10) ++ [48 + UInt8.ofNat (n % 10)] := by
  rw [ofNat, digitsWithin, if_neg (by omega), ofNat]
  congr 1
  exact digitsWithin_eq (by omega) (by omega)

/-- The value of a digit. -/
theorem toNat_digit {n : Nat} (h : n < 10) : (48 + UInt8.ofNat n).toNat = 48 + n := by
  rw [UInt8.toNat_add, UInt8.toNat_ofNat']
  change (48 + n % 256) % 256 = 48 + n
  omega

/-- A digit is a digit. -/
theorem isDigit_digit {n : Nat} (h : n < 10) : isDigit (48 + UInt8.ofNat n) = true := by
  have hvalue := toNat_digit h
  rw [isDigit, Bool.and_eq_true, decide_eq_true_eq, decide_eq_true_eq, UInt8.le_iff_toNat_le,
    UInt8.le_iff_toNat_le, hvalue]
  change 48 ≤ 48 + n ∧ 48 + n ≤ 57
  omega

/-- A decimal numeral is a run of digits. -/
theorem isDigits_ofNat (n : Nat) : IsDigits (ofNat n) := by
  induction n using Nat.strongRecOn with
  | ind n ih =>
      by_cases h : n < 10
      · rw [ofNat_of_lt h]
        refine ⟨List.cons_ne_nil _ _, ?_⟩
        intro c hc
        rw [List.mem_singleton.1 hc]
        exact isDigit_digit h
      · have hdigits := ih (n / 10) (by omega)
        rw [ofNat_of_ge (by omega)]
        refine ⟨List.append_ne_nil_of_left_ne_nil hdigits.1 _, ?_⟩
        intro c hc
        rcases List.mem_append.1 hc with hc | hc
        · exact hdigits.2 c hc
        · rw [List.mem_singleton.1 hc]
          exact isDigit_digit (Nat.mod_lt n (by omega))

/-- The first digit of a positive number is not zero. -/
theorem head?_ofNat {n : Nat} (h : 0 < n) : (ofNat n).head? ≠ some 48 := by
  induction n using Nat.strongRecOn with
  | ind n ih =>
      by_cases hlt : n < 10
      · rw [ofNat_of_lt hlt, List.head?_cons, ne_eq, Option.some.injEq]
        intro hzero
        have hvalue := toNat_digit hlt
        rw [hzero] at hvalue
        change 48 = 48 + n at hvalue
        omega
      · have hfirst := ih (n / 10) (by omega) (by omega)
        rw [ofNat_of_ge (by omega)]
        cases hrest : ofNat (n / 10) with
        | nil => exact absurd hrest (isDigits_ofNat _).1
        | cons c rest =>
            rw [hrest] at hfirst
            exact hfirst

/-- The value of digits, from a value of the digits before them. -/
def valueFrom (start : Nat) (s : Bytes) : Nat :=
  s.foldl (fun n c => 10 * n + (c.toNat - 48)) start

/-- The value of a decimal numeral. -/
theorem valueFrom_ofNat (n : Nat) : valueFrom 0 (ofNat n) = n := by
  induction n using Nat.strongRecOn with
  | ind n ih =>
      by_cases h : n < 10
      · rw [ofNat_of_lt h]
        change 10 * 0 + ((48 + UInt8.ofNat n).toNat - 48) = n
        rw [toNat_digit h]
        omega
      · have hrest := ih (n / 10) (by omega)
        unfold valueFrom at hrest
        rw [ofNat_of_ge (by omega), valueFrom, List.foldl_append, hrest]
        change 10 * (n / 10) + ((48 + UInt8.ofNat (n % 10)).toNat - 48) = n
        rw [toNat_digit (Nat.mod_lt n (by omega))]
        omega

/-- A decimal numeral is read back. -/
theorem toNat?_ofNat (n : Nat) : toNat? (ofNat n) = some n := by
  have hdigits := isDigits_ofNat n
  have hall : (ofNat n).all isDigit = true := List.all_eq_true.2 hdigits.2
  have hempty : (ofNat n).isEmpty = false := List.isEmpty_eq_false_iff.2 hdigits.1
  rw [toNat?, hall, hempty, if_neg (by decide)]
  exact congrArg some (valueFrom_ofNat n)

end Bytes

namespace Json

/-! ## Numerals of the grammar -/

/-- The exponent of a numeral: a marker of either case, possibly a sign, and digits. -/
structure Exponent where
  marker : UInt8
  sign : Option UInt8
  digits : Bytes

namespace Exponent

/-- The text of an exponent. -/
def text (e : Exponent) : Bytes :=
  e.marker :: (e.sign.toList ++ e.digits)

/-- An exponent of the grammar. -/
structure WellFormed (e : Exponent) : Prop where
  marker : e.marker = 101 ∨ e.marker = 69
  sign : ∀ c, e.sign = some c → c = 43 ∨ c = 45
  digits : IsDigits e.digits

end Exponent

/-- A numeral with its parts. -/
structure Numeral where
  negative : Bool
  whole : Bytes
  fraction : Option Bytes
  exponent : Option Exponent

namespace Numeral

/-- The text of a minus sign, if there is one. -/
def signText (negative : Bool) : Bytes :=
  if negative then [45] else []

/-- The text of a fraction with its point, if there is one. -/
def fractionText (fraction : Option Bytes) : Bytes :=
  fraction.elim [] fun digits => 46 :: digits

/-- The text of an exponent, if there is one. -/
def exponentText (exponent : Option Exponent) : Bytes :=
  exponent.elim [] Exponent.text

/-- The text of a numeral. -/
def text (n : Numeral) : Bytes :=
  signText n.negative ++ (n.whole ++ (fractionText n.fraction ++ exponentText n.exponent))

/-- A numeral of the grammar. -/
structure WellFormed (n : Numeral) : Prop where
  whole : IsDigits n.whole
  /-- Only the whole part zero starts with a zero. -/
  leading : n.whole.head? = some 48 → n.whole = [48]
  fraction : ∀ digits, n.fraction = some digits → IsDigits digits
  exponent : ∀ e, n.exponent = some e → e.WellFormed

/-- The value of a numeral without fraction and exponent. -/
def toInt? (n : Numeral) : Option Int :=
  match n.fraction, n.exponent with
  | none, none =>
    (Bytes.toNat? n.whole).map fun (value : Nat) =>
      if n.negative then -(value : Int) else (value : Int)
  | _, _ => none

/--
The document of a numeral: an integer if it has neither fraction nor exponent and fits into 64
bits, and otherwise a number, by any reading of numerals as numbers.
-/
def document (real : Numeral → Binary64) (n : Numeral) : Document :=
  match n.toInt? with
  | some i =>
    if Int64.minValue.toInt ≤ i ∧ i ≤ Int64.maxValue.toInt then .integer (Int64.ofInt i)
    else .number (real n)
  | none => .number (real n)

/-- The numeral of an integer. -/
def ofInt (i : Int) : Numeral where
  negative := i < 0
  whole := Bytes.ofNat i.natAbs
  fraction := none
  exponent := none

/-- The numeral of an integer is its decimal text. -/
theorem text_ofInt (i : Int) : (ofInt i).text = Bytes.ofInt i := by
  unfold text ofInt Bytes.ofInt signText fractionText exponentText
  by_cases h : i < 0
  · simp [h]
  · simp [h]

/-- The numeral of an integer is one of the grammar. -/
theorem wellFormed_ofInt (i : Int) : (ofInt i).WellFormed where
  whole := Bytes.isDigits_ofNat _
  leading := by
    intro hzero
    by_cases h : i.natAbs = 0
    · change Bytes.ofNat i.natAbs = [48]
      rw [h]
      rfl
    · exact absurd hzero (Bytes.head?_ofNat (Nat.pos_of_ne_zero h))
  fraction := nofun
  exponent := nofun

/-- The numeral of an integer has its value. -/
theorem toInt?_ofInt (i : Int) : (ofInt i).toInt? = some i := by
  have hvalue : (if decide (i < 0) = true then -(i.natAbs : Int) else (i.natAbs : Int)) = i := by
    by_cases h : i < 0
    · rw [if_pos (decide_eq_true h)]
      omega
    · rw [if_neg (by simpa using h)]
      omega
  unfold toInt? ofInt
  dsimp only
  rw [Bytes.toNat?_ofNat, Option.map_some, hvalue]

/-- The numeral of a 64-bit integer stands for that integer. -/
theorem document_ofInt (real : Numeral → Binary64) (i : Int64) :
    (ofInt i.toInt).document real = .integer i := by
  have hrange : Int64.minValue.toInt ≤ i.toInt ∧ i.toInt ≤ Int64.maxValue.toInt :=
    ⟨Int64.minValue_le_toInt i, Int64.toInt_le i⟩
  rw [document, toInt?_ofInt]
  dsimp only
  rw [if_pos hrange, Int64.ofInt_toInt]

end Numeral

/-! ## Reading numerals -/

/-- Reads a run of digits as far as it goes. -/
def readDigits (text : Bytes) : Option (Bytes × Bytes) :=
  if (text.takeWhile Bytes.isDigit).isEmpty then
    none
  else
    some (text.takeWhile Bytes.isDigit, text.dropWhile Bytes.isDigit)

/-- Reads a fraction, if there is a point. -/
def readFraction (text : Bytes) : Option (Option Bytes × Bytes) :=
  if text.head? = some 46 then
    (readDigits text.tail).map fun found => (some found.1, found.2)
  else
    some (none, text)

/-- Reads a sign of either kind, if there is one. -/
def readSign (text : Bytes) : Option UInt8 × Bytes :=
  if text.head? = some 43 ∨ text.head? = some 45 then (text.head?, text.tail) else (none, text)

/-- Reads an exponent, if there is a marker. -/
def readExponent : Bytes → Option (Option Exponent × Bytes)
  | [] => some (none, [])
  | c :: rest =>
    if c = 101 ∨ c = 69 then
      (readDigits (readSign rest).2).map fun found =>
        (some ⟨c, (readSign rest).1, found.1⟩, found.2)
    else
      some (none, c :: rest)

/-- Reads the whole part, which has no leading zeros. -/
def readWhole (text : Bytes) : Option (Bytes × Bytes) :=
  (readDigits text).filter fun found => found.1.head? != some 48 || found.1 == [48]

/-- Reads a numeral as far as it goes. -/
def readNumeral (text : Bytes) : Option (Numeral × Bytes) := do
  let negative := text.head? == some 45
  let (whole, rest) ← readWhole (if negative then text.tail else text)
  let (fraction, rest) ← readFraction rest
  let (exponent, rest) ← readExponent rest
  return (⟨negative, whole, fraction, exponent⟩, rest)

/-- No byte of a numeral follows. -/
def EndsNumeral (rest : Bytes) : Prop :=
  ∀ c, rest.head? = some c → Bytes.isDigit c = false ∧ c ≠ 46 ∧ c ≠ 101 ∧ c ≠ 69

/-- A run of digits is read as far as it goes. -/
theorem readDigits_eq_some_iff {text digits rest : Bytes} :
    readDigits text = some (digits, rest) ↔
      IsDigits digits ∧ text = digits ++ rest ∧
        ∀ c, rest.head? = some c → Bytes.isDigit c = false := by
  unfold readDigits
  constructor
  · intro h
    split at h
    · cases h
    · next hne =>
        cases h
        refine ⟨⟨?_, ?_⟩, List.takeWhile_append_dropWhile.symm, ?_⟩
        · rintro hnil
          rw [hnil] at hne
          exact hne rfl
        · exact List.all_eq_true.1 List.all_takeWhile
        · exact fun c hc => Bytes.head?_dropWhile hc
  · rintro ⟨⟨hne, hdigits⟩, rfl, hrest⟩
    rcases Bytes.cut_at_class hdigits hrest with ⟨htake, hdrop⟩
    rw [htake, hdrop, if_neg (by simpa using hne)]

/-- A fraction that has been read stands in front of the rest. -/
theorem readFraction_sound {text rest : Bytes} {fraction : Option Bytes}
    (h : readFraction text = some (fraction, rest)) :
    text = Numeral.fractionText fraction ++ rest ∧
      ∀ digits, fraction = some digits → IsDigits digits := by
  unfold readFraction at h
  by_cases hpoint : text.head? = some 46
  · rw [if_pos hpoint, Option.map_eq_some_iff] at h
    rcases h with ⟨found, hfound, hpair⟩
    rcases List.head?_eq_some_iff.1 hpoint with ⟨tail, rfl⟩
    cases hpair
    rcases readDigits_eq_some_iff.1 hfound with ⟨hdigits, htail, -⟩
    refine ⟨congrArg (List.cons 46) htail, ?_⟩
    rintro digits ⟨⟩
    exact hdigits
  · rw [if_neg hpoint] at h
    cases h
    exact ⟨rfl, nofun⟩

/-- A fraction is read if no digit and no point follows it. -/
theorem readFraction_complete {fraction : Option Bytes} {rest : Bytes}
    (hfraction : ∀ digits, fraction = some digits → IsDigits digits)
    (hrest : ∀ c, rest.head? = some c → Bytes.isDigit c = false ∧ c ≠ 46) :
    readFraction (Numeral.fractionText fraction ++ rest) = some (fraction, rest) := by
  unfold readFraction
  cases fraction with
  | none =>
      have hpoint : rest.head? ≠ some 46 := fun h => (hrest 46 h).2 rfl
      exact if_neg hpoint
  | some digits =>
      have hread := readDigits_eq_some_iff.2
        ⟨hfraction digits rfl, rfl, fun c hc => (hrest c hc).1⟩
      change Option.map _ (readDigits (digits ++ rest)) = _
      rw [hread]
      rfl

/-- A sign that has been read stands in front of the rest. -/
theorem readSign_sound (text : Bytes) :
    text = (readSign text).1.toList ++ (readSign text).2 ∧
      ∀ c, (readSign text).1 = some c → c = 43 ∨ c = 45 := by
  unfold readSign
  by_cases hsign : text.head? = some 43 ∨ text.head? = some 45
  · rw [if_pos hsign]
    cases text with
    | nil => simp at hsign
    | cons c rest =>
        refine ⟨rfl, ?_⟩
        rintro _ ⟨⟩
        simpa using hsign
  · rw [if_neg hsign]
    exact ⟨rfl, nofun⟩

/-- A sign is read in front of digits. -/
theorem readSign_complete {sign : Option UInt8} {digits : Bytes}
    (hsign : ∀ c, sign = some c → c = 43 ∨ c = 45) (hdigits : IsDigits digits) (rest : Bytes) :
    readSign (sign.toList ++ (digits ++ rest)) = (sign, digits ++ rest) := by
  unfold readSign
  cases sign with
  | none =>
      rcases hdigits with ⟨hne, hall⟩
      cases digits with
      | nil => exact absurd rfl hne
      | cons c digits =>
          have hdigit := hall c List.mem_cons_self
          have hfirst : ¬((c :: (digits ++ rest)).head? = some 43 ∨
              (c :: (digits ++ rest)).head? = some 45) := by
            rintro (h | h)
            · cases h
              cases hdigit
            · cases h
              cases hdigit
          exact if_neg hfirst
  | some c =>
      refine if_pos ?_
      rcases hsign c rfl with rfl | rfl
      · exact .inl rfl
      · exact .inr rfl

/-- An exponent that has been read stands in front of the rest. -/
theorem readExponent_sound {text rest : Bytes} {exponent : Option Exponent}
    (h : readExponent text = some (exponent, rest)) :
    text = Numeral.exponentText exponent ++ rest ∧ ∀ e, exponent = some e → e.WellFormed := by
  cases text with
  | nil =>
      cases h
      exact ⟨rfl, nofun⟩
  | cons c tail =>
      rw [readExponent] at h
      by_cases hmarker : c = 101 ∨ c = 69
      · rw [if_pos hmarker, Option.map_eq_some_iff] at h
        rcases h with ⟨found, hfound, hpair⟩
        cases hpair
        rcases readSign_sound tail with ⟨htail, hsign⟩
        rcases readDigits_eq_some_iff.1 hfound with ⟨hdigits, hrest, -⟩
        constructor
        · change c :: tail = c :: (((readSign tail).1.toList ++ found.1) ++ found.2)
          rw [List.append_assoc, ← hrest, ← htail]
        · rintro e ⟨⟩
          exact ⟨hmarker, hsign, hdigits⟩
      · rw [if_neg hmarker] at h
        cases h
        exact ⟨rfl, nofun⟩

/-- An exponent is read if nothing of a numeral follows it. -/
theorem readExponent_complete {exponent : Option Exponent} {rest : Bytes}
    (hexponent : ∀ e, exponent = some e → e.WellFormed) (hrest : EndsNumeral rest) :
    readExponent (Numeral.exponentText exponent ++ rest) = some (exponent, rest) := by
  cases exponent with
  | none =>
      cases rest with
      | nil => rfl
      | cons c rest =>
          rcases hrest c rfl with ⟨-, -, hlower, hupper⟩
          have hmarker : ¬(c = 101 ∨ c = 69) := by
            rintro (h | h)
            · exact hlower h
            · exact hupper h
          exact if_neg hmarker
  | some e =>
      rcases hexponent e rfl with ⟨hmarker, hsign, hdigits⟩
      have hread := readDigits_eq_some_iff.2 ⟨hdigits, rfl, fun c hc => (hrest c hc).1⟩
      change readExponent (e.marker :: ((e.sign.toList ++ e.digits) ++ rest)) = _
      rw [readExponent, if_pos hmarker, List.append_assoc, readSign_complete hsign hdigits, hread]
      rfl

/-- A whole part that has been read stands in front of the rest. -/
theorem readWhole_eq_some_iff {text whole rest : Bytes} :
    readWhole text = some (whole, rest) ↔
      IsDigits whole ∧ (whole.head? = some 48 → whole = [48]) ∧ text = whole ++ rest ∧
        ∀ c, rest.head? = some c → Bytes.isDigit c = false := by
  rw [readWhole, Option.filter_eq_some_iff, readDigits_eq_some_iff]
  have hleading : (whole.head? != some 48 || whole == [48]) = true ↔
      (whole.head? = some 48 → whole = [48]) := by
    by_cases hzero : whole.head? = some 48
    · simp [hzero]
    · simp [hzero]
  rw [hleading]
  constructor
  · rintro ⟨⟨hdigits, htext, hrest⟩, hzero⟩
    exact ⟨hdigits, hzero, htext, hrest⟩
  · rintro ⟨hdigits, hzero, htext, hrest⟩
    exact ⟨⟨hdigits, htext, hrest⟩, hzero⟩

/-- A numeral that has been read is one of the grammar and stands in front of the rest. -/
theorem readNumeral_sound {text rest : Bytes} {n : Numeral}
    (h : readNumeral text = some (n, rest)) : text = n.text ++ rest ∧ n.WellFormed := by
  unfold readNumeral at h
  rcases Option.bind_eq_some_iff.1 h with ⟨⟨whole, afterWhole⟩, hwhole, h⟩
  rcases Option.bind_eq_some_iff.1 h with ⟨⟨fraction, afterFraction⟩, hfraction, h⟩
  rcases Option.bind_eq_some_iff.1 h with ⟨⟨exponent, afterExponent⟩, hexponent, h⟩
  cases h
  rcases readWhole_eq_some_iff.1 hwhole with ⟨hdigits, hleading, htext, -⟩
  rcases readFraction_sound hfraction with ⟨rfl, hfractionDigits⟩
  rcases readExponent_sound hexponent with ⟨rfl, hexponentOk⟩
  refine ⟨?_, hdigits, hleading, hfractionDigits, hexponentOk⟩
  unfold Numeral.text
  rw [List.append_assoc, List.append_assoc, List.append_assoc, ← htext]
  by_cases hminus : text.head? = some 45
  · rcases List.head?_eq_some_iff.1 hminus with ⟨tail, rfl⟩
    rfl
  · simp [hminus, Numeral.signText]

/-- An exponent starts with its marker. -/
theorem head?_exponentText {exponent : Option Exponent} {rest : Bytes}
    (hexponent : ∀ e, exponent = some e → e.WellFormed) (hrest : EndsNumeral rest) (c : UInt8)
    (hc : (Numeral.exponentText exponent ++ rest).head? = some c) :
    Bytes.isDigit c = false ∧ c ≠ 46 := by
  cases exponent with
  | none => exact ⟨(hrest c hc).1, (hrest c hc).2.1⟩
  | some e =>
      cases hc
      rcases (hexponent e rfl).marker with hmarker | hmarker
      · rw [hmarker]
        decide
      · rw [hmarker]
        decide

/-- A fraction starts with its point. -/
theorem head?_fractionText (fraction : Option Bytes) {rest : Bytes}
    (hrest : ∀ c, rest.head? = some c → Bytes.isDigit c = false) (c : UInt8)
    (hc : (Numeral.fractionText fraction ++ rest).head? = some c) : Bytes.isDigit c = false := by
  cases fraction with
  | none => exact hrest c hc
  | some digits =>
      cases hc
      rfl

/-- The minus sign of a numeral is seen at its first byte. -/
theorem head?_signText (negative : Bool) {whole : Bytes} (hwhole : IsDigits whole)
    (rest : Bytes) :
    ((Numeral.signText negative ++ (whole ++ rest)).head? == some 45) = negative := by
  cases negative with
  | true => rfl
  | false =>
      rcases hwhole with ⟨hne, hall⟩
      cases whole with
      | nil => exact absurd rfl hne
      | cons c whole =>
          have hdigit := hall c List.mem_cons_self
          rw [beq_eq_false_iff_ne]
          rintro ⟨⟩
          cases hdigit

/-- A numeral starts with a minus sign or a digit. -/
theorem Numeral.exists_cons_of_wellFormed {n : Numeral} (h : n.WellFormed) :
    ∃ c rest, n.text = c :: rest ∧ (c = 45 ∨ Bytes.isDigit c = true) := by
  rcases n with ⟨negative, whole, fraction, exponent⟩
  cases negative with
  | true => exact ⟨45, _, rfl, .inl rfl⟩
  | false =>
      rcases h.whole with ⟨hne, hall⟩
      dsimp only at hne hall
      cases whole with
      | nil => exact absurd rfl hne
      | cons c whole => exact ⟨c, _, rfl, .inr (hall c List.mem_cons_self)⟩

/-- A numeral of the grammar is read if nothing of a numeral follows it. -/
theorem readNumeral_complete {n : Numeral} (h : n.WellFormed) {rest : Bytes}
    (hrest : EndsNumeral rest) : readNumeral (n.text ++ rest) = some (n, rest) := by
  rcases n with ⟨negative, whole, fraction, exponent⟩
  have hafterFraction := head?_exponentText h.exponent hrest
  have hexponent := readExponent_complete h.exponent hrest
  have hfraction := readFraction_complete h.fraction hafterFraction
  have hafterWhole := head?_fractionText fraction fun c hc => (hafterFraction c hc).1
  have htext : Numeral.text ⟨negative, whole, fraction, exponent⟩ ++ rest =
      Numeral.signText negative ++ (whole ++
        (Numeral.fractionText fraction ++ (Numeral.exponentText exponent ++ rest))) := by
    simp only [Numeral.text, List.append_assoc]
  rw [htext]
  dsimp only at hfraction hexponent hafterWhole
  generalize Numeral.fractionText fraction ++ (Numeral.exponentText exponent ++ rest) = after
    at hfraction hafterWhole ⊢
  have hwhole := readWhole_eq_some_iff.2 ⟨h.whole, h.leading, rfl, hafterWhole⟩
  have hunsigned : (if negative = true then (Numeral.signText negative ++ (whole ++ after)).tail
      else Numeral.signText negative ++ (whole ++ after)) = whole ++ after := by
    cases negative <;> rfl
  unfold readNumeral
  rw [head?_signText negative h.whole after]
  simp only [hunsigned, hwhole, hfraction, hexponent, Option.bind_eq_bind, Option.bind_some]
  rfl

end Json
end ApiGateway
