import Mathlib.Data.List.Induction
import Mathlib.Data.Nat.Digits.Defs
import ApiGateway.Operation.Arguments
import ApiGateway.Proofs.Json.Numerals

/-!
# Integer arguments

An argument is read as an integer if its last value is, as a whole, a decimal numeral of a number
that 64 bits hold.  The number is found by the places of the digits, whatever their count, and
compared with the ends of the range only then.  So a number outside of the range is never taken
for another one, and leading zeros do no harm.

Main definitions:

- `Bytes.placeValue`: the number that digits stand for, by their places.
- `Bytes.IsDecimal`: decimal numerals and the numbers that they write.
- `Bytes.HasStray`: texts with a byte that no numeral has at its place.
- `Arguments.LastValue`: the last value of a name.
- `Arguments.LacksInteger`: the ways in which a name has no integer.

Main results:

- `Bytes.toInt?_eq_some_iff`: numerals are read with the numbers that they write.
- `Bytes.isDecimal_or_hasStray`: every other text is empty, a lone minus sign or has a stray byte.
- `Arguments.getInt?_eq_some_iff`, `Arguments.getInt?_eq_none_iff`: what is read from a name.
- `Arguments.reads_integers_exactly`: both together, and the numerals of all 64-bit integers.
-/

namespace ApiGateway

/-! ## Decimal numerals -/

/-- A run of digits has no minus sign in front. -/
theorem IsDigits.head?_ne_minus {s : Bytes} (h : IsDigits s) : s.head? ≠ some 45 := by
  intro hhead
  have hdigit := h.2 45 (List.mem_of_mem_head? hhead)
  cases hdigit

/-- A text that is not empty is a run of digits, or some byte is no digit. -/
theorem isDigits_or_exists {s : Bytes} (h : s ≠ []) :
    IsDigits s ∨ ∃ c ∈ s, Bytes.isDigit c = false := by
  by_cases hall : ∀ c ∈ s, Bytes.isDigit c = true
  · exact .inl ⟨h, hall⟩
  · simp only [not_forall, Bool.not_eq_true] at hall
    obtain ⟨c, hc, hdigit⟩ := hall
    exact .inr ⟨c, hc, hdigit⟩

namespace Bytes

/-- The number that decimal digits stand for: the last counts ones, the one before it tens. -/
def placeValue (digits : Bytes) : Nat :=
  Nat.ofDigits 10 (digits.reverse.map fun c => c.toNat - 48)

/-- A text writes an integer: digits, possibly behind a minus sign. -/
inductive IsDecimal : Bytes → Int → Prop where
  | natural {digits : Bytes} (h : IsDigits digits) : IsDecimal digits (placeValue digits)
  | negated {digits : Bytes} (h : IsDigits digits) : IsDecimal (45 :: digits) (-placeValue digits)

/-- Some byte is neither a digit nor a minus sign in front. -/
def HasStray (s : Bytes) : Prop :=
  ∃ before c after, s = before ++ c :: after ∧ isDigit c = false ∧ (before = [] → c ≠ 45)

/-- Adding up the digits from the left gives each of them its place. -/
theorem valueFrom_eq_placeValue (digits : Bytes) : valueFrom 0 digits = placeValue digits := by
  -- from the right, since the digit that is added up last has the lowest place
  induction digits using List.reverseRecOn with
  | nil => rfl
  | append_singleton digits c ih =>
      rw [placeValue, List.reverse_append, List.reverse_singleton, List.singleton_append,
        List.map_cons, Nat.ofDigits_cons, ← placeValue, ← ih, valueFrom, List.foldl_append,
        ← valueFrom]
      exact Nat.add_comm _ _

/-- The decimal text of a natural number stands for that number. -/
theorem placeValue_ofNat (n : Nat) : placeValue (ofNat n) = n :=
  (valueFrom_eq_placeValue (ofNat n)).symm.trans (valueFrom_ofNat n)

/-- Exactly the runs of digits are read as natural numbers. -/
theorem toNat?_eq_some_iff {s : Bytes} {n : Nat} :
    toNat? s = some n ↔ IsDigits s ∧ placeValue s = n := by
  rw [toNat?, ← valueFrom, valueFrom_eq_placeValue]
  by_cases h : IsDigits s
  · have hempty : s.isEmpty = false := List.isEmpty_eq_false_iff.2 h.1
    have hall : s.all isDigit = true := List.all_eq_true.2 h.2
    simp [hempty, hall, h]
  · have hno : (s.isEmpty || !s.all isDigit) = true := by
      simpa [IsDigits, Classical.or_iff_not_imp_left] using h
    simp [hno, h]

/-- Behind a minus sign the negated number is read. -/
theorem toInt?_minus_cons (digits : Bytes) :
    toInt? (45 :: digits) = (toNat? digits).map fun (n : Nat) => -(n : Int) := by
  rw [toInt?]
  cases toNat? digits <;> rfl

/-- Without a minus sign the number itself is read. -/
theorem toInt?_of_head?_ne {s : Bytes} (h : s.head? ≠ some 45) :
    toInt? s = (toNat? s).map fun (n : Nat) => (n : Int) := by
  unfold toInt?
  split
  next => exact absurd rfl h
  next => cases toNat? s <;> rfl

/-- Exactly the decimal numerals are read as integers. -/
theorem toInt?_eq_some_iff {s : Bytes} {i : Int} : toInt? s = some i ↔ IsDecimal s i := by
  constructor
  · intro h
    by_cases hminus : s.head? = some 45
    · obtain ⟨digits, rfl⟩ := List.head?_eq_some_iff.1 hminus
      rw [toInt?_minus_cons] at h
      obtain ⟨n, hn, rfl⟩ := Option.map_eq_some_iff.1 h
      obtain ⟨hdigits, rfl⟩ := toNat?_eq_some_iff.1 hn
      exact .negated hdigits
    · rw [toInt?_of_head?_ne hminus] at h
      obtain ⟨n, hn, rfl⟩ := Option.map_eq_some_iff.1 h
      obtain ⟨hdigits, rfl⟩ := toNat?_eq_some_iff.1 hn
      exact .natural hdigits
  · intro h
    cases h with
    | natural h =>
        rw [toInt?_of_head?_ne h.head?_ne_minus, toNat?_eq_some_iff.2 ⟨h, rfl⟩, Option.map_some]
    | negated h => rw [toInt?_minus_cons, toNat?_eq_some_iff.2 ⟨h, rfl⟩, Option.map_some]

/-- Leading zeros change nothing. -/
example : toInt? (ofString "-0012") = some (-12) := by
  decide

/-- A text writes one integer at most. -/
theorem IsDecimal.unique {s : Bytes} {i j : Int} (hi : IsDecimal s i) (hj : IsDecimal s j) :
    i = j :=
  Option.some.inj ((toInt?_eq_some_iff.2 hi).symm.trans (toInt?_eq_some_iff.2 hj))

/-- The decimal text of an integer writes that integer. -/
theorem isDecimal_ofInt (i : Int) : IsDecimal (ofInt i) i := by
  rw [ofInt]
  split
  next h =>
    have hnumeral := IsDecimal.negated (isDigits_ofNat i.natAbs)
    rwa [placeValue_ofNat, Int.ofNat_natAbs_of_nonpos (by omega), Int.neg_neg] at hnumeral
  next h =>
    have hnumeral := IsDecimal.natural (isDigits_ofNat i.natAbs)
    rwa [placeValue_ofNat, Int.natAbs_of_nonneg (by omega)] at hnumeral

/-- A text that writes no integer is empty, a lone minus sign, or has a stray byte. -/
theorem isDecimal_or_hasStray (s : Bytes) :
    (∃ i, IsDecimal s i) ∨ s = [] ∨ s = [45] ∨ HasStray s := by
  by_cases hnil : s = []
  · exact .inr (.inl hnil)
  by_cases hminus : s.head? = some 45
  · obtain ⟨digits, rfl⟩ := List.head?_eq_some_iff.1 hminus
    by_cases hnone : digits = []
    · exact .inr (.inr (.inl (congrArg _ hnone)))
    rcases isDigits_or_exists hnone with hdigits | ⟨c, hc, hdigit⟩
    · exact .inl ⟨_, .negated hdigits⟩
    · -- behind a minus sign another one is out of place as well
      obtain ⟨before, after, rfl⟩ := List.append_of_mem hc
      exact .inr (.inr (.inr ⟨45 :: before, c, after, rfl, hdigit, nofun⟩))
  · rcases isDigits_or_exists hnil with hdigits | ⟨c, hc, hdigit⟩
    · exact .inl ⟨_, .natural hdigits⟩
    · obtain ⟨before, after, rfl⟩ := List.append_of_mem hc
      refine .inr (.inr (.inr ⟨before, c, after, rfl, hdigit, ?_⟩))
      rintro rfl rfl
      exact hminus rfl

/-- A decimal numeral has no stray byte. -/
theorem IsDecimal.not_hasStray {s : Bytes} {i : Int} (h : IsDecimal s i) : ¬HasStray s := by
  rintro ⟨before, c, after, hsplit, hdigit, hfront⟩
  cases h with
  | natural h =>
      have hc := h.2 c (hsplit ▸ List.mem_append_right before List.mem_cons_self)
      rw [hdigit] at hc
      cases hc
  | negated h =>
      cases before with
      | nil => exact hfront rfl (List.cons.inj hsplit).1.symm
      | cons first rest =>
          have hc := h.2 c ((List.cons.inj hsplit).2 ▸
            List.mem_append_right rest List.mem_cons_self)
          rw [hdigit] at hc
          cases hc

/-- A decimal numeral is neither empty nor a lone minus sign. -/
theorem IsDecimal.ne_nil_and_ne_minus {s : Bytes} {i : Int} (h : IsDecimal s i) :
    s ≠ [] ∧ s ≠ [45] := by
  cases h with
  | natural h =>
      refine ⟨h.1, ?_⟩
      rintro rfl
      exact h.head?_ne_minus rfl
  | negated h =>
      exact ⟨List.cons_ne_nil _ _, fun hlone => h.1 (List.cons.inj hlone).2⟩

end Bytes

/-! ## Numbers of 64 bits -/

/-- The numbers that 64 bits hold. -/
theorem exists_int64_iff {n : Int} :
    (∃ i : Int64, i.toInt = n) ↔ -2 ^ 63 ≤ n ∧ n ≤ 2 ^ 63 - 1 := by
  constructor
  · rintro ⟨i, rfl⟩
    exact ⟨Int64.minValue_le_toInt i, Int64.toInt_le i⟩
  · rintro ⟨hleast, hgreatest⟩
    exact ⟨Int64.ofInt n, Int64.toInt_ofInt_of_le (by omega) (by omega)⟩

/-- A number is narrowed to 64 bits if they hold it, and stays the number that it is. -/
theorem narrow_eq_some_iff {n : Int} {i : Int64} :
    (if Int64.minValue.toInt ≤ n && n ≤ Int64.maxValue.toInt then some (Int64.ofInt n)
      else none) = some i ↔ i.toInt = n := by
  simp only [Bool.and_eq_true, decide_eq_true_eq]
  split
  next h =>
    have hvalue : (Int64.ofInt n).toInt = n :=
      Int64.toInt_ofInt_of_le h.1 (Int.lt_add_one_iff.2 h.2)
    rw [Option.some_inj, ← Int64.toInt_inj, hvalue, eq_comm]
  next h =>
    refine iff_of_false nofun ?_
    rintro rfl
    exact h ⟨Int64.minValue_le_toInt i, Int64.toInt_le i⟩

namespace Arguments

/-! ## Last values -/

/-- The last entry of that name has the value. -/
def LastValue (args : Arguments) (name value : Bytes) : Prop :=
  ∃ before after, args.values = before ++ (name, value) :: after ∧ ∀ entry ∈ after, entry.1 ≠ name

/-- A single value is read from the last entry of its name. -/
theorem get?_eq_some_iff {args : Arguments} {name value : Bytes} :
    args.get? name = some value ↔ args.LastValue name value := by
  rw [get?, Option.map_eq_some_iff]
  constructor
  · rintro ⟨⟨_, found⟩, hfind, rfl⟩
    rcases List.find?_eq_some_iff_append.1 hfind with ⟨hname, after, before, hsplit, hafter⟩
    obtain rfl := beq_iff_eq.1 hname
    refine ⟨before.reverse, after.reverse, ?_, fun entry hentry => ?_⟩
    · rw [← List.reverse_reverse args.values, hsplit]
      simp
    · simpa using hafter entry (List.mem_reverse.1 hentry)
  · rintro ⟨before, after, hsplit, hafter⟩
    refine ⟨(name, value), List.find?_eq_some_iff_append.2
      ⟨beq_self_eq_true name, after.reverse, before.reverse, ?_, fun entry hentry => ?_⟩, rfl⟩
    · rw [hsplit]
      simp
    · simpa using hafter entry (List.mem_reverse.1 hentry)

/-- No value is read under a name that no entry has. -/
theorem get?_eq_none_iff {args : Arguments} {name : Bytes} :
    args.get? name = none ↔ ∀ entry ∈ args.values, entry.1 ≠ name := by
  rw [get?, Option.map_eq_none_iff, List.find?_eq_none]
  simp

/-- A name has one last value. -/
theorem LastValue.unique {args : Arguments} {name value other : Bytes}
    (h : args.LastValue name value) (hother : args.LastValue name other) : value = other :=
  Option.some.inj ((get?_eq_some_iff.2 h).symm.trans (get?_eq_some_iff.2 hother))

/-- A name with a last value is bound. -/
theorem LastValue.not_unbound {args : Arguments} {name value : Bytes}
    (h : args.LastValue name value) : ¬∀ entry ∈ args.values, entry.1 ≠ name := by
  rw [← get?_eq_none_iff, get?_eq_some_iff.2 h]
  exact nofun

/-! ## Integers -/

/-- The ways in which a name has no integer of 64 bits. -/
inductive LacksInteger (args : Arguments) (name : Bytes) : Prop where
  | unbound (h : ∀ entry ∈ args.values, entry.1 ≠ name)
  | empty (h : args.LastValue name [])
  | loneMinus (h : args.LastValue name [45])
  | stray {text : Bytes} (h : args.LastValue name text) (hstray : Bytes.HasStray text)
  | outside {text : Bytes} {n : Int} (h : args.LastValue name text)
      (hdecimal : Bytes.IsDecimal text n) (hrange : n < -2 ^ 63 ∨ 2 ^ 63 - 1 < n)

/-- An integer is read if the last value writes it. -/
theorem getInt?_eq_some_iff {args : Arguments} {name : Bytes} {i : Int64} :
    args.getInt? name = some i ↔
      ∃ text, args.LastValue name text ∧ Bytes.IsDecimal text i.toInt := by
  simp only [getInt?, Option.bind_eq_bind, Option.bind_eq_some_iff, get?_eq_some_iff,
    Bytes.toInt?_eq_some_iff, narrow_eq_some_iff, exists_eq_right']

/-- No integer is read exactly in the ways in which a name has none. -/
theorem getInt?_eq_none_iff {args : Arguments} {name : Bytes} :
    args.getInt? name = none ↔ args.LacksInteger name := by
  constructor
  · intro hnone
    cases hvalue : args.get? name with
    | none => exact .unbound (get?_eq_none_iff.1 hvalue)
    | some text =>
        have hlast := get?_eq_some_iff.1 hvalue
        rcases Bytes.isDecimal_or_hasStray text with ⟨n, hdecimal⟩ | rfl | rfl | hstray
        · refine .outside hlast hdecimal ?_
          by_contra hrange
          obtain ⟨i, rfl⟩ := exists_int64_iff.2 (by omega : -2 ^ 63 ≤ n ∧ n ≤ 2 ^ 63 - 1)
          rw [getInt?_eq_some_iff.2 ⟨text, hlast, hdecimal⟩] at hnone
          cases hnone
        · exact .empty hlast
        · exact .loneMinus hlast
        · exact .stray hlast hstray
  · intro hlacks
    refine Option.eq_none_iff_forall_ne_some.2 fun i hi => ?_
    obtain ⟨text, hlast, hdecimal⟩ := getInt?_eq_some_iff.1 hi
    cases hlacks with
    | unbound h => exact hlast.not_unbound h
    | empty h => exact hdecimal.ne_nil_and_ne_minus.1 (hlast.unique h)
    | loneMinus h => exact hdecimal.ne_nil_and_ne_minus.2 (hlast.unique h)
    | stray h hstray => exact hdecimal.not_hasStray (hlast.unique h ▸ hstray)
    | outside h hother hrange =>
        have hsame := (hlast.unique h ▸ hdecimal).unique hother
        have hheld := exists_int64_iff.1 ⟨i, rfl⟩
        omega

/--
The integer of a name is the number that its last value writes as a whole, if 64 bits hold it.
There is none if the name has no value, or if the last one is empty, a lone minus sign, has a byte
that is out of place, or writes a number that is too small or too large.  The decimal text of
every 64-bit integer is read as that integer.
-/
theorem reads_integers_exactly (args : Arguments) (name : Bytes) :
    (∀ n : Int, (args.getInt? name).map Int64.toInt = some n ↔
      ∃ text, args.LastValue name text ∧ Bytes.IsDecimal text n ∧
        -2 ^ 63 ≤ n ∧ n ≤ 2 ^ 63 - 1) ∧
    (args.getInt? name = none ↔ args.LacksInteger name) ∧
    ∀ i : Int64, args.LastValue name (Bytes.ofInt i.toInt) → args.getInt? name = some i := by
  refine ⟨fun n => ?_, getInt?_eq_none_iff, fun i hlast => ?_⟩
  · rw [Option.map_eq_some_iff]
    constructor
    · rintro ⟨i, hi, rfl⟩
      obtain ⟨text, hlast, hdecimal⟩ := getInt?_eq_some_iff.1 hi
      exact ⟨text, hlast, hdecimal, exists_int64_iff.1 ⟨i, rfl⟩⟩
    · rintro ⟨text, hlast, hdecimal, hrange⟩
      obtain ⟨i, rfl⟩ := exists_int64_iff.2 hrange
      exact ⟨i, getInt?_eq_some_iff.2 ⟨text, hlast, hdecimal⟩, rfl⟩
  · exact getInt?_eq_some_iff.2 ⟨_, hlast, Bytes.isDecimal_ofInt i.toInt⟩

/-- The least integer of 64 bits is read, although 64 bits do not hold the first value. -/
theorem least_integer_is_read :
    let args : Arguments :=
      { scope := { request := {} }
        values := [(Bytes.ofString "id", Bytes.ofString "9223372036854775808"),
          (Bytes.ofString "id", Bytes.ofString "-9223372036854775808"),
          (Bytes.ofString "tag", Bytes.ofString "7")] }
    args.LastValue (Bytes.ofString "id") (Bytes.ofInt Int64.minValue.toInt) ∧
      args.getInt? (Bytes.ofString "id") = some Int64.minValue := by
  intro args
  have hlast : args.LastValue (Bytes.ofString "id") (Bytes.ofInt Int64.minValue.toInt) :=
    ⟨args.values.take 1, args.values.drop 2, by decide, by decide⟩
  exact ⟨hlast, (reads_integers_exactly args _).2.2 Int64.minValue hlast⟩

end Arguments
end ApiGateway
