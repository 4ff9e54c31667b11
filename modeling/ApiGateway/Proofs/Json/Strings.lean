import Mathlib.Tactic.SplitIfs
import ApiGateway.Http.Percent
import ApiGateway.Json.Document

/-!
# String literals

The inside of a string literal is a sequence of units: a byte that stands for itself, a
short escape, or the escape of a 16-bit code.  Bytes from 128 up stand for themselves, and
the codes are written in UTF-8, where two surrogates in order make one code point.

Main definitions:

- `StringUnit`, `StringUnit.WellFormed`: units by the grammar.
- `textOf`: the text for which units stand.
- `readUnits`: the reader of the units up to the closing quote.
- `unitsOf`: the units that the writer uses.

Main results:

- `readUnit_eq_some_iff`: the reader of a unit reads the units of the grammar.
- `readUnits_sound`, `readUnits_complete`: so does the reader of a literal.
- `flatMap_text_unitsOf`, `textOf_unitsOf`: what the writer writes stands for its text.
-/

namespace ApiGateway
namespace Json

/-! ## Units of the grammar -/

/-- A unit of a string literal. -/
inductive StringUnit where
  /-- A byte that stands for itself. -/
  | plain (c : UInt8)
  /-- A backslash with a letter, and the byte for which they stand. -/
  | short (letter c : UInt8)
  /-- A backslash and `u` with four hexadecimal digits. -/
  | code (a b c d : UInt8)

/-- The letters of short escapes with the bytes for which they stand. -/
def shortEscapes : List (UInt8 × UInt8) :=
  [(34, 34), (92, 92), (47, 47), (98, 8), (102, 12), (110, 10), (114, 13), (116, 9)]

/-- Whether a byte is a hexadecimal digit of either case. -/
def isHexDigit (c : UInt8) : Bool :=
  (Http.Percent.hexValue c).isSome

namespace StringUnit

/-- The text of a unit. -/
def text : StringUnit → Bytes
  | .plain c => [c]
  | .short letter _ => [92, letter]
  | .code a b c d => [92, 117, a, b, c, d]

/-- A unit of the grammar. -/
def WellFormed : StringUnit → Prop
  | .plain c => 32 ≤ c ∧ c ≠ 34 ∧ c ≠ 92
  | .short letter c => shortEscapes.lookup letter = some c
  | .code a b c d => isHexDigit a ∧ isHexDigit b ∧ isHexDigit c ∧ isHexDigit d

/-- A unit of the grammar is not empty and does not start with a quote. -/
theorem exists_cons_of_wellFormed {u : StringUnit} (h : u.WellFormed) :
    ∃ c rest, u.text = c :: rest ∧ c ≠ 34 := by
  cases u with
  | plain c => exact ⟨c, [], rfl, h.2.1⟩
  | short letter c => exact ⟨92, [letter], rfl, by decide⟩
  | code a b c d => exact ⟨92, [117, a, b, c, d], rfl, by decide⟩

/-- Units of the grammar are no more than the bytes of their text. -/
theorem length_le_flatMap {us : List StringUnit} (h : ∀ u ∈ us, u.WellFormed) :
    us.length ≤ (us.flatMap text).length := by
  induction us with
  | nil => exact Nat.le_refl 0
  | cons u us ih =>
      have hrest := ih fun v hv => h v (List.mem_cons_of_mem u hv)
      rcases exists_cons_of_wellFormed (h u List.mem_cons_self) with ⟨c, tail, htext, -⟩
      rw [List.flatMap_cons, List.length_append, htext, List.length_cons, List.length_cons]
      omega

end StringUnit

/-! ## The text for which units stand -/

/-- The number written by four hexadecimal digits. -/
def codeOf (a b c d : UInt8) : Nat :=
  let digit (x : UInt8) : Nat := ((Http.Percent.hexValue x).getD 0).toNat
  ((digit a * 16 + digit b) * 16 + digit c) * 16 + digit d

/-- The first code of a surrogate pair. -/
def isHighSurrogate (n : Nat) : Bool :=
  55296 ≤ n && n < 56320

/-- The second code of a surrogate pair. -/
def isLowSurrogate (n : Nat) : Bool :=
  56320 ≤ n && n < 57344

/-- The code point of a surrogate pair. -/
def codePoint (high low : Nat) : Nat :=
  65536 + (high - 55296) * 1024 + (low - 56320)

/-- The UTF-8 form of a code. -/
def utf8 (n : Nat) : Bytes :=
  let byte (lead weight : Nat) : UInt8 := UInt8.ofNat (lead + n / weight % 64)
  if n < 128 then [UInt8.ofNat n]
  else if n < 2048 then [byte 192 64, byte 128 1]
  else if n < 65536 then [byte 224 4096, byte 128 64, byte 128 1]
  else [byte 240 262144, byte 128 4096, byte 128 64, byte 128 1]

/-- The text for which a unit stands on its own. -/
def StringUnit.meaning : StringUnit → Bytes
  | .plain c => [c]
  | .short _ c => [c]
  | .code a b c d => utf8 (codeOf a b c d)

/-- The text for which units stand, where surrogate pairs stand for one code point. -/
def textOf : List StringUnit → Bytes
  | [] => []
  | .code a b c d :: .code e f g h :: rest =>
    if isHighSurrogate (codeOf a b c d) && isLowSurrogate (codeOf e f g h) then
      utf8 (codePoint (codeOf a b c d) (codeOf e f g h)) ++ textOf rest
    else
      utf8 (codeOf a b c d) ++ textOf (.code e f g h :: rest)
  | u :: rest => u.meaning ++ textOf rest

/-- A code that starts no surrogate pair stands for itself. -/
theorem textOf_code {a b c d : UInt8} (h : isHighSurrogate (codeOf a b c d) = false)
    (rest : List StringUnit) :
    textOf (.code a b c d :: rest) = utf8 (codeOf a b c d) ++ textOf rest := by
  cases rest with
  | nil => rfl
  | cons u rest =>
      cases u with
      | plain c => rfl
      | short letter c => rfl
      | code e f g h' =>
          rw [textOf, h]
          rfl

/-! ## Reading units -/

/-- Reads the four digits of a code. -/
def readCode : Bytes → Option (StringUnit × Bytes)
  | a :: b :: c :: d :: rest =>
    if isHexDigit a ∧ isHexDigit b ∧ isHexDigit c ∧ isHexDigit d then
      some (.code a b c d, rest)
    else
      none
  | _ => none

/-- Reads what follows a backslash. -/
def readEscape : Bytes → Option (StringUnit × Bytes)
  | [] => none
  | c :: rest =>
    if c = 117 then readCode rest
    else (shortEscapes.lookup c).map fun byte => (.short c byte, rest)

/-- Reads a unit. -/
def readUnit : Bytes → Option (StringUnit × Bytes)
  | [] => none
  | c :: rest =>
    if c = 92 then readEscape rest
    else if 32 ≤ c ∧ c ≠ 34 then some (.plain c, rest)
    else none

/-- Reads units up to the closing quote. -/
def readUnits : Nat → Bytes → Option (List StringUnit × Bytes)
  | 0, _ => none
  | fuel + 1, text =>
    if text.head? = some 34 then
      some ([], text.tail)
    else do
      let (u, rest) ← readUnit text
      let (us, rest) ← readUnits fuel rest
      return (u :: us, rest)

/-- A code is read by its four digits. -/
theorem readCode_eq_some_iff {text rest : Bytes} {u : StringUnit} :
    readCode text = some (u, rest) ↔
      ∃ a b c d, u = .code a b c d ∧ u.WellFormed ∧ text = a :: b :: c :: d :: rest := by
  constructor
  · intro h
    unfold readCode at h
    split at h
    · next a b c d tail =>
        split at h
        · next hdigits =>
            cases h
            exact ⟨a, b, c, d, rfl, hdigits, rfl⟩
        · cases h
    · cases h
  · rintro ⟨a, b, c, d, rfl, hdigits, rfl⟩
    exact if_pos hdigits

/-- No short escape has the letter of codes. -/
theorem lookup_shortEscapes_code : shortEscapes.lookup 117 = none := by
  decide

/-- After a backslash exactly the units that start with one are read. -/
theorem readEscape_eq_some_iff {text rest : Bytes} {u : StringUnit} :
    readEscape text = some (u, rest) ↔ u.WellFormed ∧ 92 :: text = u.text ++ rest := by
  constructor
  · intro h
    cases text with
    | nil => cases h
    | cons letter tail =>
        rw [readEscape] at h
        by_cases hcode : letter = 117
        · rw [if_pos hcode, readCode_eq_some_iff] at h
          rcases h with ⟨a, b, c, d, rfl, hdigits, rfl⟩
          rw [hcode]
          exact ⟨hdigits, rfl⟩
        · rw [if_neg hcode, Option.map_eq_some_iff] at h
          rcases h with ⟨byte, hbyte, hpair⟩
          cases hpair
          exact ⟨hbyte, rfl⟩
  · rintro ⟨hwell, htext⟩
    cases u with
    | plain c =>
        cases htext
        exact absurd rfl hwell.2.2
    | short letter c =>
        cases htext
        have hletter : letter ≠ 117 := by
          rintro rfl
          cases lookup_shortEscapes_code.symm.trans hwell
        change readEscape (letter :: rest) = _
        rw [readEscape, if_neg hletter]
        exact congrArg (Option.map fun byte => (StringUnit.short letter byte, rest)) hwell
    | code a b c d =>
        cases htext
        exact readCode_eq_some_iff.2 ⟨a, b, c, d, rfl, hwell, rfl⟩

/-- The reader of a unit reads exactly the units of the grammar. -/
theorem readUnit_eq_some_iff {text rest : Bytes} {u : StringUnit} :
    readUnit text = some (u, rest) ↔ u.WellFormed ∧ text = u.text ++ rest := by
  cases text with
  | nil =>
      constructor
      · exact nofun
      · rintro ⟨hwell, htext⟩
        rcases StringUnit.exists_cons_of_wellFormed hwell with ⟨c, tail, hcons, -⟩
        rw [hcons] at htext
        cases htext
  | cons c tail =>
      rw [readUnit]
      by_cases hescape : c = 92
      · rw [if_pos hescape, hescape]
        exact readEscape_eq_some_iff
      · rw [if_neg hescape]
        constructor
        · intro h
          by_cases hplain : 32 ≤ c ∧ c ≠ 34
          · rw [if_pos hplain] at h
            cases h
            exact ⟨⟨hplain.1, hplain.2, hescape⟩, rfl⟩
          · rw [if_neg hplain] at h
            cases h
        · rintro ⟨hwell, htext⟩
          cases u with
          | plain byte =>
              cases htext
              exact if_pos ⟨hwell.1, hwell.2.1⟩
          | short letter byte =>
              cases htext
              exact absurd rfl hescape
          | code a b c d =>
              cases htext
              exact absurd rfl hescape

/-- Units that have been read are those of the grammar, up to a quote. -/
theorem readUnits_sound {fuel : Nat} {text rest : Bytes} {us : List StringUnit}
    (h : readUnits fuel text = some (us, rest)) :
    (∀ u ∈ us, u.WellFormed) ∧ text = us.flatMap StringUnit.text ++ 34 :: rest := by
  induction fuel generalizing text us with
  | zero => cases h
  | succ fuel ih =>
      rw [readUnits] at h
      by_cases hquote : text.head? = some 34
      · rw [if_pos hquote] at h
        cases h
        rcases List.head?_eq_some_iff.1 hquote with ⟨tail, rfl⟩
        exact ⟨fun _ hmem => absurd hmem List.not_mem_nil, rfl⟩
      · rw [if_neg hquote] at h
        rcases Option.bind_eq_some_iff.1 h with ⟨⟨u, afterUnit⟩, hunit, h⟩
        rcases Option.bind_eq_some_iff.1 h with ⟨⟨others, afterOthers⟩, hothers, h⟩
        cases h
        rcases readUnit_eq_some_iff.1 hunit with ⟨hwell, htext⟩
        rcases ih hothers with ⟨hall, hafter⟩
        constructor
        · intro v hv
          rcases List.mem_cons.1 hv with rfl | hv
          · exact hwell
          · exact hall v hv
        · rw [htext, hafter, List.flatMap_cons, List.append_assoc]

/-- Units of the grammar are read up to a quote. -/
theorem readUnits_complete {us : List StringUnit} (h : ∀ u ∈ us, u.WellFormed) {fuel : Nat}
    (hfuel : us.length < fuel) (rest : Bytes) :
    readUnits fuel (us.flatMap StringUnit.text ++ 34 :: rest) = some (us, rest) := by
  induction us generalizing fuel with
  | nil =>
      cases fuel with
      | zero => cases hfuel
      | succ fuel => rfl
  | cons u us ih =>
      cases fuel with
      | zero => cases hfuel
      | succ fuel =>
          have hwell := h u List.mem_cons_self
          have hunit : readUnit (u.text ++ (us.flatMap StringUnit.text ++ 34 :: rest)) =
              some (u, us.flatMap StringUnit.text ++ 34 :: rest) :=
            readUnit_eq_some_iff.2 ⟨hwell, rfl⟩
          have hothers := ih (fun v hv => h v (List.mem_cons_of_mem u hv))
            (Nat.lt_of_succ_lt_succ hfuel)
          rcases StringUnit.exists_cons_of_wellFormed hwell with ⟨c, tail, htext, hc⟩
          have hquote : (u.text ++ (us.flatMap StringUnit.text ++ 34 :: rest)).head? ≠ some 34 := by
            rw [htext]
            intro heq
            exact hc (Option.some.inj heq)
          rw [List.flatMap_cons, List.append_assoc, readUnits, if_neg hquote, hunit]
          simp only [Option.bind_eq_bind, Option.bind_some, hothers]
          rfl

/-! ## Written units -/

/-- The unit that the writer uses for a byte. -/
def unitOf (c : UInt8) : StringUnit :=
  if c = 92 then .short 92 92
  else if c = 34 then .short 34 34
  else if c = 10 then .short 110 10
  else if c = 13 then .short 114 13
  else if c = 9 then .short 116 9
  else if c = 8 then .short 98 8
  else if c = 12 then .short 102 12
  else if c < 32 then .code 48 48 (hexDigit (c / 16)) (hexDigit (c % 16))
  else .plain c

/-- The units that the writer uses for a text. -/
def unitsOf (s : Bytes) : List StringUnit :=
  s.map unitOf

/-- The writer writes a byte as the text of its unit. -/
theorem text_unitOf (c : UInt8) : (unitOf c).text = escapeByte c := by
  unfold unitOf escapeByte
  split_ifs <;> rfl

/-- The writer uses short escapes, codes of control characters, and bytes as they are. -/
theorem unitOf_cases (c : UInt8) :
    (∃ letter, unitOf c = .short letter c ∧ shortEscapes.lookup letter = some c) ∨
      (c < 32 ∧ unitOf c = .code 48 48 (hexDigit (c / 16)) (hexDigit (c % 16))) ∨
      (¬c < 32 ∧ c ≠ 34 ∧ c ≠ 92 ∧ unitOf c = .plain c) := by
  unfold unitOf
  split_ifs with hescape hquote _ _ _ _ _ hcontrol
  any_goals
    subst_vars
    exact .inl ⟨_, rfl, rfl⟩
  · exact .inr (.inl ⟨hcontrol, rfl⟩)
  · exact .inr (.inr ⟨hcontrol, hquote, hescape, rfl⟩)

/-- A control character is written by hexadecimal digits that give its code. -/
theorem code_control {c : UInt8} (h : c < 32) :
    (StringUnit.code 48 48 (hexDigit (c / 16)) (hexDigit (c % 16))).WellFormed ∧
      codeOf 48 48 (hexDigit (c / 16)) (hexDigit (c % 16)) = c.toNat := by
  have hall : ∀ k : Fin 32,
      (isHexDigit 48 ∧ isHexDigit 48 ∧ isHexDigit (hexDigit (UInt8.ofNat k / 16)) ∧
        isHexDigit (hexDigit (UInt8.ofNat k % 16))) ∧
      codeOf 48 48 (hexDigit (UInt8.ofNat k / 16)) (hexDigit (UInt8.ofNat k % 16)) =
        (UInt8.ofNat k).toNat := by
    decide
  have hlt : c.toNat < 32 := h
  have hc := hall ⟨c.toNat, hlt⟩
  rw [UInt8.ofNat_toNat] at hc
  exact hc

/-- The writer uses units of the grammar. -/
theorem wellFormed_unitOf (c : UInt8) : (unitOf c).WellFormed := by
  rcases unitOf_cases c with ⟨letter, hunit, hletter⟩ | ⟨hcontrol, hunit⟩ |
    ⟨hblank, hquote, hescape, hunit⟩
  · rw [hunit]
    exact hletter
  · rw [hunit]
    exact (code_control hcontrol).1
  · rw [hunit]
    exact ⟨UInt8.not_lt.1 hblank, hquote, hescape⟩

/-- The unit that the writer uses stands for its byte, whatever follows. -/
theorem textOf_unitOf_cons (c : UInt8) (rest : List StringUnit) :
    textOf (unitOf c :: rest) = c :: textOf rest := by
  rcases unitOf_cases c with ⟨letter, hunit, -⟩ | ⟨hcontrol, hunit⟩ | ⟨-, -, -, hunit⟩
  · rw [hunit]
    rfl
  · have hlt : c.toNat < 32 := hcontrol
    have hcode := (code_control hcontrol).2
    have hutf8 : utf8 c.toNat = [c] := by
      rw [utf8, if_pos (by omega), UInt8.ofNat_toNat]
    have hhigh : isHighSurrogate c.toNat = false := by
      rw [isHighSurrogate, Bool.and_eq_false_iff, decide_eq_false_iff_not]
      exact .inl (by omega)
    rw [← hcode] at hhigh
    rw [hunit, textOf_code hhigh, hcode, hutf8]
    rfl
  · rw [hunit]
    rfl

/-- The literal of a text consists of its units. -/
theorem flatMap_text_unitsOf (s : Bytes) : (unitsOf s).flatMap StringUnit.text = escape s := by
  rw [unitsOf, List.flatMap_map, escape]
  congr 1
  funext c
  exact text_unitOf c

/-- The units of a text stand for the text. -/
theorem textOf_unitsOf (s : Bytes) : textOf (unitsOf s) = s := by
  induction s with
  | nil => rfl
  | cons c rest ih =>
      rw [unitsOf, List.map_cons, textOf_unitOf_cons, ← unitsOf, ih]

end Json
end ApiGateway
