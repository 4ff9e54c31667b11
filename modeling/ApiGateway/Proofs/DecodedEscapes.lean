import ApiGateway.Proofs.WrittenQueries

/-!
# Decoded escapes

A text is cut from left to right into escapes and single bytes: where an escape begins it is taken
whole, and anywhere else one byte is taken, also a percent sign whose digits are missing or cut
off.  There is one way to cut a text, and decoding gives one byte for each piece.

Main definitions:

- `Percent.StartsEscape`: an escape begins here.
- `Percent.Token`, `Percent.Cuts`: the pieces of a text.
- `Percent.Token.decoded`: the byte that a piece stands for.

Main results:

- `Percent.hexValue_eq_some_iff`, `Percent.hexByte_eq_some_iff`: what is read as digits.
- `Percent.exists_cuts`, `Percent.Cuts.unique`: a text is cut in one way.
- `Percent.decodes_each_token_once`: decoding gives the bytes of the pieces.
-/

namespace ApiGateway
namespace Http
namespace Percent

/-! ## Digits -/

/-- A byte is read as a number below sixteen exactly if it is its digit in either case. -/
theorem hexValue_eq_some_iff {n c : UInt8} : hexValue c = some n ↔ n < 16 ∧ IsHexDigit n c := by
  constructor
  · intro h
    have hall : ∀ k : Fin 256, ∀ m ∈ hexValue (UInt8.ofNat k),
        m < 16 ∧ (UInt8.ofNat k = hexDigit m ∨ UInt8.ofNat k = Bytes.lowerByte (hexDigit m)) := by
      decide +kernel
    have hc := hall ⟨c.toNat, c.toNat_lt⟩
    rw [UInt8.ofNat_toNat] at hc
    exact hc n h
  · rintro ⟨hsmall, hdigit⟩
    exact hexValue_of_isHexDigit hsmall hdigit

/-- Sixteen times the upper digit and the lower digit, taken apart again. -/
theorem halves_of_digits {high low : UInt8} (hhigh : high < 16) (hlow : low < 16) :
    (16 * high + low) / 16 = high ∧ (16 * high + low) % 16 = low := by
  simp only [UInt8.lt_iff_toNat_lt, UInt8.reduceToNat] at hhigh hlow
  rw [← UInt8.toNat_inj, ← UInt8.toNat_inj]
  simp only [UInt8.toNat_div, UInt8.toNat_mod, UInt8.toNat_add, UInt8.toNat_mul,
    UInt8.reduceToNat]
  omega

/-- Two bytes are read as a byte exactly if they are digits of its upper and its lower half. -/
theorem hexByte_eq_some_iff {c high low : UInt8} :
    hexByte high low = some c ↔ IsHexDigit (c / 16) high ∧ IsHexDigit (c % 16) low := by
  constructor
  · intro h
    unfold hexByte at h
    split at h
    next upper lower hupper hlower =>
      rcases hexValue_eq_some_iff.1 hupper with ⟨hsmall, hhigh⟩
      rcases hexValue_eq_some_iff.1 hlower with ⟨hsmall', hlow⟩
      obtain rfl := Option.some.inj h
      rcases halves_of_digits hsmall hsmall' with ⟨hdiv, hmod⟩
      rw [hdiv, hmod]
      exact ⟨hhigh, hlow⟩
    next => cases h
  · rintro ⟨hhigh, hlow⟩
    exact hexByte_of_hexValue (hexValue_of_isHexDigit (div_sixteen_lt c) hhigh)
      (hexValue_of_isHexDigit (mod_sixteen_lt c) hlow)

/-! ## Pieces of a text -/

/-- A text begins with a percent sign and two hexadecimal digits of either case. -/
def StartsEscape (s : Bytes) : Prop :=
  ∃ c high low rest, s = 37 :: high :: low :: rest ∧
    IsHexDigit (c / 16) high ∧ IsHexDigit (c % 16) low

/-- A piece of a text: an escape of a byte with its two digits, or a byte outside of escapes. -/
inductive Token where
  | escape (c high low : UInt8)
  | single (c : UInt8)

namespace Token

/-- The text of a piece. -/
def text : Token → Bytes
  | escape _ high low => [37, high, low]
  | single c => [c]

/-- The byte for which a piece stands; a plus outside of escapes may stand for a blank. -/
def decoded (plusAsBlank : Bool) : Token → UInt8
  | escape c _ _ => c
  | single c => if plusAsBlank = true ∧ c = 43 then 32 else c

end Token

/-- A text is cut from left to right: a byte is taken alone only where no escape begins. -/
inductive Cuts : Bytes → List Token → Prop where
  | nil : Cuts [] []
  | escape {c high low : UInt8} {rest : Bytes} {tokens : List Token}
      (hhigh : IsHexDigit (c / 16) high) (hlow : IsHexDigit (c % 16) low)
      (h : Cuts rest tokens) : Cuts (37 :: high :: low :: rest) (.escape c high low :: tokens)
  | single {c : UInt8} {rest : Bytes} {tokens : List Token} (hplain : ¬StartsEscape (c :: rest))
      (h : Cuts rest tokens) : Cuts (c :: rest) (.single c :: tokens)

/-- The pieces, one after another, are the text. -/
theorem Cuts.flatMap_text {s : Bytes} {tokens : List Token} (h : Cuts s tokens) :
    tokens.flatMap Token.text = s := by
  induction h with
  | nil => rfl
  | escape _ _ _ ih => rw [List.flatMap_cons, ih]; rfl
  | single _ _ ih => rw [List.flatMap_cons, ih]; rfl

/-- A text has at least as many bytes as pieces. -/
theorem Cuts.length_le {s : Bytes} {tokens : List Token} (h : Cuts s tokens) :
    tokens.length ≤ s.length := by
  induction h with
  | nil => exact Nat.le_refl 0
  | escape _ _ _ ih => simp only [List.length_cons]; omega
  | single _ _ ih => exact Nat.succ_le_succ ih

/-- Every text can be cut. -/
theorem exists_cuts (s : Bytes) : ∃ tokens, Cuts s tokens := by
  -- Induction on the length, since an escape takes three bytes at once.
  induction hlength : s.length using Nat.strongRecOn generalizing s with
  | _ n ih =>
    subst hlength
    by_cases hescape : StartsEscape s
    · rcases hescape with ⟨c, high, low, rest, rfl, hhigh, hlow⟩
      obtain ⟨tokens, htokens⟩ := ih rest.length (by simp only [List.length_cons]; omega) rest rfl
      exact ⟨_, .escape hhigh hlow htokens⟩
    · cases s with
      | nil => exact ⟨[], .nil⟩
      | cons c rest =>
          obtain ⟨tokens, htokens⟩ := ih rest.length (Nat.lt_succ_self _) rest rfl
          exact ⟨_, .single hescape htokens⟩

/-- A text is cut in one way only. -/
theorem Cuts.unique {s : Bytes} {tokens others : List Token} (h : Cuts s tokens)
    (hother : Cuts s others) : others = tokens := by
  induction h generalizing others with
  | nil => cases hother; rfl
  | @escape c high low rest tokens hhigh hlow _ ih =>
      cases hother with
      | @escape d _ _ _ _ hhigh' hlow' hrest =>
          have hc := hexByte_eq_some_iff.2 ⟨hhigh, hlow⟩
          have hd := hexByte_eq_some_iff.2 ⟨hhigh', hlow'⟩
          obtain rfl := Option.some.inj (hc.symm.trans hd)
          rw [ih hrest]
      | single hplain _ => exact absurd ⟨c, high, low, rest, rfl, hhigh, hlow⟩ hplain
  | single hplain _ ih =>
      cases hother with
      | escape hhigh hlow _ => exact absurd ⟨_, _, _, _, rfl, hhigh, hlow⟩ hplain
      | single _ hrest => rw [ih hrest]

/-! ## Decoding piece by piece -/

/-- A percent sign at which no escape begins is kept, and decoding goes on behind it. -/
theorem decode_percent {rest : Bytes} (h : ¬StartsEscape (37 :: rest)) (plusAsBlank : Bool) :
    decode plusAsBlank (37 :: rest) = 37 :: decode plusAsBlank rest := by
  have hkept : plainByte plusAsBlank 37 = 37 := by
    cases plusAsBlank <;> rfl
  -- Only with two more bytes is there anything to be read as digits.
  match rest with
  | [] => exact congrArg (· :: _) hkept
  | [high] => exact congrArg (· :: _) hkept
  | high :: low :: rest =>
      have hnone : hexByte high low = none := by
        rw [Option.eq_none_iff_forall_ne_some]
        intro c hbyte
        exact h ⟨c, high, low, rest, rfl, hexByte_eq_some_iff.1 hbyte⟩
      rw [decode, if_pos rfl, hnone]

/-- A byte at which no escape begins is decoded by itself. -/
theorem decode_single {c : UInt8} {rest : Bytes} (h : ¬StartsEscape (c :: rest))
    (plusAsBlank : Bool) :
    decode plusAsBlank (c :: rest) =
      (Token.single c).decoded plusAsBlank :: decode plusAsBlank rest := by
  by_cases hpercent : c = 37
  · subst hpercent
    rw [decode_percent h, Token.decoded, if_neg (by simp)]
  · rw [decode_cons hpercent]
    simp only [plainByte, Token.decoded, Bool.and_eq_true, beq_iff_eq]

/-- Decoding gives the bytes of the pieces into which the text is cut. -/
theorem decode_of_cuts {s : Bytes} {tokens : List Token} (h : Cuts s tokens)
    (plusAsBlank : Bool) : decode plusAsBlank s = tokens.map (Token.decoded plusAsBlank) := by
  induction h with
  | nil => rfl
  | escape hhigh hlow _ ih =>
      rw [decode, if_pos rfl, hexByte_eq_some_iff.2 ⟨hhigh, hlow⟩, List.map_cons, ← ih]
      rfl
  | single hplain _ ih => rw [decode_single hplain, ih, List.map_cons]

/--
A text is cut into escapes and single bytes in one way, and decoding gives one byte for each piece:
for an escape the byte that it writes, which is not looked at again, for a plus a blank where that
is asked for, and any other byte as it is, so also a percent sign at which no escape begins.
-/
theorem decodes_each_token_once (plusAsBlank : Bool) (s : Bytes) :
    ∃ tokens, (∀ others, Cuts s others ↔ others = tokens) ∧ tokens.flatMap Token.text = s ∧
      decode plusAsBlank s = tokens.map (Token.decoded plusAsBlank) ∧
      (decode plusAsBlank s).length ≤ s.length := by
  obtain ⟨tokens, htokens⟩ := exists_cuts s
  have hdecode := decode_of_cuts htokens plusAsBlank
  refine ⟨tokens, fun others => ⟨htokens.unique, ?_⟩, htokens.flatMap_text, hdecode, ?_⟩
  · rintro rfl
    exact htokens
  · rw [hdecode, List.length_map]
    exact htokens.length_le

/-- A cut-off escape stays, a decoded percent sign is not read again, and a plus becomes a blank. -/
example : decode true (Bytes.ofString "%%41+%2541%4") = Bytes.ofString "%A %41%4" := by
  decide

end Percent
end Http
end ApiGateway
