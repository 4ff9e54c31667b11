import ApiGateway.Http.Target
import ApiGateway.Http.Percent

/-!
# Percent escapes read back

Encoding writes every byte either as itself or as an escape, and decoding takes the two
apart by the percent sign.  Encoded text has none of the bytes at which paths and targets
are cut.

Main results:

- `Percent.decode_encode`: decoding reads encoded text back, with and without `+` as a blank.
- `Percent.isUnreserved_of_mem_encode`: the bytes of encoded text.
-/

namespace ApiGateway
namespace Http
namespace Percent

/-! ## Hexadecimal digits -/

/-- A hexadecimal digit is read back. -/
theorem hexValue_hexDigit {n : UInt8} (h : n < 16) : hexValue (hexDigit n) = some n := by
  have hall : ∀ k : Fin 16, hexValue (hexDigit (UInt8.ofNat k)) = some (UInt8.ofNat k) := by
    decide
  have hlt : n.toNat < 16 := h
  have hn := hall ⟨n.toNat, hlt⟩
  rw [UInt8.ofNat_toNat] at hn
  exact hn

/-- A hexadecimal digit needs no escape. -/
theorem isUnreserved_hexDigit {n : UInt8} (h : n < 16) : isUnreserved (hexDigit n) = true := by
  have hall : ∀ k : Fin 16, isUnreserved (hexDigit (UInt8.ofNat k)) = true := by
    decide
  have hlt : n.toNat < 16 := h
  have hn := hall ⟨n.toNat, hlt⟩
  rw [UInt8.ofNat_toNat] at hn
  exact hn

/-- The upper four bits of a byte. -/
theorem div_sixteen_lt (c : UInt8) : c / 16 < 16 := by
  have hlt := c.toNat_lt
  rw [UInt8.lt_iff_toNat_lt, UInt8.toNat_div]
  exact Nat.div_lt_of_lt_mul hlt

/-- The lower four bits of a byte. -/
theorem mod_sixteen_lt (c : UInt8) : c % 16 < 16 :=
  UInt8.mod_lt c (by decide)

/-- A byte is put together from its upper and lower four bits. -/
theorem sixteen_mul_div_add_mod (c : UInt8) : 16 * (c / 16) + c % 16 = c := by
  apply UInt8.toNat_inj.1
  have hlt := c.toNat_lt
  simp only [UInt8.toNat_add, UInt8.toNat_mul, UInt8.toNat_div, UInt8.toNat_mod,
    UInt8.reduceToNat]
  omega

/-- Two digits that are read as the halves of a byte are read as the byte. -/
theorem hexByte_of_hexValue {c high low : UInt8} (hhigh : hexValue high = some (c / 16))
    (hlow : hexValue low = some (c % 16)) : hexByte high low = some c := by
  rw [hexByte, hhigh, hlow]
  exact congrArg some (sixteen_mul_div_add_mod c)

/-- The two digits of an escape are read back. -/
theorem hexByte_escape (c : UInt8) : hexByte (hexDigit (c / 16)) (hexDigit (c % 16)) = some c :=
  hexByte_of_hexValue (hexValue_hexDigit (div_sixteen_lt c)) (hexValue_hexDigit (mod_sixteen_lt c))

/-! ## Decoding what has been encoded -/

/-- A byte other than the percent sign is decoded by itself. -/
theorem decode_cons {plusAsBlank : Bool} {c : UInt8} (h : c ≠ 37) (rest : Bytes) :
    decode plusAsBlank (c :: rest) = plainByte plusAsBlank c :: decode plusAsBlank rest := by
  cases rest with
  | nil => rfl
  | cons high rest =>
      cases rest with
      | nil => rfl
      | cons low rest => rw [decode, if_neg h]

/-- An escape is decoded to its byte. -/
theorem decode_escape (plusAsBlank : Bool) (c : UInt8) (rest : Bytes) :
    decode plusAsBlank (escape c ++ rest) = c :: decode plusAsBlank rest := by
  simp only [escape, List.cons_append, List.nil_append, decode, if_true, hexByte_escape]

/-- An unreserved byte is neither the percent sign nor a plus. -/
theorem ne_of_isUnreserved {c : UInt8} (h : isUnreserved c = true) : c ≠ 37 ∧ c ≠ 43 := by
  constructor
  · rintro rfl
    cases h
  · rintro rfl
    cases h

/-- Decoding reads encoded text back. -/
theorem decode_encode (plusAsBlank : Bool) (s : Bytes) :
    decode plusAsBlank (encode s) = s := by
  induction s with
  | nil => rfl
  | cons c rest ih =>
      rw [encode, List.flatMap_cons, ← encode]
      by_cases h : isUnreserved c = true
      · rcases ne_of_isUnreserved h with ⟨hpercent, hplus⟩
        rw [if_pos h, List.singleton_append, decode_cons hpercent, ih]
        simp [plainByte, hplus]
      · rw [if_neg h, decode_escape, ih]

/-! ## The bytes of encoded text -/

/-- Encoded text consists of unreserved bytes and percent signs. -/
theorem isUnreserved_of_mem_encode {s : Bytes} {c : UInt8} (h : c ∈ encode s) :
    isUnreserved c = true ∨ c = 37 := by
  rcases List.mem_flatMap.1 h with ⟨b, -, hc⟩
  by_cases hb : isUnreserved b = true
  · rw [if_pos hb, List.mem_singleton] at hc
    exact .inl (hc ▸ hb)
  · rw [if_neg hb] at hc
    simp only [escape, List.mem_cons, List.not_mem_nil, or_false] at hc
    rcases hc with rfl | rfl | rfl
    · exact .inr rfl
    · exact .inl (isUnreserved_hexDigit (div_sixteen_lt b))
    · exact .inl (isUnreserved_hexDigit (mod_sixteen_lt b))

/-- Encoded text has no slash. -/
theorem slash_not_mem_encode (s : Bytes) : (47 : UInt8) ∉ encode s := by
  intro h
  rcases isUnreserved_of_mem_encode h with h | h
  · cases h
  · cases h

/-- Encoded text does not end a path. -/
theorem endsPath_of_mem_encode {s : Bytes} {c : UInt8} (h : c ∈ encode s) :
    Target.endsPath c = false := by
  rw [Target.endsPath, Bool.or_eq_false_iff, beq_eq_false_iff_ne, beq_eq_false_iff_ne]
  constructor
  · rintro rfl
    rcases isUnreserved_of_mem_encode h with h | h
    · cases h
    · cases h
  · rintro rfl
    rcases isUnreserved_of_mem_encode h with h | h
    · cases h
    · cases h

/-- Only the empty text is encoded as empty text. -/
theorem encode_ne_nil {s : Bytes} (h : s ≠ []) : encode s ≠ [] := by
  intro hnil
  apply h
  rw [← decode_encode false s, hnil]
  rfl

end Percent

/-! ## Paths of targets -/

/-- The path of a target goes on through the bytes that do not end it. -/
theorem Target.path_append {text : Bytes} (h : ∀ c ∈ text, endsPath c = false)
    (rest : Bytes) : path (text ++ rest) = text ++ path rest := by
  have hall : ∀ c ∈ text, (!endsPath c) = true := by
    intro c hc
    rw [h c hc]
    rfl
  exact List.takeWhile_append_of_pos hall

end Http
end ApiGateway
