import ApiGateway.Exchange.Scope
import ApiGateway.Http.Query
import ApiGateway.Proofs.Templates
import ApiGateway.Proofs.TrimmedTexts

/-!
# Written queries

A query may be written in several ways: an escape takes hexadecimal digits of either case,
and a blank may be a plus.  Whichever way is taken, written text has none of the bytes at
which targets and queries are cut, so every field is cut out whole before it is decoded.

Main definitions:

- `Percent.Writes`: a text is a way to write a byte string.
- `Query.WritesField`: a text is a way to write a pair of a name and a value.

Main results:

- `Percent.decode_of_writes`: decoding reads back whatever way has been taken.
- `Query.parse_of_writesField`: a query of written fields gives back their pairs.
- `Query.parse_query_of_written_target`: the same for the target of a request.
-/

namespace ApiGateway

namespace Http
namespace Percent

/-! ## Ways to write a byte -/

/-- A byte is the hexadecimal digit of a number below sixteen, in either case. -/
def IsHexDigit (n c : UInt8) : Prop :=
  c = hexDigit n ∨ c = Bytes.lowerByte (hexDigit n)

/-- A text is a way to write a byte: unreserved bytes stand for themselves, a plus for a blank. -/
inductive WritesByte : UInt8 → Bytes → Prop where
  | plain {c : UInt8} (h : isUnreserved c = true) : WritesByte c [c]
  | escaped {c high low : UInt8} (hhigh : IsHexDigit (c / 16) high)
      (hlow : IsHexDigit (c % 16) low) : WritesByte c [37, high, low]
  | blank : WritesByte 32 [43]

/-- A text is a way to write a byte string. -/
inductive Writes : Bytes → Bytes → Prop where
  | nil : Writes [] []
  | cons {c : UInt8} {s word text : Bytes} (hword : WritesByte c word) (h : Writes s text) :
      Writes (c :: s) (word ++ text)

/-- A digit of either case is read back. -/
theorem hexValue_of_isHexDigit {n c : UInt8} (hn : n < 16) (h : IsHexDigit n c) :
    hexValue c = some n := by
  rcases h with rfl | rfl
  · exact hexValue_hexDigit hn
  · have hall : ∀ k : Fin 16,
        hexValue (Bytes.lowerByte (hexDigit (UInt8.ofNat k))) = some (UInt8.ofNat k) := by
      decide
    have hlower := hall ⟨n.toNat, hn⟩
    rw [UInt8.ofNat_toNat] at hlower
    exact hlower

/-- A digit of either case is unreserved. -/
theorem isUnreserved_of_isHexDigit {n c : UInt8} (hn : n < 16) (h : IsHexDigit n c) :
    isUnreserved c = true := by
  rcases h with rfl | rfl
  · exact isUnreserved_hexDigit hn
  · have hall : ∀ k : Fin 16,
        isUnreserved (Bytes.lowerByte (hexDigit (UInt8.ofNat k))) = true := by
      decide
    have hlower := hall ⟨n.toNat, hn⟩
    rw [UInt8.ofNat_toNat] at hlower
    exact hlower

/-- The byte that a text writes is decoded from it, whatever follows. -/
theorem decode_of_writesByte {c : UInt8} {word : Bytes} (h : WritesByte c word) (rest : Bytes) :
    decode true (word ++ rest) = c :: decode true rest := by
  cases h with
  | plain hc =>
      rcases ne_of_isUnreserved hc with ⟨hpercent, hplus⟩
      rw [List.singleton_append, decode_cons hpercent]
      simp [plainByte, hplus]
  | escaped hhigh hlow =>
      have hbyte := hexByte_of_hexValue (hexValue_of_isHexDigit (div_sixteen_lt c) hhigh)
        (hexValue_of_isHexDigit (mod_sixteen_lt c) hlow)
      simp only [List.cons_append, List.nil_append, decode, if_true, hbyte]
  | blank =>
      rw [List.singleton_append, decode_cons (by decide)]
      rfl

/-- Decoding reads back what has been written. -/
theorem decode_of_writes {s text : Bytes} (h : Writes s text) : decode true text = s := by
  induction h with
  | nil => rfl
  | cons hword _ ih => rw [decode_of_writesByte hword, ih]

/-- Encoding is a way to write a byte string. -/
theorem writes_encode (s : Bytes) : Writes s (encode s) := by
  induction s with
  | nil => exact .nil
  | cons c rest ih =>
      rw [encode, List.flatMap_cons, ← encode]
      by_cases hc : isUnreserved c = true
      · rw [if_pos hc]
        exact .cons (.plain hc) ih
      · rw [if_neg hc]
        exact .cons (.escaped (.inl rfl) (.inl rfl)) ih

/-- Written text consists of unreserved bytes, percent signs and pluses. -/
theorem mem_of_writes {s text : Bytes} (h : Writes s text) {c : UInt8} (hc : c ∈ text) :
    isUnreserved c = true ∨ c = 37 ∨ c = 43 := by
  induction h with
  | nil => cases hc
  | cons hword _ ih =>
      rcases List.mem_append.1 hc with hc | hc
      · cases hword with
        | plain hplain => exact .inl (List.mem_singleton.1 hc ▸ hplain)
        | escaped hhigh hlow =>
            simp only [List.mem_cons, List.not_mem_nil, or_false] at hc
            rcases hc with rfl | rfl | rfl
            · exact .inr (.inl rfl)
            · exact .inl (isUnreserved_of_isHexDigit (div_sixteen_lt _) hhigh)
            · exact .inl (isUnreserved_of_isHexDigit (mod_sixteen_lt _) hlow)
        | blank => exact .inr (.inr (List.mem_singleton.1 hc))
      · exact ih hc

/-- Written text has no byte that is neither unreserved nor a percent sign nor a plus. -/
theorem not_mem_of_writes {s text : Bytes} (h : Writes s text) {c : UInt8}
    (hreserved : isUnreserved c = false) (hpercent : c ≠ 37) (hplus : c ≠ 43) : c ∉ text := by
  intro hc
  rcases mem_of_writes h hc with hplain | hc | hc
  · exact Bool.false_ne_true (hreserved.symm.trans hplain)
  · exact hpercent hc
  · exact hplus hc

end Percent

namespace Query

/-! ## Fields -/

/-- A text is a way to write a pair: its name, `=` and its value. -/
def WritesField (pair : Bytes × Bytes) (field : Bytes) : Prop :=
  ∃ name value, Percent.Writes pair.1 name ∧ Percent.Writes pair.2 value ∧
    field = name ++ 61 :: value

variable {pairs : List (Bytes × Bytes)} {fields : List Bytes}

/-- A written field gives back its pair. -/
theorem parseField_of_writesField {pair : Bytes × Bytes} {field : Bytes}
    (h : WritesField pair field) : parseField field = pair := by
  rcases h with ⟨name, value, hname, hvalue, rfl⟩
  have hequals : (61 : UInt8) ∉ name :=
    Percent.not_mem_of_writes hname (by decide) (by decide) (by decide)
  rw [parseField, Bytes.cut_append_cons hequals]
  exact Prod.ext (Percent.decode_of_writes hname) (Percent.decode_of_writes hvalue)

/-- A written field has an `=`, so it is not empty. -/
theorem isEmpty_of_writesField {pair : Bytes × Bytes} {field : Bytes}
    (h : WritesField pair field) : field.isEmpty = false := by
  rcases h with ⟨name, value, -, -, rfl⟩
  simp

/-- A written field has none of the bytes that end fields, queries and paths. -/
theorem not_mem_of_writesField {pair : Bytes × Bytes} {field : Bytes} (h : WritesField pair field)
    {c : UInt8} (hreserved : Percent.isUnreserved c = false) (hpercent : c ≠ 37) (hplus : c ≠ 43)
    (hequals : c ≠ 61) : c ∉ field := by
  rcases h with ⟨name, value, hname, hvalue, rfl⟩
  rw [List.mem_append, List.mem_cons, not_or, not_or]
  exact ⟨Percent.not_mem_of_writes hname hreserved hpercent hplus, hequals,
    Percent.not_mem_of_writes hvalue hreserved hpercent hplus⟩

/-- What holds of all written fields, whatever their pairs are. -/
theorem forall_of_writesField {P : Bytes → Prop}
    (hP : ∀ pair field, WritesField pair field → P field)
    (h : List.Forall₂ WritesField pairs fields) : ∀ field ∈ fields, P field := by
  induction h with
  | nil => exact fun _ hmem => nomatch hmem
  | cons hfirst _ ih =>
      intro field hmem
      rcases List.mem_cons.1 hmem with rfl | hmem
      · exact hP _ _ hfirst
      · exact ih field hmem

/-- Decoding written fields one by one gives back their pairs. -/
theorem map_parseField_of_writesField (h : List.Forall₂ WritesField pairs fields) :
    fields.map parseField = pairs := by
  induction h with
  | nil => rfl
  | cons hfirst _ ih => rw [List.map_cons, parseField_of_writesField hfirst, ih]

/-- A query of written fields gives back their pairs in order. -/
theorem parse_of_writesField (h : List.Forall₂ WritesField pairs fields) :
    parse ([38].intercalate fields) = pairs := by
  by_cases hnone : fields = []
  · subst hnone
    cases h
    rfl
  · have hsplit : Bytes.splitOn 38 ([38].intercalate fields) = fields := by
      rw [Bytes.splitOn_eq]
      exact List.splitOn_intercalate 38 (forall_of_writesField (fun _ _ hfield =>
        not_mem_of_writesField hfield (by decide) (by decide) (by decide) (by decide)) h) hnone
    have hkept : fields.filter (fun field => !field.isEmpty) = fields := by
      refine List.filter_eq_self.2 (forall_of_writesField (fun _ _ hfield => ?_) h)
      rw [isEmpty_of_writesField hfield]
      rfl
    rw [parse, hsplit, hkept, map_parseField_of_writesField h]

/-! ## Targets -/

/-- The query of a target ends where its fragment begins. -/
theorem query_of_target {path query fragment : Bytes}
    (hpath : ∀ c ∈ path, Target.endsPath c = false) (hquery : (35 : UInt8) ∉ query)
    (hfragment : fragment = [] ∨ ∃ text, fragment = 35 :: text) :
    Target.query (path ++ 63 :: (query ++ fragment)) = query := by
  have hkept : ∀ c ∈ path, (!Target.endsPath c) = true := by
    intro c hc
    rw [hpath c hc]
    rfl
  have hdrop : (path ++ 63 :: (query ++ fragment)).dropWhile (fun c => !Target.endsPath c) =
      63 :: (query ++ fragment) := by
    rw [List.dropWhile_append_of_pos hkept]
    rfl
  have hrest : fragment.takeWhile (· != 35) = [] := by
    rcases hfragment with rfl | ⟨text, rfl⟩
    · rfl
    · rfl
  rw [Target.query, hdrop]
  dsimp only
  rw [if_pos rfl, List.takeWhile_append_of_pos (fun c hc =>
    bne_iff_ne.2 (ne_of_mem_of_not_mem hc hquery)), hrest, List.append_nil]

/--
A request whose target is a path, `?` and written fields joined by `&`, possibly followed by a
fragment, gives back the pairs of its fields in order, and its path.  A field may be written in any
way; names and values may be empty and may repeat.
-/
theorem parse_query_of_written_target {r : Request} {path fragment : Bytes}
    (hpath : ∀ c ∈ path, c ≠ 63 ∧ c ≠ 35) (hfields : List.Forall₂ WritesField pairs fields)
    (hfragment : fragment = [] ∨ ∃ text, fragment = 35 :: text)
    (htarget : r.target = path ++ 63 :: ([38].intercalate fields ++ fragment)) :
    parse r.query = pairs ∧ r.path = path := by
  have hkept : ∀ c ∈ path, Target.endsPath c = false := by
    intro c hc
    simp [Target.endsPath, hpath c hc]
  have hquery : (35 : UInt8) ∉ [38].intercalate fields := by
    intro hmem
    rcases Bytes.mem_intercalate hmem with hc | ⟨field, hfield, hc⟩
    · cases hc
    · exact forall_of_writesField (P := fun field => (35 : UInt8) ∉ field) (fun _ _ h =>
        not_mem_of_writesField h (by decide) (by decide) (by decide) (by decide)) hfields field
        hfield hc
  constructor
  · rw [Request.query, htarget, query_of_target hkept hquery hfragment,
      parse_of_writesField hfields]
  · rw [Request.path, htarget, Target.path_append hkept]
    exact List.append_nil path

/-- Escapes of either case, a plus, an empty field and a fragment with `?` and `&`. -/
theorem parse_query_of_mixed_writing :
    let pairs : List (Bytes × Bytes) := [([97, 32, 37], [43]), ([], []), ([255], [126])]
    let fields : List Bytes := [Bytes.ofString "a+%25=%2b", Bytes.ofString "=",
      Bytes.ofString "%fF=~"]
    let r : Request := { target := Bytes.ofString "/p?a+%25=%2b&=&%fF=~#x?y&z" }
    List.Forall₂ WritesField pairs fields ∧ parse r.query = pairs ∧
      r.path = Bytes.ofString "/p" := by
  intro pairs fields r
  have hfirst : WritesField ([97, 32, 37], [43]) (Bytes.ofString "a+%25=%2b") :=
    ⟨_, _, .cons (.plain rfl) (.cons .blank (.cons (.escaped (.inl rfl) (.inl rfl)) .nil)),
      .cons (.escaped (.inl rfl) (.inr rfl)) .nil, rfl⟩
  have hempty : WritesField ([], []) (Bytes.ofString "=") := ⟨_, _, .nil, .nil, rfl⟩
  have hlast : WritesField ([255], [126]) (Bytes.ofString "%fF=~") :=
    ⟨_, _, .cons (.escaped (.inr rfl) (.inl rfl)) .nil, .cons (.plain rfl) .nil, rfl⟩
  have hfields : List.Forall₂ WritesField pairs fields :=
    .cons hfirst (.cons hempty (.cons hlast .nil))
  have hpath : ∀ c ∈ ([47, 112] : Bytes), c ≠ 63 ∧ c ≠ 35 := by simp
  exact ⟨hfields, parse_query_of_written_target hpath hfields (.inr ⟨_, rfl⟩) rfl⟩

end Query
end Http
end ApiGateway
