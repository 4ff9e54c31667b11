import ApiGateway.Operation.Identifier
import ApiGateway.Proofs.HeaderUpdates

/-!
# Identifiers in snake case

A name becomes an identifier in three passes: words are set apart and written in small letters,
brackets are joined to underscores and other bytes dropped, and the front is cut off up to a byte
that may begin an identifier.  After the first pass there are no capitals, after the second only
bytes of identifiers, and both pass over a text that is an identifier already.  So a name has
become what it will always be, and all its letters are still there.

Main definitions:

- `Identifier.IsSnakeCase`: identifiers in snake case, and the empty text.

Main results:

- `Identifier.isSnakeCase_ofName`: every name becomes an identifier.
- `Identifier.ofName_eq_self`: an identifier stays as it is.
- `Identifier.filter_isLetter_ofName`: the letters of an identifier are those of its name.
- `Identifier.settles_in_snake_case`: all this of every name.
-/

namespace ApiGateway
namespace Identifier

/-! ## Bytes of identifiers -/

/-- A small letter, a digit or an underscore. -/
def IsSnakeByte (c : UInt8) : Prop :=
  Bytes.isLower c = true ∨ Bytes.isDigit c = true ∨ c = 95

/-- Small letters, digits and underscores that do not begin with a digit, if there are any. -/
def IsSnakeCase : Bytes → Prop
  | [] => True
  | first :: rest => (Bytes.isLower first = true ∨ first = 95) ∧ ∀ c ∈ rest, IsSnakeByte c

/-- A byte of an identifier is no capital. -/
theorem isUpper_of_isSnakeByte {c : UInt8} (h : IsSnakeByte c) : Bytes.isUpper c = false := by
  simp only [IsSnakeByte, Bytes.isLower, Bytes.isDigit, Bytes.isUpper, Bool.and_eq_true,
    decide_eq_true_eq, UInt8.le_iff_toNat_le, ← UInt8.toNat_inj, UInt8.reduceToNat,
    Bool.and_eq_false_iff, decide_eq_false_iff_not] at h ⊢
  omega

/-- What may stand in an identifier and is no capital. -/
theorem isSnakeByte_iff {c : UInt8} :
    IsSnakeByte c ↔ isPart c = true ∧ Bytes.isUpper c = false := by
  constructor
  · intro h
    refine ⟨?_, isUpper_of_isSnakeByte h⟩
    rcases h with h | h | rfl
    · simp [isPart, Bytes.isLetter, h]
    · simp [isPart, h]
    · rfl
  · rintro ⟨hpart, hupper⟩
    simpa [isPart, Bytes.isLetter, hupper, IsSnakeByte, or_assoc] using hpart

/-- All bytes of an identifier in snake case may stand in one. -/
theorem IsSnakeCase.isSnakeByte {s : Bytes} (h : IsSnakeCase s) : ∀ c ∈ s, IsSnakeByte c := by
  cases s with
  | nil => exact fun _ hc => nomatch hc
  | cons first rest => exact List.forall_mem_cons.2 ⟨h.1.imp_right .inr, h.2⟩

theorem isUpper_lowerByte (c : UInt8) : Bytes.isUpper (Bytes.lowerByte c) = false := by
  rw [Bytes.lowerByte]
  split
  next h => exact Bytes.isUpper_add_of_isUpper h
  next h => exact Bool.eq_false_iff.2 h

/-- A byte that is no capital is its own small letter. -/
theorem lowerByte_eq_self {c : UInt8} (h : Bytes.isUpper c = false) : Bytes.lowerByte c = c :=
  if_neg (Bool.eq_false_iff.1 h)

/-- The small letter of a letter is a letter. -/
theorem isLetter_lowerByte (c : UInt8) :
    Bytes.isLetter (Bytes.lowerByte c) = Bytes.isLetter c := by
  rw [Bytes.lowerByte]
  split
  next h =>
    have hlower : Bytes.isLower (c + 32) = true := by
      simp only [Bytes.isUpper, Bytes.isLower, Bool.and_eq_true, decide_eq_true_eq,
        UInt8.le_iff_toNat_le, UInt8.toNat_add, UInt8.reduceToNat] at h ⊢
      omega
    rw [Bytes.isLetter, Bytes.isLetter, h, hlower, Bool.or_true, Bool.true_or]
  next => rfl

/-! ## Words -/

/-- Setting words apart leaves no capital. -/
theorem isUpper_of_mem_separateWords {previous : Option UInt8} {s : Bytes} {c : UInt8}
    (h : c ∈ separateWords previous s) : Bytes.isUpper c = false := by
  induction s generalizing previous with
  | nil => cases h
  | cons d rest ih =>
      rw [separateWords] at h
      split at h
      next =>
        rcases List.mem_cons.1 h with rfl | h
        · rfl
        · exact ih h
      next =>
        split at h
        next =>
          rcases List.mem_cons.1 h with rfl | h
          · rfl
          rcases List.mem_cons.1 h with rfl | h
          · exact isUpper_lowerByte d
          · exact ih h
        next =>
          rcases List.mem_cons.1 h with rfl | h
          · exact isUpper_lowerByte d
          · exact ih h

/-- A text of bytes of identifiers has no words to be set apart. -/
theorem separateWords_eq_self {s : Bytes} (h : ∀ c ∈ s, IsSnakeByte c) (previous : Option UInt8) :
    separateWords previous s = s := by
  induction s generalizing previous with
  | nil => rfl
  | cons c rest ih =>
      rw [List.forall_mem_cons] at h
      have hupper := isUpper_of_isSnakeByte h.1
      have hdash : c ≠ 45 := by
        rintro rfl
        exact absurd (isSnakeByte_iff.1 h.1).1 (by decide)
      have hword : ¬startsWord previous c rest.head? = true := by
        simp [startsWord, hupper]
      rw [separateWords, if_neg hdash, if_neg hword, ih h.2, lowerByte_eq_self hupper]

/-- Setting words apart makes all letters small and adds none. -/
theorem filter_isLetter_separateWords (previous : Option UInt8) (s : Bytes) :
    (separateWords previous s).filter Bytes.isLetter =
      (s.filter Bytes.isLetter).map Bytes.lowerByte := by
  induction s generalizing previous with
  | nil => rfl
  | cons c rest ih =>
      have hunderscore (t : Bytes) : (95 :: t).filter Bytes.isLetter = t.filter Bytes.isLetter :=
        List.filter_cons_of_neg (by decide)
      have hlower : (Bytes.lowerByte c :: separateWords (some c) rest).filter Bytes.isLetter =
          ((c :: rest).filter Bytes.isLetter).map Bytes.lowerByte := by
        rw [List.filter_cons, List.filter_cons, isLetter_lowerByte, ih]
        split <;> rfl
      rw [separateWords]
      split
      next hdash =>
        rw [hunderscore, ih, hdash, List.filter_cons_of_neg (by decide)]
      next =>
        split
        · rw [hunderscore, hlower]
        · exact hlower

/-! ## Brackets -/

/-- Joining brackets leaves underscores and such bytes as may stand in an identifier. -/
theorem mem_joinBrackets {s : Bytes} {c : UInt8} (h : c ∈ joinBrackets s) :
    c = 95 ∨ c ∈ s ∧ isPart c = true := by
  fun_induction joinBrackets s with
  | case1 rest ih =>
      rcases List.mem_cons.1 h with rfl | h
      · exact .inl rfl
      · exact (ih h).imp_right (And.imp_left fun hc => .tail _ (.tail _ hc))
  | case2 rest _ ih =>
      rcases List.mem_cons.1 h with rfl | h
      · exact .inl rfl
      · exact (ih h).imp_right (And.imp_left (.tail _))
  | case3 d rest _ _ hpart ih =>
      rcases List.mem_cons.1 h with rfl | h
      · exact .inr ⟨List.mem_cons_self, hpart⟩
      · exact (ih h).imp_right (And.imp_left (.tail _))
  | case4 d rest _ _ _ ih => exact (ih h).imp_right (And.imp_left (.tail _))
  | case5 => cases h

/-- A text of bytes of identifiers has no brackets to be joined. -/
theorem joinBrackets_eq_self {s : Bytes} (h : ∀ c ∈ s, isPart c = true) : joinBrackets s = s := by
  fun_induction joinBrackets s with
  | case1 rest ih => exact absurd (h 93 List.mem_cons_self) (by decide)
  | case2 rest _ ih => exact absurd (h 91 List.mem_cons_self) (by decide)
  | case3 c rest _ _ _ ih => rw [ih fun d hd => h d (.tail _ hd)]
  | case4 c rest _ _ hpart ih => exact absurd (h c List.mem_cons_self) hpart
  | case5 => rfl

/-- Joining brackets keeps all letters. -/
theorem filter_isLetter_joinBrackets (s : Bytes) :
    (joinBrackets s).filter Bytes.isLetter = s.filter Bytes.isLetter := by
  fun_induction joinBrackets s with
  | case1 rest ih => exact ih
  | case2 rest _ ih => exact ih
  | case3 c rest _ _ _ ih => rw [List.filter_cons, List.filter_cons, ih]
  | case4 c rest _ _ hpart ih =>
      have hletter : ¬Bytes.isLetter c = true := by
        intro h
        exact hpart (by rw [isPart, h, Bool.true_or, Bool.true_or])
      rw [ih, List.filter_cons_of_neg hletter]
  | case5 => rfl

/-! ## Identifiers -/

/-- Every name becomes an identifier in snake case, or nothing is left of it. -/
theorem isSnakeCase_ofName (name : Bytes) : IsSnakeCase (ofName name) := by
  have hbytes : ∀ c ∈ joinBrackets (separateWords none name), IsSnakeByte c := by
    intro c hc
    rcases mem_joinBrackets hc with rfl | ⟨hword, hpart⟩
    · exact .inr (.inr rfl)
    · exact isSnakeByte_iff.2 ⟨hpart, isUpper_of_mem_separateWords hword⟩
  have hhead := List.head?_dropWhile_not (fun c => !isStart c)
    (joinBrackets (separateWords none name))
  have hsublist := List.dropWhile_sublist (l := joinBrackets (separateWords none name))
    (fun c => !isStart c)
  rw [← ofName] at hhead hsublist
  cases hname : ofName name with
  | nil => trivial
  | cons first rest =>
      rw [hname] at hhead hsublist
      have hsnake : ∀ c ∈ first :: rest, IsSnakeByte c := fun c hc => hbytes c (hsublist.mem hc)
      have hstart : isStart first = true := by simpa using hhead
      have hupper := isUpper_of_isSnakeByte (hsnake first List.mem_cons_self)
      refine ⟨?_, fun c hc => hsnake c (.tail _ hc)⟩
      simpa [isStart, Bytes.isLetter, hupper] using hstart

/-- An identifier in snake case stays as it is. -/
theorem ofName_eq_self {s : Bytes} (h : IsSnakeCase s) : ofName s = s := by
  have hparts : ∀ c ∈ s, isPart c = true := fun c hc => (isSnakeByte_iff.1 (h.isSnakeByte c hc)).1
  rw [ofName, separateWords_eq_self h.isSnakeByte, joinBrackets_eq_self hparts]
  cases s with
  | nil => rfl
  | cons first rest =>
      have hstart : isStart first = true := by
        rcases h.1 with hlower | rfl
        · simp [isStart, Bytes.isLetter, hlower]
        · rfl
      exact List.dropWhile_cons_of_neg (by simpa using hstart)

/-- An identifier has the letters of its name, written small. -/
theorem filter_isLetter_ofName (name : Bytes) :
    (ofName name).filter Bytes.isLetter = (name.filter Bytes.isLetter).map Bytes.lowerByte := by
  have hfront (s : Bytes) :
      (s.dropWhile fun c => !isStart c).filter Bytes.isLetter = s.filter Bytes.isLetter := by
    induction s with
    | nil => rfl
    | cons c rest ih =>
        rw [List.dropWhile_cons]
        split
        next hstart =>
          have hletter : ¬Bytes.isLetter c = true := by
            intro h
            simp [isStart, h] at hstart
          rw [ih, List.filter_cons_of_neg hletter]
        next => rfl
  rw [ofName, hfront, filter_isLetter_joinBrackets, filter_isLetter_separateWords]

/--
Every name becomes an identifier in snake case, or the empty text, and has then settled: it becomes
the same once more, and names that stay as they are are just those of this form.  No letter of the
name is lost, and none is added.
-/
theorem settles_in_snake_case (name : Bytes) :
    IsSnakeCase (ofName name) ∧ ofName (ofName name) = ofName name ∧
      (ofName name = name ↔ IsSnakeCase name) ∧
      (ofName name).filter Bytes.isLetter = (name.filter Bytes.isLetter).map Bytes.lowerByte := by
  refine ⟨isSnakeCase_ofName name, ofName_eq_self (isSnakeCase_ofName name),
    ⟨fun h => ?_, ofName_eq_self⟩, filter_isLetter_ofName name⟩
  rw [← h]
  exact isSnakeCase_ofName name

/-- Words, a run of capitals, brackets, a byte that is dropped and a digit in front. -/
example : ofName (Bytes.ofString "2-HTTPFilter[petName][x.y]") =
    Bytes.ofString "_http_filter_pet_name_xy" := by
  decide

end Identifier
end ApiGateway
