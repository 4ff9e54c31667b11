import Mathlib.Data.List.DropRight
import ApiGateway.Bytes

/-!
# Cut and trimmed texts

A text is cut at its first separator, and trimmed of the blanks at its ends.  What is left is
described by the text itself: it is put together again from the parts, and the parts say why the
cut is where it is.

Main definitions:

- `Bytes.IsTrimmed`: a text without blanks at its ends.

Main results:

- `Bytes.cut_cases`, `Bytes.cut_fst_eq_iff`, `Bytes.cut_eq_some_iff`: the two sides of a cut.
- `Bytes.trimEnd_eq_iff`, `Bytes.trim_eq_iff`: what is left of a trimmed text.
-/

namespace ApiGateway
namespace Bytes

/-! ## Cut texts -/

/-- A text is cut at its first separator. -/
theorem cut_append_cons {sep : UInt8} {before : Bytes} (h : sep ∉ before) (after : Bytes) :
    cut sep (before ++ sep :: after) = (before, some after) := by
  induction before with
  | nil => rw [List.nil_append, cut, if_pos rfl]
  | cons c rest ih =>
      rw [List.mem_cons, not_or] at h
      rw [List.cons_append, cut, if_neg (Ne.symm h.1), ih h.2]

/-- A text without separator is not cut. -/
theorem cut_of_not_mem {sep : UInt8} {s : Bytes} (h : sep ∉ s) : cut sep s = (s, none) := by
  induction s with
  | nil => rfl
  | cons c rest ih =>
      rw [List.mem_cons, not_or] at h
      rw [cut, if_neg (Ne.symm h.1), ih h.2]

/-- A text is cut at its first separator, or it has none. -/
theorem cut_cases (sep : UInt8) (s : Bytes) :
    (sep ∉ s ∧ cut sep s = (s, none)) ∨
      ∃ before after, s = before ++ sep :: after ∧ sep ∉ before ∧
        cut sep s = (before, some after) := by
  by_cases h : sep ∈ s
  · rcases List.eq_append_cons_of_mem h with ⟨before, after, rfl, hbefore⟩
    exact .inr ⟨before, after, rfl, hbefore, cut_append_cons hbefore after⟩
  · exact .inl ⟨h, cut_of_not_mem h⟩

/-- What is before the first separator. -/
theorem cut_fst_eq_iff {sep : UInt8} {s before : Bytes} :
    (cut sep s).1 = before ↔
      sep ∉ before ∧ ∃ rest, s = before ++ rest ∧ (rest = [] ∨ ∃ after, rest = sep :: after) := by
  constructor
  · rintro rfl
    rcases cut_cases sep s with ⟨hnone, hcut⟩ | ⟨before, after, rfl, hbefore, hcut⟩
    · rw [hcut]
      exact ⟨hnone, [], (List.append_nil s).symm, .inl rfl⟩
    · rw [hcut]
      exact ⟨hbefore, _, rfl, .inr ⟨after, rfl⟩⟩
  · rintro ⟨hbefore, rest, rfl, rfl | ⟨after, rfl⟩⟩
    · rw [List.append_nil, cut_of_not_mem hbefore]
    · rw [cut_append_cons hbefore]

/-- What is cut off begins the text. -/
theorem cut_isPrefix (sep : UInt8) (s : Bytes) : (cut sep s).1 <+: s := by
  obtain ⟨-, rest, hsplit, -⟩ := cut_fst_eq_iff.1 (Eq.refl (cut sep s).1)
  exact ⟨rest, hsplit.symm⟩

/-- What is before and what is after the first separator. -/
theorem cut_eq_some_iff {sep : UInt8} {s before after : Bytes} :
    cut sep s = (before, some after) ↔ s = before ++ sep :: after ∧ sep ∉ before := by
  constructor
  · intro h
    rcases cut_cases sep s with ⟨-, hcut⟩ | ⟨first, rest, rfl, hfirst, hcut⟩
    · rw [hcut] at h
      cases h
    · rw [hcut] at h
      cases h
      exact ⟨rfl, hfirst⟩
  · rintro ⟨rfl, hbefore⟩
    exact cut_append_cons hbefore after

/-! ## Trimmed texts -/

/-- What is left after trimming the end: all up to the last byte that is not blank. -/
theorem trimEnd_eq_iff {blank : UInt8 → Bool} {s t : Bytes} :
    trimEnd blank s = t ↔
      (∃ blanks, s = t ++ blanks ∧ ∀ c ∈ blanks, blank c = true) ∧
        ∀ c, t.getLast? = some c → blank c = false := by
  have htrim : trimEnd blank s = s.rdropWhile blank := rfl
  rw [htrim]
  constructor
  · rintro rfl
    refine ⟨⟨s.rtakeWhile blank, List.rdropWhile_append_rtakeWhile.symm,
      fun c hc => List.mem_rtakeWhile_imp hc⟩, fun c hlast => ?_⟩
    have hne : s.rdropWhile blank ≠ [] := by
      rintro hnil
      rw [hnil] at hlast
      cases hlast
    rw [List.getLast?_eq_getLast_of_ne_nil hne] at hlast
    have hkept := List.rdropWhile_last_not blank s hne
    rw [Option.some.inj hlast] at hkept
    exact Bool.eq_false_iff.2 hkept
  · rintro ⟨⟨blanks, rfl, hblanks⟩, hlast⟩
    clear htrim
    induction blanks using List.reverseRecOn with
    | nil =>
        rw [List.append_nil, List.rdropWhile_eq_self_iff]
        intro hne
        exact Bool.eq_false_iff.1 (hlast _ (List.getLast?_eq_getLast_of_ne_nil hne))
    | append_singleton blanks c ih =>
        rw [List.forall_mem_append, List.forall_mem_singleton] at hblanks
        rw [← List.append_assoc, List.rdropWhile_concat_pos _ _ _ hblanks.2]
        exact ih hblanks.1

/-- What is left after trimming the end begins the text. -/
theorem trimEnd_isPrefix (blank : UInt8 → Bool) (s : Bytes) : trimEnd blank s <+: s := by
  obtain ⟨⟨blanks, hsplit, -⟩, -⟩ := trimEnd_eq_iff.1 (Eq.refl (trimEnd blank s))
  exact ⟨blanks, hsplit.symm⟩

/-- A text neither begins nor ends with a blank. -/
structure IsTrimmed (blank : UInt8 → Bool) (s : Bytes) : Prop where
  head : ∀ c ∈ s.head?, blank c = false
  last : ∀ c ∈ s.getLast?, blank c = false

/-- Only the first and the last byte are looked at. -/
theorem isTrimmed_iff {blank : UInt8 → Bool} {s : Bytes} :
    IsTrimmed blank s ↔ s.head?.all (!blank ·) = true ∧ s.getLast?.all (!blank ·) = true := by
  simp only [Option.all_eq_true, Bool.not_eq_true']
  exact ⟨fun h => ⟨h.head, h.last⟩, fun h => ⟨h.1, h.2⟩⟩

instance (blank : UInt8 → Bool) (s : Bytes) : Decidable (IsTrimmed blank s) :=
  decidable_of_iff _ isTrimmed_iff.symm

/-- What is left after trimming: all between the first and the last byte that are not blank. -/
theorem trim_eq_iff {blank : UInt8 → Bool} {s t : Bytes} :
    trim blank s = t ↔
      (∃ before after, s = before ++ t ++ after ∧ (∀ c ∈ before, blank c = true) ∧
        ∀ c ∈ after, blank c = true) ∧ IsTrimmed blank t := by
  change trimEnd blank (s.dropWhile blank) = t ↔ _
  rw [trimEnd_eq_iff]
  constructor
  · rintro ⟨⟨after, hdrop, hafter⟩, hlast⟩
    refine ⟨⟨s.takeWhile blank, after, ?_, fun c hc => List.mem_takeWhile_imp hc, hafter⟩, ?_,
      hlast⟩
    · rw [List.append_assoc, ← hdrop, List.takeWhile_append_dropWhile]
    · intro c hhead
      have hkept := List.head?_dropWhile_not blank s
      rw [hdrop, List.head?_append, hhead] at hkept
      exact hkept
  · rintro ⟨⟨before, after, rfl, hbefore, hafter⟩, htrimmed⟩
    refine ⟨?_, htrimmed.last⟩
    rw [List.append_assoc, List.dropWhile_append_of_pos hbefore]
    cases t with
    | nil => exact ⟨[], List.dropWhile_eq_nil_iff.2 hafter, fun c hc => nomatch hc⟩
    | cons c rest =>
        have hkept : ¬blank c = true := Bool.eq_false_iff.1 (htrimmed.head c rfl)
        exact ⟨after, List.dropWhile_cons_of_neg hkept, hafter⟩

/-- What is left after trimming neither begins nor ends with a blank. -/
theorem isTrimmed_trim (blank : UInt8 → Bool) (s : Bytes) : IsTrimmed blank (trim blank s) :=
  (trim_eq_iff.1 rfl).2

/-- A text and what is left of it after trimming. -/
theorem exists_eq_append_trim (blank : UInt8 → Bool) (s : Bytes) :
    ∃ before after, s = before ++ trim blank s ++ after ∧ (∀ c ∈ before, blank c = true) ∧
      ∀ c ∈ after, blank c = true :=
  (trim_eq_iff.1 rfl).1

/-- What is left after trimming has been there before. -/
theorem mem_of_mem_trim {blank : UInt8 → Bool} {s : Bytes} {c : UInt8} (h : c ∈ trim blank s) :
    c ∈ s := by
  obtain ⟨before, after, hsplit, -, -⟩ := exists_eq_append_trim blank s
  rw [hsplit]
  exact List.mem_append_left _ (List.mem_append_right _ h)

/-- Further blanks at the end make no difference. -/
theorem trim_append_blanks {blank : UInt8 → Bool} {blanks : Bytes}
    (h : ∀ c ∈ blanks, blank c = true) (s : Bytes) :
    trim blank (s ++ blanks) = trim blank s := by
  obtain ⟨before, after, hsplit, hbefore, hafter⟩ := exists_eq_append_trim blank s
  refine trim_eq_iff.2 ⟨⟨before, after ++ blanks, ?_, hbefore, ?_⟩, isTrimmed_trim blank s⟩
  · rw [← List.append_assoc, ← hsplit]
  · exact List.forall_mem_append.2 ⟨hafter, h⟩

/-- Nothing is left after trimming exactly if there is nothing behind the blanks in front. -/
theorem trim_eq_nil_iff {blank : UInt8 → Bool} {s : Bytes} :
    trim blank s = [] ↔ s.dropWhile blank = [] := by
  constructor
  · intro h
    obtain ⟨before, after, hsplit, hbefore, hafter⟩ := exists_eq_append_trim blank s
    rw [h, List.append_nil] at hsplit
    rw [hsplit]
    exact List.dropWhile_eq_nil_iff.2 (List.forall_mem_append.2 ⟨hbefore, hafter⟩)
  · intro h
    rw [trim, h]
    rfl

/-- Trimming leaves a byte that is no blank, and works on either side of it. -/
theorem trim_append_cons {blank : UInt8 → Bool} {c : UInt8} (hc : blank c = false)
    (before after : Bytes) :
    trim blank (before ++ c :: after) = before.dropWhile blank ++ c :: trimEnd blank after := by
  obtain ⟨⟨blanks, hafter, hblanks⟩, hlast⟩ := trimEnd_eq_iff.1 (Eq.refl (trimEnd blank after))
  have hfront : ∀ d ∈ before.takeWhile blank, blank d = true :=
    fun d hd => List.mem_takeWhile_imp hd
  refine trim_eq_iff.2 ⟨⟨before.takeWhile blank, blanks, ?_, hfront, hblanks⟩, ?_, ?_⟩
  · rw [← List.append_assoc, List.takeWhile_append_dropWhile, List.append_assoc, List.cons_append,
      ← hafter]
  · intro d hd
    have hkept := List.head?_dropWhile_not blank before
    rw [List.head?_append] at hd
    cases hdrop : (before.dropWhile blank).head? with
    | none => rw [hdrop] at hd; exact Option.some.inj hd ▸ hc
    | some first =>
        rw [hdrop] at hd hkept
        exact Option.some.inj hd ▸ hkept
  · intro d hd
    rw [List.getLast?_append, List.getLast?_cons] at hd
    cases hend : (trimEnd blank after).getLast? with
    | none => rw [hend] at hd; exact Option.some.inj hd ▸ hc
    | some last => rw [hend] at hd; exact Option.some.inj hd ▸ hlast last hend

end Bytes
end ApiGateway
