import Mathlib.Tactic.MkIffOfInductiveProp
import ApiGateway.Http.Cookies
import ApiGateway.Proofs.Templates
import ApiGateway.Proofs.TrimmedTexts

/-!
# Written cookies

A cookie is written as its name, `=` and its value, with as many blanks and tabs around the two as
one likes, and cookies are joined by semicolons.  A header is read part by part.  What is read from
a part is a cookie that the part writes, and a part that does not name a cookie is passed over.

Main definitions:

- `Cookies.IsCookie`: the pairs that a header can hold.
- `Cookies.WritesPair`: a part of a header is a way to write a pair.
- `Cookies.IsNameless`: a part of a header that does not name a cookie.

Main results:

- `Cookies.parsePart_eq_some_iff`, `Cookies.parsePart_eq_none_iff`: what is read from a part.
- `Cookies.reads_what_is_written`: a header of written cookies gives them back, and every header
  gives the cookies that its parts write.
-/

namespace ApiGateway
namespace Http
namespace Cookies

/-! ## Cookies and parts -/

/-- A pair that a header can hold: a name, which is cut off at `=`, and a value. -/
@[mk_iff]
structure IsCookie (pair : Bytes × Bytes) : Prop where
  name_ne_nil : pair.1 ≠ []
  equals_not_mem_name : 61 ∉ pair.1
  semicolon_not_mem_name : 59 ∉ pair.1
  semicolon_not_mem_value : 59 ∉ pair.2
  name_trimmed : Bytes.IsTrimmed isBlank pair.1
  value_trimmed : Bytes.IsTrimmed isBlank pair.2

instance : DecidablePred IsCookie :=
  fun pair => decidable_of_iff _ (isCookie_iff pair).symm

/-- A text of blanks and tabs. -/
def IsBlanks (s : Bytes) : Prop :=
  ∀ c ∈ s, isBlank c = true

/-- A part writes a pair: its name, `=` and its value, with blanks and tabs around the two. -/
def WritesPair (pair : Bytes × Bytes) (part : Bytes) : Prop :=
  ∃ before behind front after, IsBlanks before ∧ IsBlanks behind ∧ IsBlanks front ∧
    IsBlanks after ∧
      part = before ++ pair.1 ++ behind ++ 61 :: (front ++ pair.2 ++ after)

/-- After trimming, a part has no `=` or begins with one. -/
def IsNameless (part : Bytes) : Prop :=
  61 ∉ Bytes.trim isBlank part ∨ (Bytes.trim isBlank part).head? = some 61

instance : DecidablePred IsNameless :=
  fun _ => inferInstanceAs (Decidable (_ ∨ _))

/-- A byte that is no blank is not among blanks. -/
theorem IsBlanks.not_mem {s : Bytes} (h : IsBlanks s) {c : UInt8} (hc : isBlank c = false) :
    c ∉ s := by
  intro hmem
  rw [h c hmem] at hc
  cases hc

/-- A part that writes a cookie has no semicolon. -/
theorem WritesPair.semicolon_not_mem {pair : Bytes × Bytes} {part : Bytes}
    (h : WritesPair pair part) (hpair : IsCookie pair) : 59 ∉ part := by
  rcases h with ⟨before, behind, front, after, hbefore, hbehind, hfront, hafter, rfl⟩
  simp [hbefore.not_mem, hbehind.not_mem, hfront.not_mem, hafter.not_mem,
    hpair.semicolon_not_mem_name, hpair.semicolon_not_mem_value, isBlank]

/-! ## Parts that are read -/

/-- Nothing is read from a part without `=`. -/
theorem parsePart_of_not_mem {part : Bytes} (h : 61 ∉ part) : parsePart part = none := by
  have htrim : 61 ∉ Bytes.trim isBlank part := mt Bytes.mem_of_mem_trim h
  rw [parsePart, Bytes.cut_of_not_mem htrim]
  split
  next => rfl
  next => rfl
  next heq => cases heq

/-- A part is read as what is before and what is behind its first `=`, each trimmed by itself. -/
theorem parsePart_append_cons {name : Bytes} (h : 61 ∉ name) (value : Bytes) :
    parsePart (name ++ 61 :: value) =
      if Bytes.trim isBlank name = [] then none
      else some (Bytes.trim isBlank name, Bytes.trim isBlank value) := by
  have hdrop : 61 ∉ name.dropWhile isBlank := fun hmem =>
    h ((List.dropWhile_sublist isBlank).mem hmem)
  have hname : Bytes.trim isBlank (name.dropWhile isBlank) = Bytes.trim isBlank name := by
    rw [Bytes.trim, Bytes.trim, List.dropWhile_idempotent]
  have hvalue : Bytes.trim isBlank (Bytes.trimEnd isBlank value) = Bytes.trim isBlank value := by
    obtain ⟨⟨blanks, hsplit, hblanks⟩, -⟩ := Bytes.trimEnd_eq_iff.1
      (Eq.refl (Bytes.trimEnd isBlank value))
    conv => rhs; rw [hsplit]
    exact (Bytes.trim_append_blanks hblanks _).symm
  rw [parsePart, Bytes.trim_append_cons rfl, Bytes.cut_append_cons hdrop]
  simp only [Bytes.trim_eq_nil_iff]
  rw [← hname, ← hvalue]
  cases name.dropWhile isBlank with
  | nil => rfl
  | cons c rest => rfl

/-- What is read from a part is the cookie that it writes. -/
theorem parsePart_eq_some_iff {part : Bytes} (h : 59 ∉ part) {pair : Bytes × Bytes} :
    parsePart part = some pair ↔ IsCookie pair ∧ WritesPair pair part := by
  constructor
  · intro hpart
    rcases Bytes.cut_cases 61 part with ⟨hnone, -⟩ | ⟨name, value, rfl, hname, -⟩
    · rw [parsePart_of_not_mem hnone] at hpart
      cases hpart
    · rw [parsePart_append_cons hname] at hpart
      split at hpart
      next => cases hpart
      next hne =>
        obtain rfl := Option.some.inj hpart
        obtain ⟨before, behind, hsplit, hbefore, hbehind⟩ :=
          Bytes.exists_eq_append_trim isBlank name
        obtain ⟨front, after, hsplit', hfront, hafter⟩ :=
          Bytes.exists_eq_append_trim isBlank value
        refine ⟨?_, before, behind, front, after, hbefore, hbehind, hfront, hafter, ?_⟩
        · exact {
            name_ne_nil := hne
            equals_not_mem_name := mt Bytes.mem_of_mem_trim hname
            semicolon_not_mem_name := fun hc =>
              h (List.mem_append_left _ (Bytes.mem_of_mem_trim hc))
            semicolon_not_mem_value := fun hc =>
              h (List.mem_append_right _ (List.mem_cons_of_mem _ (Bytes.mem_of_mem_trim hc)))
            name_trimmed := Bytes.isTrimmed_trim isBlank name
            value_trimmed := Bytes.isTrimmed_trim isBlank value }
        · rw [← hsplit, ← hsplit']
  · rintro ⟨hcookie, before, behind, front, after, hbefore, hbehind, hfront, hafter, rfl⟩
    have hequals : 61 ∉ before ++ pair.1 ++ behind := by
      simp [hbefore.not_mem, hbehind.not_mem, hcookie.equals_not_mem_name, isBlank]
    have hname : Bytes.trim isBlank (before ++ pair.1 ++ behind) = pair.1 :=
      Bytes.trim_eq_iff.2 ⟨⟨before, behind, rfl, hbefore, hbehind⟩, hcookie.name_trimmed⟩
    have hvalue : Bytes.trim isBlank (front ++ pair.2 ++ after) = pair.2 :=
      Bytes.trim_eq_iff.2 ⟨⟨front, after, rfl, hfront, hafter⟩, hcookie.value_trimmed⟩
    rw [parsePart_append_cons hequals, hname, hvalue, if_neg hcookie.name_ne_nil]

/-- Nothing is read from a part exactly if it does not name a cookie. -/
theorem parsePart_eq_none_iff {part : Bytes} : parsePart part = none ↔ IsNameless part := by
  rcases Bytes.cut_cases 61 part with ⟨hnone, -⟩ | ⟨name, value, rfl, hname, -⟩
  · exact iff_of_true (parsePart_of_not_mem hnone) (.inl (mt Bytes.mem_of_mem_trim hnone))
  · have hequals : 61 ∈ name.dropWhile isBlank ++ 61 :: Bytes.trimEnd isBlank value :=
      List.mem_append_right _ List.mem_cons_self
    rw [parsePart_append_cons hname, IsNameless, Bytes.trim_append_cons rfl,
      or_iff_right (not_not_intro hequals)]
    simp only [Bytes.trim_eq_nil_iff]
    cases hdrop : name.dropWhile isBlank with
    | nil => exact iff_of_true rfl rfl
    | cons c rest =>
        refine iff_of_false (Option.some_ne_none _) fun hhead => hname ?_
        obtain rfl : c = 61 := Option.some.inj hhead
        apply (List.dropWhile_sublist isBlank).mem
        rw [hdrop]
        exact List.mem_cons_self

/-! ## Headers -/

/-- A header is read part by part. -/
theorem parse_intercalate {parts : List Bytes} (h : ∀ part ∈ parts, 59 ∉ part) :
    parse ([59].intercalate parts) = parts.filterMap parsePart := by
  by_cases hnone : parts = []
  · subst hnone
    rfl
  · rw [parse, Bytes.splitOn_eq, List.splitOn_intercalate 59 h hnone]

/-- The parts that name a cookie write what is read from them. -/
theorem forall₂_writesPair {parts : List Bytes} (h : ∀ part ∈ parts, 59 ∉ part) :
    List.Forall₂ WritesPair (parts.filterMap parsePart)
      (parts.filter fun part => ¬IsNameless part) := by
  induction parts with
  | nil => exact .nil
  | cons part rest ih =>
      rw [List.forall_mem_cons] at h
      cases hpart : parsePart part with
      | none =>
          have hnameless := parsePart_eq_none_iff.1 hpart
          rw [List.filterMap_cons_none hpart, List.filter_cons_of_neg (by simpa using hnameless)]
          exact ih h.2
      | some pair =>
          have hnamed : ¬IsNameless part := by
            rw [← parsePart_eq_none_iff, hpart]
            exact Option.some_ne_none pair
          rw [List.filterMap_cons_some hpart, List.filter_cons_of_pos (by simpa using hnamed)]
          exact .cons ((parsePart_eq_some_iff h.1).1 hpart).2 (ih h.2)

/-- What is read is a list of cookies. -/
theorem isCookie_of_mem_parse {header : Bytes} {pair : Bytes × Bytes} (h : pair ∈ parse header) :
    IsCookie pair := by
  rcases List.mem_filterMap.1 h with ⟨part, hpart, hpair⟩
  exact ((parsePart_eq_some_iff (Bytes.not_mem_of_mem_splitOn hpart)).1 hpair).1

/-- Written cookies are read back part by part. -/
theorem filterMap_parsePart_of_writesPair {pairs : List (Bytes × Bytes)} {parts : List Bytes}
    (hpairs : ∀ pair ∈ pairs, IsCookie pair) (h : List.Forall₂ WritesPair pairs parts) :
    parts.filterMap parsePart = pairs ∧ ∀ part ∈ parts, 59 ∉ part := by
  induction h with
  | nil => exact ⟨rfl, fun _ hmem => nomatch hmem⟩
  | cons hfirst _ ih =>
      rw [List.forall_mem_cons] at hpairs
      have hsemicolon := hfirst.semicolon_not_mem hpairs.1
      have hread := (parsePart_eq_some_iff hsemicolon).2 ⟨hpairs.1, hfirst⟩
      obtain ⟨hrest, hparts⟩ := ih hpairs.2
      rw [List.filterMap_cons_some hread, hrest]
      exact ⟨rfl, List.forall_mem_cons.2 ⟨hsemicolon, hparts⟩⟩

/--
Cookies that are written one after another, in any way, are read back in their order.  Whatever
the header is, what is read from it are cookies, and its parts write them in their order, all but
those that do not name a cookie, which contribute nothing.
-/
theorem reads_what_is_written :
    (∀ (pairs : List (Bytes × Bytes)) (parts : List Bytes), (∀ pair ∈ pairs, IsCookie pair) →
      List.Forall₂ WritesPair pairs parts → parse ([59].intercalate parts) = pairs) ∧
    ∀ header, (∀ pair ∈ parse header, IsCookie pair) ∧
      ∃ parts, [59].intercalate parts = header ∧ (∀ part ∈ parts, 59 ∉ part) ∧
        List.Forall₂ WritesPair (parse header) (parts.filter fun part => ¬IsNameless part) := by
  constructor
  · intro pairs parts hpairs hparts
    obtain ⟨hread, hsemicolons⟩ := filterMap_parsePart_of_writesPair hpairs hparts
    rw [parse_intercalate hsemicolons, hread]
  · intro header
    have hsemicolons : ∀ part ∈ Bytes.splitOn 59 header, 59 ∉ part :=
      fun part hpart => Bytes.not_mem_of_mem_splitOn hpart
    refine ⟨fun pair hpair => isCookie_of_mem_parse hpair, Bytes.splitOn 59 header, ?_, hsemicolons,
      forall₂_writesPair hsemicolons⟩
    rw [Bytes.splitOn_eq, List.intercalate_splitOn]

/-- Blanks and tabs, an empty value, a value with `=`, blanks and a tab inside, a repeated name. -/
theorem reads_spaced_cookies :
    let pairs : List (Bytes × Bytes) := [(Bytes.ofString "a", []),
      (Bytes.ofString "b c", Bytes.ofString "1=\t2 3"), (Bytes.ofString "a", Bytes.ofString "x")]
    let parts : List Bytes := [Bytes.ofString "a =", Bytes.ofString "\t b c=  1=\t2 3 ",
      Bytes.ofString " a=x"]
    (∀ pair ∈ pairs, IsCookie pair) ∧ List.Forall₂ WritesPair pairs parts ∧
      parse (Bytes.ofString "a =;\t b c=  1=\t2 3 ; a=x") = pairs := by
  intro pairs parts
  have hpairs : ∀ pair ∈ pairs, IsCookie pair := by decide
  have hblanks : IsBlanks [] ∧ IsBlanks [32] ∧ IsBlanks [32, 32] ∧ IsBlanks [9, 32] := by
    simp [IsBlanks, isBlank]
  obtain ⟨hnone, hblank, hblanks, htab⟩ := hblanks
  have hparts : List.Forall₂ WritesPair pairs parts :=
    .cons ⟨[], [32], [], [], hnone, hblank, hnone, hnone, rfl⟩
      (.cons ⟨[9, 32], [], [32, 32], [32], htab, hnone, hblanks, hblank, rfl⟩
        (.cons ⟨[32], [], [], [], hblank, hnone, hnone, hnone, rfl⟩ .nil))
  exact ⟨hpairs, hparts, reads_what_is_written.1 pairs parts hpairs hparts⟩

end Cookies
end Http
end ApiGateway
