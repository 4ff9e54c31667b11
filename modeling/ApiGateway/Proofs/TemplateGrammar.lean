import ApiGateway.Proofs.Templates

/-!
# The grammar of templates

A template is a slash, then segments joined by slashes, then at most two further slashes, of
which one belongs to a segment in front of it.  The reader accepts the texts of this
grammar and no others, and it reads every segment as what stands between the slashes.

Main definitions:

- `Segment.WellFormed`: the segments that a template may have.
- `Segment.StandsFor`: the text of a segment, and the segment that it stands for.
- `Pattern.IsTemplate`: the texts of the grammar, with their segments and further slashes.

Main results:

- `Pattern.reads_iff`: how a segment is read.
- `Pattern.parse_eq_ok_iff`: how a template is read.
- `Pattern.accepts_exactly_templates`: what is accepted, as what, and what is refused.
-/

namespace ApiGateway

/-! ## Separators at the end -/

namespace Bytes

/-- Separators alone have empty pieces between them. -/
theorem splitOn_replicate (sep : UInt8) (n : Nat) :
    splitOn sep (List.replicate n sep) = List.replicate (n + 1) [] := by
  induction n with
  | zero => rfl
  | succ n ih => rw [List.replicate_succ, splitOn, if_pos rfl, ih, ← List.replicate_succ]

/-- Every separator behind joined pieces adds an empty piece. -/
theorem splitOn_intercalate_append {sep : UInt8} {pieces : List Bytes} (hne : pieces ≠ [])
    (hpieces : ∀ piece ∈ pieces, sep ∉ piece) (n : Nat) :
    splitOn sep ([sep].intercalate pieces ++ List.replicate n sep) =
      pieces ++ List.replicate n [] := by
  have hjoined : splitOn sep ([sep].intercalate pieces) = pieces := by
    rw [splitOn_eq]
    exact List.splitOn_intercalate sep hpieces hne
  cases n with
  | zero => rw [List.replicate_zero, List.append_nil, hjoined, List.replicate_zero, List.append_nil]
  | succ n => rw [List.replicate_succ, splitOn_append_cons, hjoined, splitOn_replicate]

end Bytes

namespace Routing

/-! ## Segments -/

namespace Segment

/--
A segment that a template may have: some text without slash, and if it begins with an opening brace,
a name between that brace and a closing one.
-/
structure WellFormed (piece : Bytes) : Prop where
  ne_nil : piece ≠ []
  slash_not_mem : (47 : UInt8) ∉ piece
  closed : piece.head? = some 123 → piece.getLast? = some 125
  named : piece.head? = some 123 → 3 ≤ piece.length

/-- A text without opening brace stands for itself, a text in braces for a parameter. -/
inductive StandsFor : Bytes → Segment → Prop where
  | literal {piece : Bytes} (h : piece.head? ≠ some 123) : StandsFor piece (.literal piece)
  | parameter (name : Bytes) : StandsFor (123 :: (name ++ [125])) (.parameter name)

/-- A text with an opening brace that is well-formed has a name in braces. -/
theorem WellFormed.exists_name {inside : Bytes} (h : WellFormed (123 :: inside)) :
    ∃ name, inside = name ++ [125] := by
  have hlong := h.named rfl
  have hinside : inside ≠ [] := by
    rintro rfl
    exact absurd hlong (by decide)
  have hlast := h.closed rfl
  rw [List.getLast?_cons_of_ne_nil hinside, List.getLast?_eq_getLast_of_ne_nil hinside] at hlast
  refine ⟨inside.dropLast, ?_⟩
  rw [← Option.some.inj hlast, List.dropLast_append_getLast]

/-- Every well-formed text stands for a segment. -/
theorem WellFormed.exists_standsFor {piece : Bytes} (h : WellFormed piece) :
    ∃ segment, StandsFor piece segment := by
  rcases List.exists_cons_of_ne_nil h.ne_nil with ⟨c, inside, rfl⟩
  by_cases hbrace : c = 123
  · subst hbrace
    rcases h.exists_name with ⟨name, rfl⟩
    exact ⟨_, .parameter name⟩
  · exact ⟨_, .literal fun hhead => hbrace (Option.some.inj hhead)⟩

/-- A well-formed text is read as what it stands for. -/
theorem WellFormed.parse_eq {piece : Bytes} {segment : Segment} (h : WellFormed piece)
    (hstands : StandsFor piece segment) : parse piece = .ok segment := by
  cases hstands with
  | literal hhead =>
      unfold parse
      split
      · exact absurd rfl hhead
      · rfl
  | parameter name =>
      have hlong := h.named rfl
      rw [List.length_cons] at hlong
      rw [parse, if_neg (not_not.2 (h.closed rfl)), if_neg (by omega), List.dropLast_concat]

/-- A text without slash that can be read is well-formed. -/
theorem wellFormed_of_parse {piece : Bytes} {segment : Segment} (hne : piece ≠ [])
    (hslash : (47 : UInt8) ∉ piece) (h : parse piece = .ok segment) : WellFormed piece := by
  unfold parse at h
  split at h
  · split at h
    · cases h
    · rename_i hclosed
      split at h
      · cases h
      · rename_i hnamed
        rw [ne_eq, not_not] at hclosed
        refine ⟨hne, hslash, fun _ => hclosed, fun _ => ?_⟩
        rw [List.length_cons]
        omega
  · rename_i hliteral
    have hhead : piece.head? ≠ some 123 := by
      intro hhead
      rcases List.head?_eq_some_iff.1 hhead with ⟨inside, rfl⟩
      exact hliteral inside rfl
    exact ⟨hne, hslash, fun hbrace => absurd hbrace hhead, fun hbrace => absurd hbrace hhead⟩

end Segment

namespace Pattern

/-- The texts without slash that are read are the well-formed ones, each as what it stands for. -/
theorem reads_iff {piece : Bytes} {segment : Segment} :
    (47 : UInt8) ∉ piece ∧ Reads piece segment ↔
      Segment.WellFormed piece ∧ Segment.StandsFor piece segment := by
  constructor
  · rintro ⟨hslash, hne, hparse⟩
    have hwell := Segment.wellFormed_of_parse hne hslash hparse
    rcases hwell.exists_standsFor with ⟨other, hstands⟩
    obtain rfl : segment = other :=
      Except.ok.inj (hparse.symm.trans (hwell.parse_eq hstands))
    exact ⟨hwell, hstands⟩
  · rintro ⟨hwell, hstands⟩
    exact ⟨hwell.slash_not_mem, hwell.ne_nil, hwell.parse_eq hstands⟩

/-- The same for the pieces of a template. -/
theorem forall₂_reads_iff {pieces : List Bytes} {segments : List Segment} :
    (∀ piece ∈ pieces, (47 : UInt8) ∉ piece) ∧ List.Forall₂ Reads pieces segments ↔
      (∀ piece ∈ pieces, Segment.WellFormed piece) ∧
        List.Forall₂ Segment.StandsFor pieces segments := by
  rw [← List.forall₂_and_left, ← List.forall₂_and_left]
  simp only [reads_iff]

/-- Well-formed texts stand for segments, one after another. -/
theorem exists_forall₂_standsFor {pieces : List Bytes}
    (h : ∀ piece ∈ pieces, Segment.WellFormed piece) :
    ∃ segments, List.Forall₂ Segment.StandsFor pieces segments := by
  induction pieces with
  | nil => exact ⟨[], .nil⟩
  | cons piece rest ih =>
      rcases List.forall_mem_cons.1 h with ⟨hfirst, hrest⟩
      rcases hfirst.exists_standsFor with ⟨segment, hsegment⟩
      rcases ih hrest with ⟨segments, hsegments⟩
      exact ⟨segment :: segments, .cons hsegment hsegments⟩

/-! ## Templates -/

/--
A slash, then segments joined by slashes, then further slashes: at most two behind a segment, and at
most one where there is none.
-/
structure IsTemplate (raw : Bytes) (pieces : List Bytes) (slashes : Nat) : Prop where
  written : raw = 47 :: ([47].intercalate pieces ++ List.replicate slashes 47)
  wellFormed : ∀ piece ∈ pieces, Segment.WellFormed piece
  length_le : pieces.length ≤ maxSegments
  slashes_le : slashes ≤ if pieces = [] then 1 else 2

/-- The pieces of a template are its segments and the empty pieces behind further slashes. -/
theorem IsTemplate.splitOn_eq {rest : Bytes} {pieces : List Bytes} {slashes : Nat}
    (h : IsTemplate (47 :: rest) pieces slashes) :
    ∃ empty ≤ 2, Bytes.splitOn 47 rest = pieces ++ List.replicate empty [] := by
  have hrest := (List.cons.inj h.written).2
  have hslashes := h.slashes_le
  by_cases hnil : pieces = []
  · rw [if_pos hnil] at hslashes
    refine ⟨slashes + 1, Nat.succ_le_succ hslashes, ?_⟩
    rw [hrest, hnil]
    exact Bytes.splitOn_replicate 47 slashes
  · rw [if_neg hnil] at hslashes
    refine ⟨slashes, hslashes, ?_⟩
    rw [hrest]
    exact Bytes.splitOn_intercalate_append hnil
      (fun piece hpiece => (h.wellFormed piece hpiece).slash_not_mem) slashes

/-- A text with such pieces is a template. -/
theorem exists_isTemplate {rest : Bytes} {pieces : List Bytes} {empty : Nat}
    (hsplit : Bytes.splitOn 47 rest = pieces ++ List.replicate empty []) (hempty : empty ≤ 2)
    (hwell : ∀ piece ∈ pieces, Segment.WellFormed piece) (hlength : pieces.length ≤ maxSegments) :
    ∃ slashes, IsTemplate (47 :: rest) pieces slashes := by
  by_cases hnil : pieces = []
  · subst hnil
    cases empty with
    | zero =>
        rw [Bytes.splitOn_eq] at hsplit
        exact absurd hsplit (List.splitOn_ne_nil 47 rest)
    | succ slashes =>
        have hrest : rest = List.replicate slashes 47 := by
          apply Bytes.splitOn_injective 47
          rw [hsplit, Bytes.splitOn_replicate, List.nil_append]
        refine ⟨slashes, congrArg (47 :: ·) hrest, hwell, hlength, ?_⟩
        rw [if_pos rfl]
        exact Nat.le_of_succ_le_succ hempty
  · have hrest : rest = [47].intercalate pieces ++ List.replicate empty 47 := by
      apply Bytes.splitOn_injective 47
      rw [hsplit, Bytes.splitOn_intercalate_append hnil
        fun piece hpiece => (hwell piece hpiece).slash_not_mem]
    refine ⟨empty, congrArg (47 :: ·) hrest, hwell, hlength, ?_⟩
    rw [if_neg hnil]
    exact hempty

/-- A template is read as the segments for which its texts stand, and nothing else is read. -/
theorem parse_eq_ok_iff {raw : Bytes} {p : Pattern} :
    parse raw = .ok p ↔ p.text = raw ∧ ∃ pieces slashes, IsTemplate raw pieces slashes ∧
      List.Forall₂ Segment.StandsFor pieces p.segments := by
  constructor
  · intro h
    rcases exists_of_parse h with ⟨rest, rfl, htext, hsegments⟩
    rcases parsePieces_eq_ok_iff.1 hsegments with ⟨pieces, empty, hsplit, hempty, hroom, hreads⟩
    have hslash : ∀ piece ∈ pieces, (47 : UInt8) ∉ piece := by
      intro piece hpiece
      apply Bytes.not_mem_of_mem_splitOn (s := rest)
      rw [hsplit]
      exact List.mem_append_left _ hpiece
    rcases forall₂_reads_iff.1 ⟨hslash, hreads⟩ with ⟨hwell, hstands⟩
    rcases exists_isTemplate hsplit hempty hwell hroom with ⟨slashes, htemplate⟩
    exact ⟨htext, pieces, slashes, htemplate, hstands⟩
  · rintro ⟨htext, pieces, slashes, htemplate, hstands⟩
    obtain ⟨rest, rfl⟩ : ∃ rest, raw = 47 :: rest := ⟨_, htemplate.written⟩
    rcases htemplate.splitOn_eq with ⟨empty, hempty, hsplit⟩
    have hreads := (forall₂_reads_iff.2 ⟨htemplate.wellFormed, hstands⟩).2
    rw [parse, if_pos rfl,
      parsePieces_eq_ok_iff.2 ⟨pieces, empty, hsplit, hempty, htemplate.length_le, hreads⟩]
    cases p
    cases htext
    rfl

/--
A text is accepted exactly if it is a template.  The pattern keeps the text, has as many segments as
the text, and each of them is what the text between the slashes stands for.  Any other text is
refused as an invalid argument.
-/
theorem accepts_exactly_templates (raw : Bytes) :
    (∀ pieces slashes, IsTemplate raw pieces slashes → ∃ p, parse raw = .ok p ∧ p.text = raw ∧
      p.segmentCount = pieces.length ∧ List.Forall₂ Segment.StandsFor pieces p.segments) ∧
    ((∀ pieces slashes, ¬IsTemplate raw pieces slashes) → ∃ e text, parse raw = .error e ∧
      e.toFault = .invalidArgument text) := by
  constructor
  · intro pieces slashes htemplate
    rcases exists_forall₂_standsFor htemplate.wellFormed with ⟨segments, hstands⟩
    have hparse : parse raw = .ok ⟨raw, segments⟩ :=
      parse_eq_ok_iff.2 ⟨rfl, pieces, slashes, htemplate, hstands⟩
    exact ⟨_, hparse, rfl, hstands.length_eq.symm, hstands⟩
  · intro hnone
    cases hparse : parse raw with
    | ok p =>
        rcases parse_eq_ok_iff.1 hparse with ⟨-, pieces, slashes, htemplate, -⟩
        exact absurd htemplate (hnone pieces slashes)
    | error e => exact ⟨e, e.message, rfl, rfl⟩

/-- Two slashes may stand behind the last segment, a third one may not. -/
example : (parse [47, 118, 47, 47]).isOk = true ∧ (parse [47, 118, 47, 47, 47]).isOk = false := by
  decide

end Pattern
end Routing
end ApiGateway
