import Mathlib.Data.List.Forall2
import ApiGateway.Proofs.Escapes
import ApiGateway.Registry
import ApiGateway.Routing.Pattern

/-!
# Filled templates

A template is filled by putting an escaped value in place of every parameter.  Escaped
values have no slash, so the pieces of a filled template are the filled pieces, and
the template matches it with the values that have been put in, still escaped.

Main definitions:

- `Pattern.names`: the parameter names of a template.
- `fill`: a template with its parameters replaced by escaped values.
- `captures`: the parameters that a filled template gives back.

Main results:

- `Pattern.parsePieces_eq_ok_iff`: the segments of a template are read from its pieces.
- `Pattern.match?_fill`: a template matches what it has been filled to.
- `Pattern.endsPath_of_mem_fill`: a filled template is not cut off as a target.
- `Bytes.splitOn_isPrefix_iff`: texts whose first pieces are those of another text.
-/

namespace ApiGateway

/-! ## Pieces between separators -/

namespace Bytes

/-- Splitting at a byte. -/
theorem splitOn_eq (sep : UInt8) (s : Bytes) : splitOn sep s = List.splitOn sep s := by
  induction s with
  | nil => rfl
  | cons c rest ih =>
      rw [List.splitOn, List.splitOnP_cons_eq_if_modifyHead, ← List.splitOn, ← ih, splitOn]
      by_cases h : c = sep
      · rw [if_pos h, if_pos (beq_iff_eq.2 h)]
      · rw [if_neg h, if_neg (by simpa using h)]
        cases hpieces : splitOn sep rest with
        | nil => exact absurd (ih.symm.trans hpieces) (List.splitOn_ne_nil sep rest)
        | cons piece pieces => rfl

/-- No piece has the separator. -/
theorem not_mem_of_mem_splitOn {sep : UInt8} {s piece : Bytes} (h : piece ∈ splitOn sep s) :
    sep ∉ piece := by
  induction s generalizing piece with
  | nil =>
      rw [List.mem_singleton.1 h]
      exact List.not_mem_nil
  | cons c rest ih =>
      rw [splitOn] at h
      by_cases hc : c = sep
      · rw [if_pos hc, List.mem_cons] at h
        rcases h with rfl | h
        · exact List.not_mem_nil
        · exact ih h
      · rw [if_neg hc] at h
        cases hpieces : splitOn sep rest with
        | nil =>
            rw [hpieces] at h
            rw [List.mem_singleton.1 h]
            simpa using Ne.symm hc
        | cons first others =>
            rw [hpieces] at h ih
            rcases List.mem_cons.1 h with rfl | h
            · rw [List.mem_cons, not_or]
              exact ⟨Ne.symm hc, ih List.mem_cons_self⟩
            · exact ih (List.mem_cons_of_mem first h)

/-- A text is determined by its pieces. -/
theorem splitOn_injective (sep : UInt8) : Function.Injective (splitOn sep) := by
  intro s t h
  have hjoined := congrArg [sep].intercalate h
  rw [splitOn_eq, splitOn_eq, List.intercalate_splitOn, List.intercalate_splitOn] at hjoined
  exact hjoined

/-- Around a separator a text is split into the pieces on either side. -/
theorem splitOn_append_cons (sep : UInt8) (s t : Bytes) :
    splitOn sep (s ++ sep :: t) = splitOn sep s ++ splitOn sep t := by
  simp only [splitOn_eq, List.splitOn_append_cons_self]

/-- Some of the pieces of a text, joined, are split into themselves. -/
theorem splitOn_intercalate {sep : UInt8} {s : Bytes} {pieces : List Bytes}
    (hne : pieces ≠ []) (hsubset : pieces ⊆ splitOn sep s) :
    splitOn sep ([sep].intercalate pieces) = pieces := by
  rw [splitOn_eq]
  exact List.splitOn_intercalate sep (fun _ hpiece => not_mem_of_mem_splitOn (hsubset hpiece)) hne

/-- One text has the pieces of another one first exactly if it goes on with a separator there. -/
theorem splitOn_isPrefix_iff {sep : UInt8} {s t : Bytes} :
    splitOn sep s <+: splitOn sep t ↔ t = s ∨ ∃ rest, t = s ++ sep :: rest := by
  constructor
  · rintro ⟨pieces, hpieces⟩
    by_cases hnil : pieces = []
    · rw [hnil, List.append_nil] at hpieces
      exact .inl (splitOn_injective sep hpieces.symm)
    · have hsubset : pieces ⊆ splitOn sep t := by
        rw [← hpieces]
        exact List.subset_append_right _ _
      refine .inr ⟨[sep].intercalate pieces, splitOn_injective sep ?_⟩
      rw [splitOn_append_cons, splitOn_intercalate hnil hsubset, hpieces]
  · rintro (rfl | ⟨rest, rfl⟩)
    · exact List.prefix_rfl
    · rw [splitOn_append_cons]
      exact List.prefix_append _ _

/-- Joined pieces have the bytes of the pieces and the separator. -/
theorem mem_intercalate {sep c : UInt8} {pieces : List Bytes} (h : c ∈ [sep].intercalate pieces) :
    c = sep ∨ ∃ piece ∈ pieces, c ∈ piece := by
  rw [List.intercalate, List.mem_flatten] at h
  rcases h with ⟨part, hpart, hc⟩
  induction pieces with
  | nil => cases hpart
  | cons first rest ih =>
      cases rest with
      | nil =>
          rw [List.intersperse_singleton] at hpart
          exact .inr ⟨part, hpart, hc⟩
      | cons second rest =>
          rw [List.intersperse_cons_cons, List.mem_cons, List.mem_cons] at hpart
          rcases hpart with rfl | rfl | hpart
          · exact .inr ⟨part, List.mem_cons_self, hc⟩
          · exact .inl (List.mem_singleton.1 hc)
          · rcases ih hpart with h | ⟨piece, hpiece, h⟩
            · exact .inl h
            · exact .inr ⟨piece, List.mem_cons_of_mem _ hpiece, h⟩

end Bytes

namespace Routing

/-! ## Segments -/

/-- The name of a parameter segment. -/
def Segment.name? : Segment → Option Bytes
  | .literal _ => none
  | .parameter name => some name

/-- A literal segment is its piece. -/
theorem Segment.eq_of_parse_literal {piece text : Bytes}
    (h : parse piece = .ok (.literal text)) : piece = text := by
  unfold parse at h
  split at h
  · split at h
    · cases h
    · split at h <;> cases h
  · cases h
    rfl

/-- A piece of a template, where an escaped value replaces a parameter. -/
def fillPiece (values : Bytes → Bytes) (piece : Bytes) : Bytes :=
  match Segment.parse piece with
  | .ok (.parameter name) => Http.Percent.encode (values name)
  | _ => piece

/-- A template where an escaped value replaces every parameter. -/
def fill (values : Bytes → Bytes) (template : Bytes) : Bytes :=
  [47].intercalate ((Bytes.splitOn 47 template).map (fillPiece values))

/-- The parameters of a filled template: the names with their escaped values. -/
def captures (values : Bytes → Bytes) (segments : List Segment) : Params :=
  (segments.filterMap Segment.name?).map fun name => (name, Http.Percent.encode (values name))

variable {values : Bytes → Bytes}

/-- A literal piece is filled to itself. -/
theorem fillPiece_literal {piece text : Bytes} (h : Segment.parse piece = .ok (.literal text)) :
    fillPiece values piece = text := by
  rw [fillPiece, h]
  exact Segment.eq_of_parse_literal h

/-- A parameter is filled to its escaped value. -/
theorem fillPiece_parameter {piece name : Bytes}
    (h : Segment.parse piece = .ok (.parameter name)) :
    fillPiece values piece = Http.Percent.encode (values name) := by
  rw [fillPiece, h]

/-- A filled piece is the piece itself or an escaped value. -/
theorem fillPiece_eq (values : Bytes → Bytes) (piece : Bytes) :
    fillPiece values piece = piece ∨
      ∃ value, fillPiece values piece = Http.Percent.encode value := by
  unfold fillPiece
  split
  · exact .inr ⟨_, rfl⟩
  · exact .inl rfl

/-- A filled piece of a template has no slash. -/
theorem slash_not_mem_fillPiece {piece : Bytes} (h : (47 : UInt8) ∉ piece) :
    (47 : UInt8) ∉ fillPiece values piece := by
  rcases fillPiece_eq values piece with hpiece | ⟨value, hvalue⟩
  · rw [hpiece]
    exact h
  · rw [hvalue]
    exact Http.Percent.slash_not_mem_encode value

namespace Pattern

/-- The parameter names of a template, in order. -/
def names (p : Pattern) : List Bytes :=
  p.segments.filterMap Segment.name?

/-! ## Reading templates -/

/-- A piece and the segment that is read from it. -/
def Reads (piece : Bytes) (segment : Segment) : Prop :=
  piece ≠ [] ∧ Segment.parse piece = .ok segment

/-- Every piece that has been read belongs to a segment. -/
theorem exists_segment_of_reads {pieces : List Bytes} {segments : List Segment} {piece : Bytes}
    (h : List.Forall₂ Reads pieces segments) (hpiece : piece ∈ pieces) :
    ∃ segment ∈ segments, Reads piece segment := by
  induction h with
  | nil => cases hpiece
  | @cons first segment rest segments hfirst _ ih =>
      rcases List.mem_cons.1 hpiece with rfl | hrest
      · exact ⟨segment, List.mem_cons_self, hfirst⟩
      · rcases ih hrest with ⟨other, hmem, hreads⟩
        exact ⟨other, List.mem_cons_of_mem _ hmem, hreads⟩

/-- A piece that is read takes the room of one segment. -/
theorem parsePieces_cons {piece : Bytes} {segment : Segment} (h : Reads piece segment) (room : Nat)
    (rest : List Bytes) :
    parsePieces (room + 1) (piece :: rest) = (parsePieces room rest).map (segment :: ·) := by
  rcases h with ⟨hne, hsegment⟩
  rcases List.exists_cons_of_ne_nil hne with ⟨c, others, rfl⟩
  change (Segment.parse (c :: others)).bind _ = _
  rw [hsegment]
  rfl

/-- The pieces of a template are texts of segments, then at most two empty pieces. -/
theorem parsePieces_eq_ok_iff {room : Nat} {pieces : List Bytes} {segments : List Segment} :
    parsePieces room pieces = .ok segments ↔ ∃ texts empty,
      pieces = texts ++ List.replicate empty [] ∧ empty ≤ 2 ∧ texts.length ≤ room ∧
        List.Forall₂ Reads texts segments := by
  constructor
  · intro h
    fun_induction parsePieces room pieces generalizing segments with
    | case1 =>
        cases h
        exact ⟨[], 0, rfl, by decide, Nat.zero_le _, .nil⟩
    | case2 =>
        cases h
        exact ⟨[], 1, rfl, by decide, Nat.zero_le _, .nil⟩
    | case3 =>
        cases h
        exact ⟨[], 2, rfl, by decide, Nat.zero_le _, .nil⟩
    | case4 => cases h
    | case5 => cases h
    | case6 piece rest hone htwo hne room ih =>
        cases hsegment : Segment.parse piece with
        | error e =>
            rw [hsegment] at h
            cases h
        | ok segment =>
            cases hrest : parsePieces room rest with
            | error e =>
                rw [hsegment, hrest] at h
                cases h
            | ok others =>
                rw [hsegment, hrest] at h
                cases h
                rcases ih hrest with ⟨texts, empty, rfl, hempty, hroom, hreads⟩
                exact ⟨piece :: texts, empty, rfl, hempty, Nat.succ_le_succ hroom,
                  .cons ⟨hne, hsegment⟩ hreads⟩
  · rintro ⟨texts, empty, rfl, hempty, hroom, hreads⟩
    induction hreads generalizing room with
    | nil =>
        match empty, hempty with
        | 0, _ | 1, _ | 2, _ => cases room <;> rfl
    | @cons text segment texts segments hfirst _ ih =>
        cases room with
        | zero => exact absurd hroom (Nat.not_succ_le_zero _)
        | succ room =>
            rw [List.cons_append, parsePieces_cons hfirst, ih (Nat.le_of_succ_le_succ hroom)]
            rfl

/--
The segments of a template are read from its pieces, the empty ones at the end left out, and there
is room for them.
-/
theorem parsePieces_inversion {room : Nat} {pieces : List Bytes} {segments : List Segment}
    (h : parsePieces room pieces = .ok segments) :
    List.Forall₂ Reads (pieces.filter fun piece => !piece.isEmpty) segments ∧
      segments.length ≤ room := by
  rcases parsePieces_eq_ok_iff.1 h with ⟨texts, empty, rfl, -, hroom, hreads⟩
  have htexts : texts.filter (fun piece => !piece.isEmpty) = texts := by
    rw [List.filter_eq_self]
    intro piece hpiece
    rcases exists_segment_of_reads hreads hpiece with ⟨segment, -, hne, -⟩
    simpa using hne
  have hempty : (List.replicate empty ([] : Bytes)).filter (fun piece => !piece.isEmpty) = [] := by
    rw [List.filter_eq_nil_iff]
    intro piece hpiece
    rw [List.eq_of_mem_replicate hpiece]
    exact Bool.false_ne_true
  rw [List.filter_append, htexts, hempty, List.append_nil, ← hreads.length_eq]
  exact ⟨hreads, hroom⟩

/-- A well-formed template starts with a slash, and its pieces are well-formed. -/
theorem exists_of_parse {template : Bytes} {p : Pattern} (h : parse template = .ok p) :
    ∃ rest, template = 47 :: rest ∧ p.text = template ∧
      parsePieces maxSegments (Bytes.splitOn 47 rest) = .ok p.segments := by
  cases template with
  | nil => cases h
  | cons c rest =>
      rw [parse] at h
      by_cases hc : c = 47
      · rw [if_pos hc] at h
        cases hsegments : parsePieces maxSegments (Bytes.splitOn 47 rest) with
        | error e =>
            rw [hsegments] at h
            cases h
        | ok segments =>
            rw [hsegments] at h
            cases h
            exact ⟨rest, by rw [hc], rfl, hsegments⟩
      · rw [if_neg hc] at h
        cases h

/-- A well-formed template starts with a slash, and its segments are read from its pieces. -/
theorem parse_inversion {template : Bytes} {p : Pattern} (h : parse template = .ok p) :
    p.text = template ∧ (∃ rest, template = 47 :: rest) ∧
      List.Forall₂ Reads ((Bytes.splitOn 47 template).filter fun piece => !piece.isEmpty)
        p.segments := by
  rcases exists_of_parse h with ⟨rest, rfl, htext, hsegments⟩
  refine ⟨htext, ⟨rest, rfl⟩, ?_⟩
  rw [Bytes.splitOn, if_pos rfl, List.filter_cons_of_neg (by simp)]
  exact (parsePieces_inversion hsegments).1

/-- A well-formed template has no more segments than a template may have. -/
theorem length_segments_le {template : Bytes} {p : Pattern} (h : parse template = .ok p) :
    p.segments.length ≤ maxSegments := by
  rcases exists_of_parse h with ⟨rest, -, -, hsegments⟩
  exact (parsePieces_inversion hsegments).2

/-! ## Matching filled templates -/

/-- A piece that has been read is not filled to the empty text. -/
theorem fillPiece_ne_nil {piece : Bytes} {segment : Segment} (h : Reads piece segment)
    (hvalues : ∀ name, segment.name? = some name → values name ≠ []) :
    fillPiece values piece ≠ [] := by
  rcases h with ⟨hne, hsegment⟩
  cases segment with
  | literal text =>
      rw [fillPiece_literal hsegment, ← Segment.eq_of_parse_literal hsegment]
      exact hne
  | parameter name =>
      rw [fillPiece_parameter hsegment]
      exact Http.Percent.encode_ne_nil (hvalues name rfl)

/-- Segments match the pieces from which they have been read, once these are filled. -/
theorem matchSegments_map_fillPiece {pieces : List Bytes} {segments : List Segment}
    (h : List.Forall₂ Reads pieces segments) :
    matchSegments segments (pieces.map (fillPiece values)) = some (captures values segments) := by
  induction h with
  | nil => rfl
  | @cons piece segment pieces segments hfirst _ ih =>
      rw [List.map_cons]
      cases segment with
      | literal text =>
          rw [fillPiece_literal hfirst.2, matchSegments, if_pos rfl, ih]
          rfl
      | parameter name =>
          rw [fillPiece_parameter hfirst.2, matchSegments, ih]
          rfl

/-- The pieces of a filled template are its filled pieces. -/
theorem pathSegments_fill {template : Bytes} {segments : List Segment}
    (h : List.Forall₂ Reads ((Bytes.splitOn 47 template).filter fun piece => !piece.isEmpty)
      segments)
    (hvalues : ∀ name ∈ segments.filterMap Segment.name?, values name ≠ []) :
    pathSegments (fill values template) =
      ((Bytes.splitOn 47 template).filter fun piece => !piece.isEmpty).map (fillPiece values) := by
  have hsplit : Bytes.splitOn 47 (fill values template) =
      (Bytes.splitOn 47 template).map (fillPiece values) := by
    rw [Bytes.splitOn_eq, fill, List.splitOn_intercalate]
    · intro filled hfilled
      rcases List.mem_map.1 hfilled with ⟨piece, hpiece, rfl⟩
      exact slash_not_mem_fillPiece (Bytes.not_mem_of_mem_splitOn hpiece)
    · rw [Bytes.splitOn_eq, ne_eq, List.map_eq_nil_iff]
      exact List.splitOn_ne_nil 47 template
  rw [pathSegments, hsplit, List.filter_map]
  congr 1
  apply List.filter_congr
  intro piece hpiece
  cases piece with
  | nil => rfl
  | cons c rest =>
      have hmem : (c :: rest) ∈
          (Bytes.splitOn 47 template).filter fun piece => !piece.isEmpty :=
        List.mem_filter.2 ⟨hpiece, rfl⟩
      rcases exists_segment_of_reads h hmem with ⟨segment, hsegment, hreads⟩
      have hne : fillPiece values (c :: rest) ≠ [] :=
        fillPiece_ne_nil hreads fun name hname =>
          hvalues name (List.mem_filterMap.2 ⟨segment, hsegment, hname⟩)
      simpa using hne

/-- A template matches what it has been filled to, with the escaped values. -/
theorem match?_fill {template : Bytes} {p : Pattern} (h : parse template = .ok p)
    (hvalues : ∀ name ∈ p.names, values name ≠ []) :
    p.match? (fill values template) = some (captures values p.segments) := by
  rcases parse_inversion h with ⟨-, -, hreads⟩
  rw [match?, pathSegments_fill hreads hvalues]
  exact matchSegments_map_fillPiece hreads

/-- A parameter is captured with its escaped value. -/
theorem get?_captures {p : Pattern} {name : Bytes} (h : name ∈ p.names) :
    Params.get? (captures values p.segments) name = some (Http.Percent.encode (values name)) := by
  have hlookup (ns : List Bytes) (hmem : name ∈ ns) :
      (ns.map fun n => (n, Http.Percent.encode (values n))).lookup name =
        some (Http.Percent.encode (values name)) := by
    induction ns with
    | nil => cases hmem
    | cons first rest ih =>
        rw [List.map_cons, Registry.lookup_cons_eq_ite]
        by_cases hsame : name = first
        · rw [if_pos hsame, hsame]
        · rw [if_neg hsame]
          exact ih (List.mem_of_ne_of_mem hsame hmem)
  exact hlookup p.names h

/-! ## Filled templates in targets -/

/-- A filled template starts with a slash. -/
theorem fill_eq_cons (values : Bytes → Bytes) {template : Bytes} {p : Pattern}
    (h : parse template = .ok p) :
    ∃ rest, fill values template = 47 :: rest := by
  rcases parse_inversion h with ⟨-, ⟨rest, rfl⟩, -⟩
  have hfirst : fillPiece values [] = [] := rfl
  rw [fill, Bytes.splitOn, if_pos rfl, List.map_cons, hfirst]
  cases hpieces : (Bytes.splitOn 47 rest).map (fillPiece values) with
  | nil =>
      rw [List.map_eq_nil_iff, Bytes.splitOn_eq] at hpieces
      exact absurd hpieces (List.splitOn_ne_nil 47 rest)
  | cons piece pieces =>
      rw [List.intercalate_cons_cons]
      exact ⟨_, rfl⟩

/-- A filled template has no byte that ends a path, if the literals have none. -/
theorem endsPath_of_mem_fill {template : Bytes} {p : Pattern} (h : parse template = .ok p)
    (hliterals : ∀ text, .literal text ∈ p.segments → ∀ c ∈ text, Http.Target.endsPath c = false)
    {c : UInt8} (hc : c ∈ fill values template) : Http.Target.endsPath c = false := by
  rcases parse_inversion h with ⟨-, -, hreads⟩
  rcases Bytes.mem_intercalate hc with rfl | ⟨filled, hfilled, hc⟩
  · rfl
  · rcases List.mem_map.1 hfilled with ⟨piece, hpiece, rfl⟩
    cases piece with
    | nil => cases hc
    | cons first rest =>
        have hmem : (first :: rest) ∈
            (Bytes.splitOn 47 template).filter fun piece => !piece.isEmpty :=
          List.mem_filter.2 ⟨hpiece, rfl⟩
        rcases exists_segment_of_reads hreads hmem with ⟨segment, hsegment, -, hparse⟩
        cases segment with
        | literal text =>
            rw [fillPiece_literal hparse] at hc
            exact hliterals text hsegment c hc
        | parameter name =>
            rw [fillPiece_parameter hparse] at hc
            exact Http.Percent.endsPath_of_mem_encode hc

end Pattern
end Routing
end ApiGateway
