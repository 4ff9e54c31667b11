import ApiGateway.Proofs.TemplateGrammar
import ApiGateway.Routing.Split
import Mathlib.Data.List.TakeWhile

/-!
# Exact matching

A match of a template is decided by the non-empty segments of the path, of which there are as many
as the template has, with the literals in their places.  The captured parameters are the other
segments, so that the template with these values in place of its parameters is the path again, up
to slashes.  That the segments are read into a buffer of fixed size makes no difference: a path
that does not fit into it has more segments than any template.

Main definitions:

- `Segment.Admits`: the texts that may stand in the place of a segment.
- `Pattern.substitute`: values in place of the parameters.
- `Pattern.MatchesExactly`: what a match decides on, what it captures and what it leaves alone.

Main results:

- `Split.ofPath_cases`: what a buffer holds of a path.
- `Pattern.matchInto_eq`: a match with the buffer is a match without it.
- `Pattern.matchSegments_eq_some_iff`: what is captured.
- `Pattern.matches_exactly`: accepted templates match exactly.
-/

namespace ApiGateway
namespace Routing

/-! ## The segments of a path -/

namespace Pattern

/-- The segments around a slash. -/
theorem pathSegments_append_slash (before after : Bytes) :
    pathSegments (before ++ 47 :: after) = pathSegments before ++ pathSegments after := by
  rw [pathSegments, Bytes.splitOn_append_cons, List.filter_append]
  rfl

/-- A slash in front adds no segment. -/
theorem pathSegments_slash (path : Bytes) : pathSegments (47 :: path) = pathSegments path :=
  pathSegments_append_slash [] path

/-- Segments joined by slashes, with a slash in front. -/
theorem pathSegments_intercalate {pieces : List Bytes}
    (h : ∀ piece ∈ pieces, piece ≠ [] ∧ (47 : UInt8) ∉ piece) :
    pathSegments (47 :: [47].intercalate pieces) = pieces := by
  by_cases hnil : pieces = []
  · rw [hnil]
    rfl
  · rw [pathSegments_slash, pathSegments, Bytes.splitOn_eq,
      List.splitOn_intercalate 47 (fun piece hpiece => (h piece hpiece).2) hnil,
      List.filter_eq_self]
    intro piece hpiece
    simpa using (h piece hpiece).1

/-- A text without slash is one segment. -/
theorem pathSegments_eq_singleton {piece : Bytes} (hne : piece ≠ []) (h : (47 : UInt8) ∉ piece) :
    pathSegments piece = [piece] := by
  have hone := pathSegments_intercalate (List.forall_mem_singleton.2 ⟨hne, h⟩)
  rw [pathSegments_slash, List.intercalate_singleton] at hone
  exact hone

/-- The first segment reaches up to the next slash. -/
theorem pathSegments_cons {c : UInt8} (hc : c ≠ 47) (rest : Bytes) :
    pathSegments (c :: rest) =
      (c :: rest.takeWhile (· != 47)) :: pathSegments (rest.dropWhile (· != 47)) := by
  have hfirst : (47 : UInt8) ∉ c :: rest.takeWhile (· != 47) := by
    rw [List.mem_cons, not_or]
    refine ⟨Ne.symm hc, fun hmem => ?_⟩
    simpa using List.mem_takeWhile_imp hmem
  have hone := pathSegments_eq_singleton (List.cons_ne_nil _ _) hfirst
  have hrest : rest = rest.takeWhile (· != 47) ++ rest.dropWhile (· != 47) :=
    List.takeWhile_append_dropWhile.symm
  cases hdrop : rest.dropWhile (· != 47) with
  | nil =>
      rw [hdrop, List.append_nil] at hrest
      rw [← hrest] at hone ⊢
      exact hone
  | cons slash after =>
      have hslash : slash = 47 := by
        have hhead := List.head?_dropWhile_not (· != 47) rest
        rw [hdrop] at hhead
        simpa using hhead
      rw [hdrop, hslash] at hrest
      calc
        pathSegments (c :: rest) =
            pathSegments (c :: rest.takeWhile (· != 47) ++ 47 :: after) := by
          rw [List.cons_append, ← hrest]
        _ = [c :: rest.takeWhile (· != 47)] ++ pathSegments (47 :: after) := by
          rw [pathSegments_append_slash, hone, pathSegments_slash]
        _ = (c :: rest.takeWhile (· != 47)) :: pathSegments (slash :: after) := by
          rw [List.singleton_append, hslash]

end Pattern

/-! ## The buffer -/

namespace Split

/-- A segment takes one place. -/
theorem length_write (split : Split) (part : Bytes) (h : split.parts.length < maxSegments) :
    (split.write part h).parts.length = split.parts.length + 1 :=
  List.length_append

/-- Segments for which there is room are written behind the others. -/
theorem readOn_of_le {split : Split} {path : Bytes}
    (h : split.parts.length + (Pattern.pathSegments path).length ≤ maxSegments) :
    (split.readOn path).overflow = split.overflow ∧
      (split.readOn path).parts = split.parts ++ Pattern.pathSegments path := by
  fun_induction readOn split path with
  | case1 split => exact ⟨rfl, (List.append_nil _).symm⟩
  | case2 split rest ih =>
      rw [Pattern.pathSegments_slash] at h ⊢
      exact ih h
  | case3 split c rest hc hroom ih =>
      rw [Pattern.pathSegments_cons hc] at h ⊢
      rw [List.append_cons]
      apply ih
      rw [length_write]
      rw [List.length_cons] at h
      omega
  | case4 split c rest hc hfull =>
      rw [Pattern.pathSegments_cons hc, List.length_cons] at h
      omega

/-- A path with more segments than there is room for overflows the buffer. -/
theorem overflow_readOn {split : Split} {path : Bytes}
    (h : maxSegments < split.parts.length + (Pattern.pathSegments path).length) :
    (split.readOn path).overflow = true := by
  fun_induction readOn split path with
  | case1 split => exact absurd h (Nat.not_lt.2 split.length_le)
  | case2 split rest ih =>
      rw [Pattern.pathSegments_slash] at h
      exact ih h
  | case3 split c rest hc hroom ih =>
      rw [Pattern.pathSegments_cons hc, List.length_cons] at h
      apply ih
      rw [length_write]
      omega
  | case4 => rfl

/-- The buffer holds all segments of a path, or it overflows because it has no room for them. -/
theorem ofPath_cases (path : Bytes) :
    (Pattern.pathSegments path).length ≤ maxSegments ∧ (ofPath path).overflow = false ∧
        (ofPath path).parts = Pattern.pathSegments path ∨
      maxSegments < (Pattern.pathSegments path).length ∧ (ofPath path).overflow = true := by
  rcases Nat.lt_or_ge maxSegments (Pattern.pathSegments path).length with hmany | hfew
  · refine .inr ⟨hmany, overflow_readOn ?_⟩
    rw [List.length_nil, Nat.zero_add]
    exact hmany
  · have hroom : ({} : Split).parts.length + (Pattern.pathSegments path).length ≤ maxSegments := by
      rw [List.length_nil, Nat.zero_add]
      exact hfew
    exact .inl ⟨hfew, readOn_of_le hroom⟩

end Split

/-- A literal admits its own text only, a parameter every text. -/
def Segment.Admits : Segment → Bytes → Prop
  | .literal text, piece => text = piece
  | .parameter _, _ => True

namespace Pattern

/-- Comparing segments with parts adds what a match captures. -/
theorem gather_eq {segments : List Segment} {parts : List Bytes}
    (hlength : parts.length = segments.length) (hparts : ∀ part ∈ parts, part ≠ [])
    (gathered : Params) :
    gather segments parts gathered = (matchSegments segments parts).map (gathered ++ ·) := by
  induction segments generalizing parts gathered with
  | nil =>
      obtain rfl := List.eq_nil_of_length_eq_zero hlength
      exact congrArg some (List.append_nil gathered).symm
  | cons segment segments ih =>
      cases parts with
      | nil => cases hlength
      | cons part parts =>
          rcases List.forall_mem_cons.1 hparts with ⟨hpart, hparts⟩
          have hrest := ih (Nat.succ.inj hlength) hparts
          cases segment with
          | literal text =>
              rw [gather, matchSegments]
              split
              · exact hrest gathered
              · rfl
          | parameter name =>
              rw [gather, matchSegments, if_neg (by simpa using hpart), hrest, Option.map_map]
              congr 1
              funext rest
              exact List.append_assoc gathered [(name, part)] rest

/-- A match with the buffer finds what a match without it finds. -/
theorem matchInto_eq {p : Pattern} (hroom : p.segments.length ≤ maxSegments) (path : Bytes)
    (params : Params) :
    p.matchInto path params = ((p.match? path).isSome, params ++ (p.match? path).getD []) := by
  have hnone (hlength : (pathSegments path).length ≠ p.segments.length) : p.match? path = none := by
    rw [Option.eq_none_iff_forall_ne_some]
    intro found hfound
    exact hlength (length_eq_of_matchSegments hfound).symm
  rcases Split.ofPath_cases path with ⟨-, hoverflow, hparts⟩ | ⟨hmany, hoverflow⟩
  · by_cases hlength : (pathSegments path).length = p.segments.length
    · have hpieces : ∀ piece ∈ pathSegments path, piece ≠ [] := by
        intro piece hpiece
        simpa using (List.mem_filter.1 hpiece).2
      rw [matchInto, hoverflow, hparts, hlength, bne_self_eq_false, Bool.or_self]
      rw [if_neg Bool.false_ne_true, gather_eq hlength hpieces, match?]
      cases matchSegments p.segments (pathSegments path) with
      | none => exact congrArg (Prod.mk false) (List.append_nil params).symm
      | some found => rfl
    · have hdiffer : ((pathSegments path).length != p.segments.length) = true :=
        bne_iff_ne.2 hlength
      rw [matchInto, hoverflow, hparts, hdiffer, hnone hlength]
      exact congrArg (Prod.mk false) (List.append_nil params).symm
  · rw [matchInto, hoverflow, hnone (by omega)]
    exact congrArg (Prod.mk false) (List.append_nil params).symm

/-! ## What is captured -/

/-- The values in place of the parameters, from left to right. -/
def substitute : List Segment → List Bytes → List Bytes
  | .literal text :: segments, values => text :: substitute segments values
  | .parameter _ :: segments, value :: values => value :: substitute segments values
  | _, _ => []

/--
A match captures values for the parameters, in order, with which the template becomes the path; and
such values are captured.
-/
theorem matchSegments_eq_some_iff {segments : List Segment} {pieces : List Bytes}
    {params : Params} :
    matchSegments segments pieces = some params ↔
      params.map Prod.fst = segments.filterMap Segment.name? ∧
        substitute segments (params.map Prod.snd) = pieces := by
  induction segments generalizing pieces params with
  | nil =>
      cases pieces with
      | nil =>
          rw [matchSegments, Option.some.injEq, List.filterMap_nil, List.map_eq_nil_iff]
          exact ⟨fun h => ⟨h.symm, rfl⟩, fun h => h.1.symm⟩
      | cons piece pieces => simp [matchSegments, substitute]
  | cons segment segments ih =>
      cases segment with
      | literal text =>
          rw [List.filterMap_cons_none rfl, substitute]
          cases pieces with
          | nil => simp [matchSegments]
          | cons piece pieces =>
              rw [matchSegments, List.cons.injEq, and_left_comm, ← ih]
              by_cases hsame : text = piece
              · rw [if_pos hsame, and_iff_right hsame]
              · rw [if_neg hsame]
                simp [hsame]
      | parameter name =>
          have hname : (Segment.parameter name).name? = some name := rfl
          rw [List.filterMap_cons_some hname]
          cases params with
          | nil =>
              cases pieces with
              | nil => simp [matchSegments]
              | cons piece pieces => simp [matchSegments]
          | cons param params =>
              rw [List.map_cons, List.map_cons, List.cons.injEq, substitute]
              cases pieces with
              | nil => simp [matchSegments]
              | cons piece pieces =>
                  rw [matchSegments, Option.map_eq_some_iff, List.cons.injEq, and_and_and_comm,
                    ← ih]
                  constructor
                  · rintro ⟨rest, hrest, hparam⟩
                    cases hparam
                    exact ⟨⟨rfl, rfl⟩, hrest⟩
                  · rintro ⟨⟨rfl, rfl⟩, hrest⟩
                    exact ⟨params, hrest, rfl⟩

/-- Segments match exactly if there are as many pieces and every literal equals its piece. -/
theorem isSome_matchSegments_iff {segments : List Segment} {pieces : List Bytes} :
    (matchSegments segments pieces).isSome ↔ List.Forall₂ Segment.Admits segments pieces := by
  induction segments generalizing pieces with
  | nil =>
      rw [List.forall₂_nil_left_iff]
      cases pieces with
      | nil => exact iff_of_true rfl rfl
      | cons piece pieces => simp [matchSegments]
  | cons segment segments ih =>
      cases pieces with
      | nil =>
          rw [List.forall₂_nil_right_iff]
          cases segment <;> simp [matchSegments]
      | cons piece pieces =>
          rw [List.forall₂_cons, ← ih]
          cases segment with
          | literal text =>
              rw [matchSegments, Segment.Admits]
              by_cases hsame : text = piece
              · rw [if_pos hsame, and_iff_right hsame]
              · rw [if_neg hsame]
                simp [hsame]
          | parameter name =>
              rw [matchSegments, Option.isSome_map, Segment.Admits, true_and]

/-! ## Exact matching -/

/-- What a match decides on, what it captures and what it leaves alone. -/
structure MatchesExactly (p : Pattern) : Prop where
  /-- A path matches if it has as many segments as the template, each literal in its place. -/
  matches_iff : ∀ path params,
    (p.matchInto path params).1 = true ↔ List.Forall₂ Segment.Admits p.segments (pathSegments path)
  /-- One entry for each parameter is added, with the segment in its place. -/
  captures : ∀ path params, (p.matchInto path params).1 = true → ∃ captured,
    (p.matchInto path params).2 = params ++ captured ∧ captured.map Prod.fst = p.names ∧
      substitute p.segments (captured.map Prod.snd) = pathSegments path
  /-- Without a match the parameters of the caller stay as they are. -/
  keeps : ∀ path params,
    (p.matchInto path params).1 = false → (p.matchInto path params).2 = params
  /-- Paths with the same segments match alike. -/
  segments_decide : ∀ path other, pathSegments path = pathSegments other →
    ∀ params, p.matchInto path params = p.matchInto other params
  /-- Slashes in front, at the end or beside another slash do not matter. -/
  slashes_do_not_matter : ∀ before after params,
    p.matchInto (47 :: after) params = p.matchInto after params ∧
      p.matchInto (before ++ [47]) params = p.matchInto before params ∧
      p.matchInto (before ++ 47 :: 47 :: after) params =
        p.matchInto (before ++ 47 :: after) params
  /-- Whatever texts are put in place of the parameters, they are captured. -/
  returns : ∀ values, values.length = p.names.length →
    (∀ value ∈ values, value ≠ [] ∧ (47 : UInt8) ∉ value) →
    ∀ params, p.matchInto (47 :: [47].intercalate (substitute p.segments values)) params =
      (true, params ++ p.names.zip values)
  /-- The buffer makes no difference. -/
  unbounded : ∀ path params,
    p.matchInto path params = ((p.match? path).isSome, params ++ (p.match? path).getD [])

/-- Segments with texts in place of the parameters are texts without slash. -/
theorem slash_not_mem_substitute {pieces : List Bytes} {segments : List Segment}
    (h : List.Forall₂ Segment.StandsFor pieces segments)
    (hwell : ∀ piece ∈ pieces, Segment.WellFormed piece) {values : List Bytes}
    (hvalues : ∀ value ∈ values, value ≠ [] ∧ (47 : UInt8) ∉ value) :
    ∀ text ∈ substitute segments values, text ≠ [] ∧ (47 : UInt8) ∉ text := by
  induction h generalizing values with
  | nil => exact fun text htext => absurd htext List.not_mem_nil
  | @cons piece segment pieces segments hfirst _ ih =>
      rcases List.forall_mem_cons.1 hwell with ⟨hpiece, hpieces⟩
      cases hfirst with
      | literal =>
          exact List.forall_mem_cons.2
            ⟨⟨hpiece.ne_nil, hpiece.slash_not_mem⟩, ih hpieces hvalues⟩
      | parameter name =>
          cases values with
          | nil => exact fun text htext => absurd htext List.not_mem_nil
          | cons value values =>
              rcases List.forall_mem_cons.1 hvalues with ⟨hvalue, hvalues⟩
              exact List.forall_mem_cons.2 ⟨hvalue, ih hpieces hvalues⟩

/-- An accepted template matches exactly. -/
theorem matches_exactly {template : Bytes} {p : Pattern} (h : parse template = .ok p) :
    p.MatchesExactly := by
  have hinto := matchInto_eq (length_segments_le h)
  have hsegments {path other : Bytes} (hsame : pathSegments path = pathSegments other)
      (params : Params) : p.matchInto path params = p.matchInto other params := by
    rw [hinto, hinto, match?, match?, hsame]
  refine {
    matches_iff := ?_
    captures := ?_
    keeps := ?_
    segments_decide := fun _ _ hsame => hsegments hsame
    slashes_do_not_matter := ?_
    returns := ?_
    unbounded := hinto }
  · intro path params
    rw [hinto]
    exact isSome_matchSegments_iff
  · intro path params hmatch
    rw [hinto] at hmatch ⊢
    rcases Option.isSome_iff_exists.1 hmatch with ⟨captured, hcaptured⟩
    rw [hcaptured]
    exact ⟨captured, rfl, matchSegments_eq_some_iff.1 hcaptured⟩
  · intro path params hmatch
    rw [hinto] at hmatch ⊢
    rw [Option.not_isSome_iff_eq_none.1 (Bool.eq_false_iff.1 hmatch)]
    exact List.append_nil params
  · intro before after params
    refine ⟨hsegments (pathSegments_slash after) params, hsegments ?_ params,
      hsegments ?_ params⟩
    · exact (pathSegments_append_slash before []).trans (List.append_nil _)
    · rw [pathSegments_append_slash, pathSegments_append_slash, pathSegments_slash]
  · intro values hlength hvalues params
    rcases (parse_eq_ok_iff.1 h).2 with ⟨pieces, slashes, htemplate, hstands⟩
    have hpath := pathSegments_intercalate
      (slash_not_mem_substitute hstands htemplate.wellFormed hvalues)
    have hcaptured : p.match? (47 :: [47].intercalate (substitute p.segments values)) =
        some (p.names.zip values) := by
      rw [match?, hpath, matchSegments_eq_some_iff]
      refine ⟨List.map_fst_zip (le_of_eq hlength.symm), ?_⟩
      rw [List.map_snd_zip (le_of_eq hlength)]
    rw [hinto, hcaptured]
    rfl

end Pattern

end Routing

/-! ## A sample -/

namespace Sample

/-- The template `/v/{i}`. -/
def versionPattern : Routing.Pattern :=
  ⟨[47, 118, 47, 123, 105, 125], [.literal [118], .parameter [105]]⟩

/-- The path `//v/7/` matches it, and the caller is given `7` behind its own parameter. -/
theorem slashed_path_is_captured :
    Routing.Pattern.parse [47, 118, 47, 123, 105, 125] = .ok versionPattern ∧
      versionPattern.matchInto [47, 47, 118, 47, 55, 47] [([120], [49])] =
        (true, [([120], [49]), ([105], [55])]) := by
  have hparse : Routing.Pattern.parse [47, 118, 47, 123, 105, 125] = .ok versionPattern := rfl
  have hexact := Routing.Pattern.matches_exactly hparse
  have hvalues : ∀ value ∈ [([55] : Bytes)], value ≠ [] ∧ (47 : UInt8) ∉ value := by decide
  have hwritten := hexact.returns [[55]] rfl hvalues [([120], [49])]
  have hsegments : Routing.Pattern.pathSegments [47, 47, 118, 47, 55, 47] =
      Routing.Pattern.pathSegments [47, 118, 47, 55] := rfl
  exact ⟨hparse, (hexact.segments_decide _ _ hsegments _).trans hwritten⟩

end Sample
end ApiGateway
