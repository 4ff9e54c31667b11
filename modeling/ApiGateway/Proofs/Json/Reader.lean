import Mathlib.Data.List.Infix
import ApiGateway.Proofs.Json.Grammar

/-!
# Reading JSON

A reader by recursive descent.  Each part reads as much as belongs to it and leaves the
rest; the depth bounds the nesting, and the length of the text is always enough.

Main definitions:

- `readList`, `readSequence`: items separated by commas up to a closing bracket.
- `readValue`: the reader of values.
- `read?`: the reader of whole texts.

Main results:

- `readValue_sound`: what has been read is a text of the grammar.
- `Grammar.completes`: every text of the grammar is read.
- `read?_eq_some_iff`: the reader decides the grammar.
-/

namespace ApiGateway
namespace Json

/-! ## The reader -/

section Reader

variable {α : Type}

/-- The text without the blanks at its start. -/
def dropBlanks (text : Bytes) : Bytes :=
  text.dropWhile isBlank

/-- Reads items separated by commas, up to a closing bracket. -/
def readList (item : Bytes → Option (α × Bytes)) (close : UInt8) :
    Nat → Bytes → Option (List α × Bytes)
  | 0, _ => none
  | fuel + 1, text => do
    let (a, rest) ← item text
    if rest.head? = some close then
      return ([a], rest.tail)
    else if rest.head? = some 44 then
      let (others, rest) ← readList item close fuel rest.tail
      return (a :: others, rest)
    else
      none

/-- Reads blanks and a closing bracket. -/
def readClosing (close : UInt8) (text : Bytes) : Option Bytes :=
  if (dropBlanks text).head? = some close then some (dropBlanks text).tail else none

/-- Reads the inside of brackets: items, or nothing but blanks. -/
def readSequence (item : Bytes → Option (α × Bytes)) (close : UInt8) (text : Bytes) :
    Option (List α × Bytes) :=
  (readList item close text.length text).or
    ((readClosing close text).map fun rest => ([], rest))

/-- Reads a value with the blanks around it. -/
def readElement (value : Bytes → Option (Document × Bytes)) (text : Bytes) :
    Option (Document × Bytes) :=
  (value (dropBlanks text)).map fun found => (found.1, dropBlanks found.2)

/-- Reads a string literal. -/
def readLiteral (text : Bytes) : Option (List StringUnit × Bytes) :=
  if text.head? = some 34 then readUnits text.tail.length text.tail else none

/-- Reads a member of an object. -/
def readMember (value : Bytes → Option (Document × Bytes)) (text : Bytes) :
    Option ((Bytes × Document) × Bytes) := do
  let (us, rest) ← readLiteral (dropBlanks text)
  if (dropBlanks rest).head? = some 58 then
    let (d, rest) ← readElement value (dropBlanks rest).tail
    return ((textOf us, d), rest)
  else
    none

/-- Reads a word. -/
def readWord (text : Bytes) : Option (Document × Bytes) :=
  words.findSome? fun word => (word.1.isPrefixOf? text).map fun rest => (word.2, rest)

/-- Reads a value of a bounded depth. -/
def readValue (real : Numeral → Binary64) : Nat → Bytes → Option (Document × Bytes)
  | 0, _ => none
  | depth + 1, text =>
    if text.head? = some 34 then
      (readLiteral text).map fun found => (.string (textOf found.1), found.2)
    else if text.head? = some 91 then
      (readSequence (readElement (readValue real depth)) 93 text.tail).map fun found =>
        (.array found.1, found.2)
    else if text.head? = some 123 then
      (readSequence (readMember (readValue real depth)) 125 text.tail).map fun found =>
        (.object found.1, found.2)
    else
      (readWord text).or ((readNumeral text).map fun found => (found.1.document real, found.2))

/-- The document of a text, if the whole text is read. -/
def read? (real : Numeral → Binary64) (text : Bytes) : Option Document :=
  match readElement (readValue real text.length) text with
  | some (d, []) => some d
  | _ => none

end Reader

/-! ## What has been read -/

/-- A text begins with its blanks. -/
theorem exists_blank_append (text : Bytes) :
    ∃ blank, IsBlank blank ∧ text = blank ++ dropBlanks text :=
  ⟨text.takeWhile isBlank, List.all_eq_true.1 List.all_takeWhile,
    List.takeWhile_append_dropWhile.symm⟩

/-- Joining pieces, where more than one is left. -/
theorem intercalate_cons (sep : UInt8) (first : Bytes) {pieces : List Bytes} (h : pieces ≠ []) :
    [sep].intercalate (first :: pieces) = first ++ sep :: [sep].intercalate pieces := by
  cases pieces with
  | nil => exact absurd rfl h
  | cons second others =>
      rw [List.intercalate_cons_cons, List.append_assoc]
      rfl

/-- Items that have been read are separated by commas and closed. -/
theorem readList_sound {α : Type} {item : Bytes → Option (α × Bytes)} {R : α → Bytes → Prop}
    (hitem : ∀ text a rest, item text = some (a, rest) → ∃ t, text = t ++ rest ∧ R a t)
    {close : UInt8} {fuel : Nat} {text rest : Bytes} {as : List α}
    (h : readList item close fuel text = some (as, rest)) :
    ∃ pieces : List (α × Bytes), pieces ≠ [] ∧ as = pieces.map Prod.fst ∧
      text = [44].intercalate (pieces.map Prod.snd) ++ close :: rest ∧
      ∀ piece ∈ pieces, R piece.1 piece.2 := by
  induction fuel generalizing text as with
  | zero => cases h
  | succ fuel ih =>
      rw [readList] at h
      rcases Option.bind_eq_some_iff.1 h with ⟨⟨a, afterItem⟩, hread, hnext⟩
      rcases hitem text a afterItem hread with ⟨t, rfl, hR⟩
      dsimp only at hnext
      by_cases hclose : afterItem.head? = some close
      · rw [if_pos hclose] at hnext
        cases hnext
        rcases List.head?_eq_some_iff.1 hclose with ⟨tail, rfl⟩
        refine ⟨[(a, t)], List.cons_ne_nil _ _, rfl, ?_, ?_⟩
        · simp
        · intro piece hpiece
          rw [List.mem_singleton.1 hpiece]
          exact hR
      · rw [if_neg hclose] at hnext
        by_cases hcomma : afterItem.head? = some 44
        · rw [if_pos hcomma] at hnext
          rcases Option.bind_eq_some_iff.1 hnext with ⟨⟨others, afterOthers⟩, hothers, hpair⟩
          cases hpair
          rcases List.head?_eq_some_iff.1 hcomma with ⟨tail, rfl⟩
          rcases ih hothers with ⟨pieces, hne, rfl, htail, hpieces⟩
          rw [List.tail_cons] at htail
          refine ⟨(a, t) :: pieces, List.cons_ne_nil _ _, rfl, ?_, ?_⟩
          · rw [htail, List.map_cons, intercalate_cons, List.append_assoc]
            · rfl
            · simpa using hne
          · intro piece hpiece
            rcases List.mem_cons.1 hpiece with rfl | hpiece
            · exact hR
            · exact hpieces piece hpiece
        · rw [if_neg hcomma] at hnext
          cases hnext

/-- The inside of brackets that has been read has items, or it is blank. -/
theorem readSequence_sound {α : Type} {item : Bytes → Option (α × Bytes)} {R : α → Bytes → Prop}
    (hitem : ∀ text a rest, item text = some (a, rest) → ∃ t, text = t ++ rest ∧ R a t)
    {close : UInt8} {text rest : Bytes} {as : List α}
    (h : readSequence item close text = some (as, rest)) :
    (∃ pieces : List (α × Bytes), pieces ≠ [] ∧ as = pieces.map Prod.fst ∧
        text = [44].intercalate (pieces.map Prod.snd) ++ close :: rest ∧
        ∀ piece ∈ pieces, R piece.1 piece.2) ∨
      (as = [] ∧ ∃ blank, IsBlank blank ∧ text = blank ++ close :: rest) := by
  rw [readSequence, Option.or_eq_some_iff] at h
  rcases h with h | ⟨-, h⟩
  · exact .inl (readList_sound hitem h)
  · right
    rw [Option.map_eq_some_iff] at h
    rcases h with ⟨found, hfound, hpair⟩
    cases hpair
    unfold readClosing at hfound
    by_cases hclose : (dropBlanks text).head? = some close
    · rw [if_pos hclose] at hfound
      rcases List.head?_eq_some_iff.1 hclose with ⟨tail, htail⟩
      rcases exists_blank_append text with ⟨blank, hblank, htext⟩
      rw [htail] at hfound htext
      cases hfound
      exact ⟨rfl, blank, hblank, htext⟩
    · rw [if_neg hclose] at hfound
      cases hfound

/-- A string literal that has been read is one of the grammar. -/
theorem readLiteral_sound {text rest : Bytes} {us : List StringUnit}
    (h : readLiteral text = some (us, rest)) :
    (∀ u ∈ us, u.WellFormed) ∧ text = literal us ++ rest := by
  unfold readLiteral at h
  by_cases hquote : text.head? = some 34
  · rw [if_pos hquote] at h
    rcases List.head?_eq_some_iff.1 hquote with ⟨tail, rfl⟩
    rcases readUnits_sound h with ⟨hunits, htail⟩
    refine ⟨hunits, ?_⟩
    rw [List.tail_cons] at htail
    rw [htail, literal]
    simp
  · rw [if_neg hquote] at h
    cases h

section Sound

variable {real : Numeral → Binary64} {value : Bytes → Option (Document × Bytes)}
  (hvalue : ∀ text d rest, value text = some (d, rest) →
    ∃ t, text = t ++ rest ∧ Grammar real (.value d) t)

include hvalue

/-- An element that has been read is one of the grammar. -/
theorem readElement_sound (text : Bytes) (d : Document) (rest : Bytes)
    (h : readElement value text = some (d, rest)) :
    ∃ t, text = t ++ rest ∧ Grammar real (.element d) t := by
  rw [readElement, Option.map_eq_some_iff] at h
  rcases h with ⟨⟨d', after⟩, hread, hpair⟩
  cases hpair
  rcases hvalue _ _ _ hread with ⟨t, ht, hgrammar⟩
  rcases exists_blank_append text with ⟨before, hbefore, htext⟩
  rcases exists_blank_append after with ⟨blank, hblank, hafter⟩
  refine ⟨before ++ (t ++ blank), ?_, .element hbefore hblank hgrammar⟩
  rw [List.append_assoc, List.append_assoc, ← hafter, ← ht, ← htext]

/-- A member that has been read is one of the grammar. -/
theorem readMember_sound (text : Bytes) (m : Bytes × Document) (rest : Bytes)
    (h : readMember value text = some (m, rest)) :
    ∃ t, text = t ++ rest ∧ Grammar real (.member m) t := by
  rcases Option.bind_eq_some_iff.1 h with ⟨⟨us, afterKey⟩, hkey, hnext⟩
  dsimp only at hnext
  by_cases hcolon : (dropBlanks afterKey).head? = some 58
  · rw [if_pos hcolon] at hnext
    rcases Option.bind_eq_some_iff.1 hnext with ⟨⟨d, afterElement⟩, helement, hpair⟩
    cases hpair
    rcases List.head?_eq_some_iff.1 hcolon with ⟨tail, htail⟩
    rw [htail, List.tail_cons] at helement
    rcases readElement_sound hvalue _ _ _ helement with ⟨t, rfl, hgrammar⟩
    rcases readLiteral_sound hkey with ⟨hunits, hliteral⟩
    rcases exists_blank_append text with ⟨before, hbefore, htext⟩
    rcases exists_blank_append afterKey with ⟨between, hbetween, hafter⟩
    refine ⟨_, ?_, .member hbefore hbetween hunits hgrammar⟩
    rw [htext, hliteral, hafter, htail]
    simp
  · rw [if_neg hcolon] at hnext
    cases hnext

end Sound

/-- A word that has been read is one of the grammar. -/
theorem readWord_sound {text rest : Bytes} {d : Document}
    (h : readWord text = some (d, rest)) : ∃ t, text = t ++ rest ∧ (t, d) ∈ words := by
  rcases List.exists_of_findSome?_eq_some h with ⟨word, hword, hfound⟩
  rw [Option.map_eq_some_iff] at hfound
  rcases hfound with ⟨after, hprefix, hpair⟩
  cases hpair
  exact ⟨word.1, (List.isPrefixOf?_eq_some_iff_append_eq.1 hprefix).symm, hword⟩

/-- A text in brackets, apart from what follows it. -/
theorem bracketed_append (opening close : UInt8) (inner rest : Bytes) :
    opening :: (inner ++ close :: rest) = (opening :: (inner ++ [close])) ++ rest := by
  simp

/-- An array that has been read is one of the grammar, if its items are. -/
theorem array_sound {real : Numeral → Binary64} {item : Bytes → Option (Document × Bytes)}
    (hitem : ∀ text d rest, item text = some (d, rest) →
      ∃ t, text = t ++ rest ∧ Grammar real (.element d) t)
    {text rest : Bytes} {items : List Document}
    (h : readSequence item 93 text = some (items, rest)) :
    ∃ t, 91 :: text = t ++ rest ∧ Grammar real (.value (.array items)) t := by
  rcases readSequence_sound hitem h with
    ⟨pieces, hne, rfl, rfl, hpieces⟩ | ⟨rfl, blank, hblank, rfl⟩
  · exact ⟨_, bracketed_append 91 93 _ rest, .array hne hpieces⟩
  · exact ⟨_, bracketed_append 91 93 _ rest, .emptyArray hblank⟩

/-- An object that has been read is one of the grammar, if its members are. -/
theorem object_sound {real : Numeral → Binary64}
    {member : Bytes → Option ((Bytes × Document) × Bytes)}
    (hmember : ∀ text m rest, member text = some (m, rest) →
      ∃ t, text = t ++ rest ∧ Grammar real (.member m) t)
    {text rest : Bytes} {members : List (Bytes × Document)}
    (h : readSequence member 125 text = some (members, rest)) :
    ∃ t, 123 :: text = t ++ rest ∧ Grammar real (.value (.object members)) t := by
  rcases readSequence_sound hmember h with
    ⟨pieces, hne, rfl, rfl, hpieces⟩ | ⟨rfl, blank, hblank, rfl⟩
  · exact ⟨_, bracketed_append 123 125 _ rest, .object hne hpieces⟩
  · exact ⟨_, bracketed_append 123 125 _ rest, .emptyObject hblank⟩

/-- A value that has been read is one of the grammar. -/
theorem readValue_sound {real : Numeral → Binary64} {depth : Nat} (text : Bytes) (d : Document)
    (rest : Bytes) (h : readValue real depth text = some (d, rest)) :
    ∃ t, text = t ++ rest ∧ Grammar real (.value d) t := by
  induction depth generalizing text d rest with
  | zero => cases h
  | succ depth ih =>
      rw [readValue] at h
      by_cases hquote : text.head? = some 34
      · rw [if_pos hquote, Option.map_eq_some_iff] at h
        rcases h with ⟨⟨us, after⟩, hread, hpair⟩
        cases hpair
        rcases readLiteral_sound hread with ⟨hunits, htext⟩
        exact ⟨literal us, htext, .string hunits⟩
      rw [if_neg hquote] at h
      by_cases harray : text.head? = some 91
      · rw [if_pos harray, Option.map_eq_some_iff] at h
        rcases h with ⟨⟨items, after⟩, hread, hpair⟩
        cases hpair
        rcases List.head?_eq_some_iff.1 harray with ⟨tail, rfl⟩
        exact array_sound (readElement_sound ih) hread
      rw [if_neg harray] at h
      by_cases hobject : text.head? = some 123
      · rw [if_pos hobject, Option.map_eq_some_iff] at h
        rcases h with ⟨⟨members, after⟩, hread, hpair⟩
        cases hpair
        rcases List.head?_eq_some_iff.1 hobject with ⟨tail, rfl⟩
        exact object_sound (readMember_sound ih) hread
      rw [if_neg hobject, Option.or_eq_some_iff] at h
      rcases h with hword | ⟨-, hnumeral⟩
      · rcases readWord_sound hword with ⟨t, htext, hmem⟩
        exact ⟨t, htext, .word hmem⟩
      · rw [Option.map_eq_some_iff] at hnumeral
        rcases hnumeral with ⟨⟨n, after⟩, hread, hpair⟩
        cases hpair
        rcases readNumeral_sound hread with ⟨htext, hwell⟩
        exact ⟨n.text, htext, .numeral hwell⟩

/-! ## What is read -/

/-- The end of a text, or a byte that may follow a value. -/
def Stops (rest : Bytes) : Prop :=
  ∀ c, rest.head? = some c → isBlank c = true ∨ c = 44 ∨ c = 93 ∨ c = 125

/-- The end of a text, or a byte that may follow a value and its blanks. -/
def Closes (rest : Bytes) : Prop :=
  ∀ c, rest.head? = some c → c = 44 ∨ c = 93 ∨ c = 125

/-- Nothing of a numeral stops a value. -/
theorem Stops.endsNumeral {rest : Bytes} (h : Stops rest) : EndsNumeral rest := by
  intro c hc
  rcases h c hc with hblank | rfl | rfl | rfl
  · unfold isBlank at hblank
    simp only [Bool.or_eq_true, beq_iff_eq] at hblank
    rcases hblank with ((rfl | rfl) | rfl) | rfl <;> decide
  · decide
  · decide
  · decide

/-- A digit is no blank. -/
theorem isBlank_of_isDigit {c : UInt8} (h : Bytes.isDigit c = true) : isBlank c = false := by
  unfold isBlank
  simp only [Bool.or_eq_false_iff, beq_eq_false_iff_ne]
  refine ⟨⟨⟨?_, ?_⟩, ?_⟩, ?_⟩
  all_goals
    rintro rfl
    cases h

/-- Blanks may follow a value. -/
theorem Closes.stops {rest : Bytes} (h : Closes rest) {blank : Bytes} (hblank : IsBlank blank) :
    Stops (blank ++ rest) := by
  intro c hc
  cases blank with
  | nil => exact .inr (h c hc)
  | cons b blank =>
      cases hc
      exact .inl (hblank _ List.mem_cons_self)

/-- Blanks are dropped up to the first other byte. -/
theorem dropBlanks_append {blank rest : Bytes} (hblank : IsBlank blank)
    (hrest : ∀ c, rest.head? = some c → isBlank c = false) : dropBlanks (blank ++ rest) = rest :=
  (Bytes.cut_at_class hblank hrest).2

/-- What closes an element does not start with a blank. -/
theorem Closes.head?_not_blank {rest : Bytes} (h : Closes rest) (c : UInt8)
    (hc : rest.head? = some c) : isBlank c = false := by
  rcases h c hc with rfl | rfl | rfl <;> rfl

/-! ### Lists -/

/-- A piece is no longer than the joined text. -/
theorem length_le_intercalate (sep : UInt8) {pieces : List Bytes} {piece : Bytes}
    (h : piece ∈ pieces) : piece.length ≤ ([sep].intercalate pieces).length := by
  induction pieces with
  | nil => cases h
  | cons first rest ih =>
      by_cases hrest : rest = []
      · subst hrest
        rw [List.mem_singleton.1 h, List.intercalate_singleton]
      · rw [intercalate_cons sep first hrest, List.length_append, List.length_cons]
        rcases List.mem_cons.1 h with rfl | h
        · omega
        · have hle := ih h
          omega

/-- There is a separator after every piece but the last. -/
theorem length_le_length_intercalate (sep : UInt8) (pieces : List Bytes) :
    pieces.length ≤ ([sep].intercalate pieces).length + 1 := by
  induction pieces with
  | nil => exact Nat.zero_le _
  | cons first rest ih =>
      by_cases hrest : rest = []
      · subst hrest
        simp
      · rw [intercalate_cons sep first hrest, List.length_append, List.length_cons,
          List.length_cons]
        omega

/-- Joined items are read up to the closing bracket. -/
theorem readList_complete {α : Type} {item : Bytes → Option (α × Bytes)} {close : UInt8}
    (hclose : close ≠ 44) {pieces : List (α × Bytes)} (hne : pieces ≠ [])
    (hitem : ∀ piece ∈ pieces, ∀ c rest, c = 44 ∨ c = close →
      item (piece.2 ++ c :: rest) = some (piece.1, c :: rest))
    {fuel : Nat} (hfuel : pieces.length ≤ fuel) (rest : Bytes) :
    readList item close fuel ([44].intercalate (pieces.map Prod.snd) ++ close :: rest) =
      some (pieces.map Prod.fst, rest) := by
  induction pieces generalizing fuel with
  | nil => exact absurd rfl hne
  | cons first others ih =>
      cases fuel with
      | zero => cases hfuel
      | succ fuel =>
          by_cases hothers : others = []
          · subst hothers
            have hread := hitem first List.mem_cons_self close rest (.inr rfl)
            rw [List.map_singleton, List.intercalate_singleton, readList, hread]
            simp
          · have hread := hitem first List.mem_cons_self 44
              ([44].intercalate (others.map Prod.snd) ++ close :: rest) (.inl rfl)
            have hrest := ih hothers
              (fun piece hpiece => hitem piece (List.mem_cons_of_mem _ hpiece))
              (Nat.le_of_succ_le_succ hfuel)
            have hmap : others.map Prod.snd ≠ [] := by
              simpa using hothers
            have hcomma : (some 44 : Option UInt8) ≠ some close := by
              intro h
              exact hclose (Option.some.inj h).symm
            rw [List.map_cons, intercalate_cons 44 first.2 hmap, List.append_assoc,
              List.cons_append, readList, hread]
            simp only [Option.bind_eq_bind, Option.bind_some, List.head?_cons, List.tail_cons,
              if_neg hcomma, if_true, hrest]
            rfl

/-- A list without a first item is not read. -/
theorem readList_eq_none {α : Type} {item : Bytes → Option (α × Bytes)} {close : UInt8}
    {text : Bytes} (h : item text = none) (fuel : Nat) : readList item close fuel text = none := by
  cases fuel with
  | zero => rfl
  | succ fuel =>
      rw [readList, h]
      rfl

/-- Items between brackets are read. -/
theorem readSequence_complete {α : Type} {item : Bytes → Option (α × Bytes)} {close : UInt8}
    (hclose : close ≠ 44) {pieces : List (α × Bytes)} (hne : pieces ≠ [])
    (hitem : ∀ piece ∈ pieces, ∀ c rest, c = 44 ∨ c = close →
      item (piece.2 ++ c :: rest) = some (piece.1, c :: rest)) (rest : Bytes) :
    readSequence item close ([44].intercalate (pieces.map Prod.snd) ++ close :: rest) =
      some (pieces.map Prod.fst, rest) := by
  have hlength := length_le_length_intercalate 44 (pieces.map Prod.snd)
  have hfuel : pieces.length ≤
      ([44].intercalate (pieces.map Prod.snd) ++ close :: rest).length := by
    rw [List.length_map] at hlength
    rw [List.length_append, List.length_cons]
    omega
  rw [readSequence, readList_complete hclose hne hitem hfuel]
  rfl

/-- Blanks between brackets are read as no items. -/
theorem readSequence_blank {α : Type} {item : Bytes → Option (α × Bytes)} {close : UInt8}
    (hclose : isBlank close = false) {blank : Bytes} (hblank : IsBlank blank) {rest : Bytes}
    (hitem : item (blank ++ close :: rest) = none) :
    readSequence item close (blank ++ close :: rest) = some ([], rest) := by
  have hdrop : dropBlanks (blank ++ close :: rest) = close :: rest := by
    apply dropBlanks_append hblank
    rintro c ⟨⟩
    exact hclose
  rw [readSequence, readList_eq_none hitem, readClosing, hdrop]
  simp

/-! ### Values, elements and members -/

/-- A phrase is read with a text, at every depth that is not smaller than the text. -/
def Completes (real : Numeral → Binary64) : Phrase → Bytes → Prop
  | .value d, text => ∀ depth rest, text.length ≤ depth → Stops rest →
      readValue real depth (text ++ rest) = some (d, rest)
  | .element d, text => ∀ depth rest, text.length ≤ depth → Closes rest →
      readElement (readValue real depth) (text ++ rest) = some (d, rest)
  | .member m, text => ∀ depth rest, text.length ≤ depth → Closes rest →
      readMember (readValue real depth) (text ++ rest) = some (m, rest)

/-- The words of the grammar, byte by byte. -/
theorem words_eq : words = [([110, 117, 108, 108], .null), ([116, 114, 117, 101], .boolean true),
    ([102, 97, 108, 115, 101], .boolean false)] :=
  rfl

/-- The text of a value does not start with a blank. -/
theorem Grammar.exists_cons {real : Numeral → Binary64} {d : Document} {text : Bytes}
    (h : Grammar real (.value d) text) : ∃ c rest, text = c :: rest ∧ isBlank c = false := by
  cases h with
  | word h =>
      rw [words_eq] at h
      simp only [List.mem_cons, List.not_mem_nil, or_false, Prod.mk.injEq] at h
      rcases h with ⟨rfl, -⟩ | ⟨rfl, -⟩ | ⟨rfl, -⟩
      · exact ⟨110, _, rfl, rfl⟩
      · exact ⟨116, _, rfl, rfl⟩
      · exact ⟨102, _, rfl, rfl⟩
  | numeral h =>
      rcases Numeral.exists_cons_of_wellFormed h with ⟨c, rest, htext, hc⟩
      refine ⟨c, rest, htext, ?_⟩
      rcases hc with rfl | hdigit
      · rfl
      · exact isBlank_of_isDigit hdigit
  | string h => exact ⟨34, _, rfl, rfl⟩
  | emptyArray h => exact ⟨91, _, rfl, rfl⟩
  | array hne h => exact ⟨91, _, rfl, rfl⟩
  | emptyObject h => exact ⟨123, _, rfl, rfl⟩
  | object hne h => exact ⟨123, _, rfl, rfl⟩

/-- A word is read, whatever follows. -/
theorem readWord_complete {text : Bytes} {d : Document} (h : (text, d) ∈ words) (rest : Bytes) :
    readWord (text ++ rest) = some (d, rest) := by
  rw [words_eq] at h
  simp only [List.mem_cons, List.not_mem_nil, or_false, Prod.mk.injEq] at h
  rcases h with ⟨rfl, rfl⟩ | ⟨rfl, rfl⟩ | ⟨rfl, rfl⟩ <;> rfl

/-- A text with another first byte starts with no word. -/
theorem readWord_eq_none {c : UInt8} (hn : c ≠ 110) (ht : c ≠ 116) (hf : c ≠ 102)
    (rest : Bytes) : readWord (c :: rest) = none := by
  have hbeq {b : UInt8} (h : c ≠ b) : (b == c) = false := beq_false_of_ne (Ne.symm h)
  simp [readWord, words_eq, List.isPrefixOf?, hbeq hn, hbeq ht, hbeq hf]

/-- A string literal is read. -/
theorem readLiteral_complete {us : List StringUnit} (h : ∀ u ∈ us, u.WellFormed) (rest : Bytes) :
    readLiteral (literal us ++ rest) = some (us, rest) := by
  have htext : literal us ++ rest = 34 :: (us.flatMap StringUnit.text ++ 34 :: rest) := by
    simp [literal]
  have hlength := StringUnit.length_le_flatMap h
  rw [htext, readLiteral, List.head?_cons, if_pos rfl, List.tail_cons]
  apply readUnits_complete h
  rw [List.length_append, List.length_cons]
  omega

section Values

variable {real : Numeral → Binary64} {depth : Nat} {rest : Bytes}

/-- A closing bracket starts no value. -/
theorem readValue_closing : readValue real depth (93 :: rest) = none := by
  cases depth with
  | zero => rfl
  | succ depth => rfl

/-- Blanks and a closing bracket are no element. -/
theorem readElement_closing {blank : Bytes} (h : IsBlank blank) :
    readElement (readValue real depth) (blank ++ 93 :: rest) = none := by
  have hdrop : dropBlanks (blank ++ 93 :: rest) = 93 :: rest := by
    apply dropBlanks_append h
    rintro _ ⟨⟩
    rfl
  rw [readElement, hdrop, readValue_closing]
  rfl

/-- Blanks and a closing brace are no member. -/
theorem readMember_closing {blank : Bytes} (h : IsBlank blank) :
    readMember (readValue real depth) (blank ++ 125 :: rest) = none := by
  have hdrop : dropBlanks (blank ++ 125 :: rest) = 125 :: rest := by
    apply dropBlanks_append h
    rintro _ ⟨⟩
    rfl
  rw [readMember, hdrop]
  rfl

/-- A word is read as a value. -/
theorem readValue_word {text : Bytes} {d : Document} (h : (text, d) ∈ words) :
    readValue real (depth + 1) (text ++ rest) = some (d, rest) := by
  have hword := readWord_complete h rest
  rw [words_eq] at h
  simp only [List.mem_cons, List.not_mem_nil, or_false, Prod.mk.injEq] at h
  rcases h with ⟨rfl, rfl⟩ | ⟨rfl, rfl⟩ | ⟨rfl, rfl⟩
  all_goals
    rw [readValue, hword]
    rfl

/-- A numeral is read as a value. -/
theorem readValue_numeral {n : Numeral} (h : n.WellFormed) (hrest : EndsNumeral rest) :
    readValue real (depth + 1) (n.text ++ rest) = some (n.document real, rest) := by
  have hread := readNumeral_complete h hrest
  rcases Numeral.exists_cons_of_wellFormed h with ⟨c, tail, htext, hc⟩
  have hbyte : c ≠ 34 ∧ c ≠ 91 ∧ c ≠ 123 ∧ c ≠ 110 ∧ c ≠ 116 ∧ c ≠ 102 := by
    rcases hc with rfl | hdigit
    · decide
    · refine ⟨?_, ?_, ?_, ?_, ?_, ?_⟩
      all_goals
        rintro rfl
        cases hdigit
  rcases hbyte with ⟨hquote, harray, hobject, hn, ht, hf⟩
  rw [htext, List.cons_append] at hread ⊢
  simp [readValue, hquote, harray, hobject, readWord_eq_none hn ht hf, hread]

/-- A string literal is read as a value. -/
theorem readValue_string {us : List StringUnit} (h : ∀ u ∈ us, u.WellFormed) :
    readValue real (depth + 1) (literal us ++ rest) = some (.string (textOf us), rest) := by
  have hhead : (literal us ++ rest).head? = some 34 := rfl
  rw [readValue, if_pos hhead, readLiteral_complete h]
  rfl

/-- An array is read as the items between its brackets. -/
theorem readValue_array {text : Bytes} {items : List Document}
    (h : readSequence (readElement (readValue real depth)) 93 text = some (items, rest)) :
    readValue real (depth + 1) (91 :: text) = some (.array items, rest) := by
  simp [readValue, h]

/-- An object is read as the members between its braces. -/
theorem readValue_object {text : Bytes} {members : List (Bytes × Document)}
    (h : readSequence (readMember (readValue real depth)) 125 text = some (members, rest)) :
    readValue real (depth + 1) (123 :: text) = some (.object members, rest) := by
  simp [readValue, h]

/-- An element is read where its value is. -/
theorem readElement_complete {before text after : Bytes} {d : Document} (hbefore : IsBlank before)
    (hafter : IsBlank after) (hrest : Closes rest)
    (htext : ∃ c tail, text = c :: tail ∧ isBlank c = false)
    (h : readValue real depth (text ++ (after ++ rest)) = some (d, after ++ rest)) :
    readElement (readValue real depth) (before ++ (text ++ (after ++ rest))) = some (d, rest) := by
  have hstart : dropBlanks (before ++ (text ++ (after ++ rest))) = text ++ (after ++ rest) := by
    apply dropBlanks_append hbefore
    rcases htext with ⟨c, tail, rfl, hc⟩
    rintro _ ⟨⟩
    exact hc
  rw [readElement, hstart, h, Option.map_some, dropBlanks_append hafter hrest.head?_not_blank]

/-- A member is read where its element is. -/
theorem readMember_complete {before between text : Bytes} {us : List StringUnit} {d : Document}
    (hbefore : IsBlank before) (hbetween : IsBlank between) (hkey : ∀ u ∈ us, u.WellFormed)
    (h : readElement (readValue real depth) (text ++ rest) = some (d, rest)) :
    readMember (readValue real depth)
      (before ++ (literal us ++ (between ++ 58 :: (text ++ rest)))) =
        some ((textOf us, d), rest) := by
  have hstart : dropBlanks (before ++ (literal us ++ (between ++ 58 :: (text ++ rest)))) =
      literal us ++ (between ++ 58 :: (text ++ rest)) := by
    apply dropBlanks_append hbefore
    rintro _ ⟨⟩
    rfl
  have hcolon : dropBlanks (between ++ 58 :: (text ++ rest)) = 58 :: (text ++ rest) := by
    apply dropBlanks_append hbetween
    rintro _ ⟨⟩
    rfl
  rw [readMember, hstart, readLiteral_complete hkey]
  simp [hcolon, h]

end Values

/-- Items that are read before whatever closes them are read between brackets. -/
theorem readSequence_pieces {α : Type} {item : Bytes → Option (α × Bytes)} {close : UInt8}
    (hclose : close = 93 ∨ close = 125) {pieces : List (α × Bytes)} (hne : pieces ≠ [])
    {depth : Nat} (hdepth : ([44].intercalate (pieces.map Prod.snd)).length ≤ depth)
    (hitem : ∀ piece ∈ pieces, ∀ rest, piece.2.length ≤ depth → Closes rest →
      item (piece.2 ++ rest) = some (piece.1, rest)) (rest : Bytes) :
    readSequence item close ([44].intercalate (pieces.map Prod.snd) ++ close :: rest) =
      some (pieces.map Prod.fst, rest) := by
  have hcomma : close ≠ 44 := by
    rcases hclose with rfl | rfl <;> decide
  apply readSequence_complete hcomma hne
  intro piece hpiece c tail hc
  have hlength := length_le_intercalate 44 (List.mem_map_of_mem (f := Prod.snd) hpiece)
  have hcloses : Closes (c :: tail) := by
    rintro _ ⟨⟩
    rcases hc with rfl | rfl
    · exact .inl rfl
    · exact .inr hclose
  exact hitem piece hpiece (c :: tail) (Nat.le_trans hlength hdepth) hcloses

/-- A value is read at every depth if it is read where a level is left for it. -/
theorem completes_value {real : Numeral → Binary64} {d : Document} {text : Bytes}
    (hgrammar : Grammar real (.value d) text)
    (h : ∀ depth rest, text.length ≤ depth + 1 → Stops rest →
      readValue real (depth + 1) (text ++ rest) = some (d, rest)) :
    Completes real (.value d) text := by
  intro depth rest hdepth hstops
  rcases hgrammar.exists_cons with ⟨c, tail, rfl, -⟩
  cases depth with
  | zero => cases hdepth
  | succ depth => exact h depth rest hdepth hstops

/-- Every text of the grammar is read. -/
theorem Grammar.completes {real : Numeral → Binary64} {phrase : Phrase} {text : Bytes}
    (h : Grammar real phrase text) : Completes real phrase text := by
  induction h with
  | word h => exact completes_value (.word h) fun depth rest _ _ => readValue_word h
  | numeral h =>
      exact completes_value (.numeral h) fun depth rest _ hstops =>
        readValue_numeral h hstops.endsNumeral
  | string h => exact completes_value (.string h) fun depth rest _ _ => readValue_string h
  | emptyArray h =>
      apply completes_value (.emptyArray h)
      intro depth rest _ _
      rw [← bracketed_append]
      exact readValue_array (readSequence_blank rfl h (readElement_closing h))
  | array hne h ih =>
      apply completes_value (.array hne h)
      intro depth rest hdepth _
      rw [List.length_cons, List.length_append] at hdepth
      rw [← bracketed_append]
      apply readValue_array
      have hpieces := Nat.le_of_add_right_le (Nat.le_of_succ_le_succ hdepth)
      apply readSequence_pieces (.inl rfl) hne hpieces
      exact fun item hitem rest => ih item hitem depth rest
  | emptyObject h =>
      apply completes_value (.emptyObject h)
      intro depth rest _ _
      rw [← bracketed_append]
      exact readValue_object (readSequence_blank rfl h (readMember_closing h))
  | object hne h ih =>
      apply completes_value (.object hne h)
      intro depth rest hdepth _
      rw [List.length_cons, List.length_append] at hdepth
      rw [← bracketed_append]
      apply readValue_object
      have hpieces := Nat.le_of_add_right_le (Nat.le_of_succ_le_succ hdepth)
      apply readSequence_pieces (.inr rfl) hne hpieces
      exact fun member hmember rest => ih member hmember depth rest
  | @element before text after d hbefore hafter h ih =>
      intro depth rest hdepth hcloses
      have hlength : text.length ≤ depth := by
        rw [List.length_append, List.length_append] at hdepth
        omega
      rw [List.append_assoc, List.append_assoc]
      exact readElement_complete hbefore hafter hcloses h.exists_cons
        (ih depth (after ++ rest) hlength (hcloses.stops hafter))
  | @member before between text us d hbefore hbetween hkey h ih =>
      intro depth rest hdepth hcloses
      have hlength : text.length ≤ depth := by
        rw [List.length_append, List.length_append, List.length_append, List.length_cons] at hdepth
        omega
      rw [List.append_assoc, List.append_assoc, List.append_assoc, List.cons_append]
      exact readMember_complete hbefore hbetween hkey (ih depth rest hlength hcloses)

/-- The reader decides the grammar: it reads exactly the texts of documents, each as a whole. -/
theorem read?_eq_some_iff {real : Numeral → Binary64} {text : Bytes} {d : Document} :
    read? real text = some d ↔ Grammar real (.element d) text := by
  constructor
  · intro h
    unfold read? at h
    split at h
    · next d' hread =>
        cases h
        rcases readElement_sound readValue_sound _ _ _ hread with ⟨t, ht, hgrammar⟩
        rw [ht, List.append_nil]
        exact hgrammar
    · cases h
  · intro h
    have hread := h.completes text.length [] (Nat.le_refl _) nofun
    rw [List.append_nil] at hread
    rw [read?, hread]

end Json
end ApiGateway
