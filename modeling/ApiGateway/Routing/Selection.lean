import ApiGateway.Routing.Pattern

/-!
# Selecting the most specific match

Among the templates that match a path, the one with the greatest score is
selected, and the earliest of them if several have it.

Main definitions:

- `Candidate`: an entry whose template matches, with its parameters and its score.
- `mostSpecific`: the selected candidate.
-/

namespace ApiGateway
namespace Routing

/-- An entry that matches. -/
structure Candidate (α : Type) where
  entry : α
  params : Params
  score : Nat
deriving Repr

namespace Candidate

variable {α : Type}

/-- The candidate that an entry becomes if its template matches the path. -/
def of? (pattern : α → Pattern) (path : Bytes) (entry : α) : Option (Candidate α) :=
  ((pattern entry).match? path).map fun params => ⟨entry, params, (pattern entry).score⟩

/-- The later candidate replaces the best one so far only if it scores more. -/
def better (best : Option (Candidate α)) (next : Candidate α) : Option (Candidate α) :=
  match best with
  | none => some next
  | some c => if c.score < next.score then some next else some c

end Candidate

/-- The earliest candidate of the greatest score. -/
def mostSpecific {α : Type} (candidates : List (Candidate α)) : Option (Candidate α) :=
  candidates.foldl Candidate.better none

@[simp]
theorem mostSpecific_nil {α : Type} : mostSpecific ([] : List (Candidate α)) = none :=
  rfl

/-- A later candidate is selected exactly if it scores more than the earlier ones. -/
theorem mostSpecific_append_singleton {α : Type} (candidates : List (Candidate α))
    (next : Candidate α) :
    mostSpecific (candidates ++ [next]) = Candidate.better (mostSpecific candidates) next := by
  simp [mostSpecific]

end Routing
end ApiGateway
