import Mathlib.Data.List.Nodup
import ApiGateway.Operation.Binding

/-!
# Bound parameters

Binding goes through the declared parameters in their order and stops at the first
required one without value.  Up to there every name collects the values of the
parameters that are bound under it.

Main definitions:

- `Arguments.extend`: arguments with further entries.
- `Binder.entriesOf`: the entries that are bound for parameters.
- `Binder.Lacks`: a required parameter without value.

Main results:

- `Binder.bindParameters_cases`: a binding goes through, or it stops at a parameter.
- `Binder.all_bindParameters`: the values under a name after a binding that succeeds.
- `Binder.missing_of_failure`: the fault of a binding that fails.
- `Binder.missing_inj`: the fault tells which parameter has no value.
-/

namespace ApiGateway

namespace Arguments

/-- The arguments with further entries behind the others. -/
def extend (args : Arguments) (entries : List (Bytes × Bytes)) : Arguments :=
  { args with values := args.values ++ entries }

@[simp]
theorem extend_nil (args : Arguments) : args.extend [] = args := by
  rw [extend, List.append_nil]

@[simp]
theorem extend_extend (args : Arguments) (first rest : List (Bytes × Bytes)) :
    (args.extend first).extend rest = args.extend (first ++ rest) := by
  rw [extend, extend, extend, List.append_assoc]

/-- Values are bound to a name one after another. -/
theorem addAll_eq_extend (args : Arguments) (name : Bytes) (values : List Bytes) :
    args.addAll name values = args.extend (values.map (name, ·)) := by
  induction values generalizing args with
  | nil => exact (extend_nil args).symm
  | cons value rest ih =>
      have hstep : args.addAll name (value :: rest) =
          (args.extend [(name, value)]).addAll name rest := rfl
      rw [hstep, ih, extend_extend, List.map_cons, List.singleton_append]

/-- The values of a name are those that it had, then those of the further entries. -/
theorem all_extend (args : Arguments) (entries : List (Bytes × Bytes)) (name : Bytes) :
    (args.extend entries).all name =
      args.all name ++ (entries.filter fun entry => entry.1 == name).map Prod.snd := by
  rw [all, extend, List.filter_append, List.map_append, all]

end Arguments

namespace Binder

variable {sc : Scope} {identifiers : Bool} {args : Arguments} {ps : List Parameter}

/-- The entries that are bound for parameters, one after another. -/
def entriesOf (sc : Scope) (identifiers : Bool) (ps : List Parameter) : List (Bytes × Bytes) :=
  ps.flatMap fun p => (valuesOf sc p).map (boundName identifiers p, ·)

/-- The parameter is required and has no value. -/
def Lacks (sc : Scope) (p : Parameter) : Prop :=
  p.required = true ∧ valuesOf sc p = []

/--
A binding goes through all parameters, or it stops at the first required one without value.  What
belongs to the parameters before it stays bound.
-/
theorem bindParameters_cases (sc : Scope) (identifiers : Bool) (args : Arguments)
    (ps : List Parameter) :
    (∀ p ∈ ps, ¬Lacks sc p) ∧
        bindParameters sc identifiers args ps = ⟨args.extend (entriesOf sc identifiers ps), none⟩ ∨
      ∃ before p after, ps = before ++ p :: after ∧ (∀ q ∈ before, ¬Lacks sc q) ∧ Lacks sc p ∧
        bindParameters sc identifiers args ps =
          ⟨args.extend (entriesOf sc identifiers before), some (missing p)⟩ := by
  induction ps generalizing args with
  | nil =>
      refine .inl ⟨fun p hp => absurd hp List.not_mem_nil, ?_⟩
      rw [bindParameters, entriesOf, List.flatMap_nil, Arguments.extend_nil]
  | cons p rest ih =>
      have hlacks : ((valuesOf sc p).isEmpty && p.required) = true ↔ Lacks sc p := by
        rw [Bool.and_eq_true, List.isEmpty_iff, Lacks, and_comm]
      by_cases hp : Lacks sc p
      · refine .inr ⟨[], p, rest, rfl, fun q hq => absurd hq List.not_mem_nil, hp, ?_⟩
        rw [bindParameters, if_pos (hlacks.2 hp), entriesOf, List.flatMap_nil,
          Arguments.extend_nil]
      · have hstep : bindParameters sc identifiers args (p :: rest) =
            bindParameters sc identifiers
              (args.extend ((valuesOf sc p).map (boundName identifiers p, ·))) rest := by
          rw [bindParameters, if_neg (mt hlacks.1 hp), Arguments.addAll_eq_extend]
        rw [hstep]
        rcases ih (args.extend ((valuesOf sc p).map (boundName identifiers p, ·))) with
          ⟨hrest, hbinding⟩ | ⟨before, q, after, rfl, hbefore, hq, hbinding⟩
        · refine .inl ⟨List.forall_mem_cons.2 ⟨hp, hrest⟩, ?_⟩
          rw [hbinding, Arguments.extend_extend]
          rfl
        · refine .inr ⟨p :: before, q, after, rfl, List.forall_mem_cons.2 ⟨hp, hbefore⟩, hq, ?_⟩
          rw [hbinding, Arguments.extend_extend]
          rfl

/-- Under a name stand the values of the parameters that are bound under it. -/
theorem values_entriesOf (name : Bytes) :
    ((entriesOf sc identifiers ps).filter fun entry => entry.1 == name).map Prod.snd =
      (ps.filter fun p => boundName identifiers p == name).flatMap (valuesOf sc) := by
  induction ps with
  | nil => rfl
  | cons p rest ih =>
      rw [entriesOf, List.flatMap_cons, List.filter_append, List.map_append, ← entriesOf, ih,
        List.filter_cons]
      by_cases hname : boundName identifiers p = name
      · simp [List.filter_map, Function.comp_def, hname]
      · simp [List.filter_map, Function.comp_def, hname]

/-- After a binding that succeeds a name has the values of the parameters bound under it. -/
theorem all_bindParameters (hok : (bindParameters sc identifiers args ps).failure = none)
    (name : Bytes) :
    (bindParameters sc identifiers args ps).arguments.all name =
      args.all name ++
        (ps.filter fun p => boundName identifiers p == name).flatMap (valuesOf sc) := by
  rcases bindParameters_cases sc identifiers args ps with
    ⟨-, hbinding⟩ | ⟨_, _, _, -, -, -, hbinding⟩
  · rw [hbinding, Arguments.all_extend, values_entriesOf]
  · rw [hbinding] at hok
    cases hok

/-- A binding fails because a required parameter has no value. -/
theorem missing_of_failure {e : Fault}
    (h : (bindParameters sc identifiers args ps).failure = some e) :
    ∃ p ∈ ps, p.required = true ∧ valuesOf sc p = [] ∧ e = missing p := by
  rcases bindParameters_cases sc identifiers args ps with
    ⟨-, hbinding⟩ | ⟨before, p, after, rfl, -, ⟨hrequired, hnone⟩, hbinding⟩
  · rw [hbinding] at h
    cases h
  · rw [hbinding] at h
    cases h
    exact ⟨p, List.mem_append_right before List.mem_cons_self, hrequired, hnone, rfl⟩

/-- Where names are different, a name has the values of its parameter. -/
theorem filter_name_of_nodup (hnames : (ps.map Parameter.name).Nodup) {p : Parameter}
    (hp : p ∈ ps) : (ps.filter fun other => boundName false other == p.name) = [p] := by
  have hsame : ∀ other ∈ ps, (boundName false other == p.name) = (other == p) := by
    intro other hother
    rw [Bool.eq_iff_iff, beq_iff_eq, beq_iff_eq]
    constructor
    · intro hname
      exact List.inj_on_of_nodup_map hnames hother hp hname
    · rintro rfl
      rfl
  rw [List.filter_congr hsame, List.filter_beq, List.count_eq_one_of_mem hnames.of_map hp]
  rfl

/-- A path parameter has the decoded value that routing has captured. -/
theorem valuesOf_path {p : Parameter} {routing : Routing} {value : Bytes}
    (hlocation : p.location = .path) (hrouting : sc.routing = some routing)
    (hvalue : routing.params.get? p.name = some value) :
    valuesOf sc p = [Http.Percent.decode false value] := by
  unfold valuesOf
  rw [hlocation, hrouting]
  simp only [Option.bind_some, hvalue]

/-! ## Missing parameters -/

/-- Locations can be told apart by the first bytes of their names. -/
theorem location_eq_of_name_append {a b : Location} {first rest : Bytes}
    (h : a.name ++ first = b.name ++ rest) : a = b := by
  have hhead := congrArg List.head? h
  cases a <;> cases b <;> first | rfl | cases hhead

/-- The text of the fault of a missing parameter. -/
theorem wording_missing (p : Parameter) :
    (missing p).wording = Bytes.ofString "missing " ++ (p.location.name ++
      (Bytes.ofString " parameter '" ++ (p.name ++ Bytes.ofString "'"))) := by
  simp only [missing, Fault.wording, Problem.summary, Problem.badRequest, Problem.ofStatus,
    Problem.make, List.append_assoc]
  rw [if_neg]
  · rfl
  · exact Bool.false_ne_true

/-- The fault of a missing parameter tells its location and its name. -/
theorem missing_inj {p q : Parameter} (h : missing p = missing q) :
    p.location = q.location ∧ p.name = q.name := by
  have htext := congrArg Fault.wording h
  rw [wording_missing, wording_missing] at htext
  have hrest := List.append_cancel_left htext
  have hlocation := location_eq_of_name_append hrest
  rw [hlocation] at hrest
  have hname := List.append_cancel_left (List.append_cancel_left hrest)
  exact ⟨hlocation, List.append_cancel_right hname⟩

end Binder
end ApiGateway
