import ApiGateway.Proofs.BoundParameters
import ApiGateway.Proofs.HeaderLists

/-!
# Exact binding

What a request gives to a declared parameter is said for each location by itself: the first
capture of a path parameter, all values of a query field, the first header, all values in the
first cookie header.  Binding appends these values parameter by parameter, in the order of their
declaration, up to the first required parameter to which nothing is given.

Main definitions:

- `Params.FirstValue`: the first capture of a name.
- `Binder.Gives`: the values that a request gives to a parameter.
- `Binder.Binds`: the entries for parameters, one after another.
- `Binder.BindsExactly`: what a binding leaves, when it fails, and with which fault.

Main results:

- `Binder.gives_iff`: every parameter is given the values that the binder looks up.
- `Binder.binds_iff`: the entries for parameters are those that the binder appends.
- `Arguments.get?_eq_getLast?`: a single value is the last of all.
- `Binder.standard_binds_exactly`: the standard binder binds exactly.
-/

namespace ApiGateway

/-! ## First captures -/

/-- The first capture of that name has the value. -/
def Params.FirstValue (params : Params) (name value : Bytes) : Prop :=
  ∃ before after, params = before ++ (name, value) :: after ∧ ∀ entry ∈ before, entry.1 ≠ name

/-- A capture is read from the first entry of its name. -/
theorem Params.get?_eq_some_iff {params : Params} {name value : Bytes} :
    params.get? name = some value ↔ params.FirstValue name value := by
  rw [get?, List.lookup_eq_some_iff]
  simp only [FirstValue, bne_iff_ne, ne_comm]

/-- Nothing is captured under a name that no entry has. -/
theorem Params.get?_eq_none_iff {params : Params} {name : Bytes} :
    params.get? name = none ↔ ∀ entry ∈ params, entry.1 ≠ name := by
  rw [get?, List.lookup_eq_none_iff]
  simp only [bne_iff_ne, ne_comm]

/-! ## Single values -/

namespace Arguments

/-- A single value is the last of all values of the name. -/
theorem get?_eq_getLast? (args : Arguments) (name : Bytes) :
    args.get? name = (args.all name).getLast? := by
  rw [get?, all, List.getLast?_map, List.getLast?_eq_head?_reverse, ← List.filter_reverse,
    List.head?_filter]

/-- A name is there if it has a value. -/
theorem contains_iff (args : Arguments) (name : Bytes) :
    args.contains name = true ↔ args.all name ≠ [] := by
  rw [contains, get?_eq_getLast?, List.getLast?_isSome]

end Arguments

/-! ## What a request gives -/

namespace Binder

/-- The values that a request gives to a parameter, by the location of the parameter. -/
inductive Gives (sc : Scope) (p : Parameter) : List Bytes → Prop where
  | captured {routing : Routing} {value : Bytes} (hlocation : p.location = .path)
      (hrouting : sc.routing = some routing) (hvalue : routing.params.FirstValue p.name value) :
      Gives sc p [Http.Percent.decode false value]
  | uncaptured (hlocation : p.location = .path)
      (hnone : ∀ routing, sc.routing = some routing →
        ∀ entry ∈ routing.params, entry.1 ≠ p.name) : Gives sc p []
  | query (hlocation : p.location = .query) :
      Gives sc p (((Http.Query.parse sc.request.query).filter (·.1 == p.name)).map Prod.snd)
  | header {value : Bytes} (hlocation : p.location = .header)
      (hvalue : sc.request.headers.FirstValue p.name value) : Gives sc p [value]
  | headerless (hlocation : p.location = .header)
      (hnone : ∀ entry ∈ sc.request.headers, Bytes.sameIgnoringCase entry.1 p.name = false) :
      Gives sc p []
  | cookies {header : Bytes} (hlocation : p.location = .cookie)
      (hheader : sc.request.headers.FirstValue (Bytes.ofString "cookie") header) :
      Gives sc p (((Http.Cookies.parse header).filter (·.1 == p.name)).map Prod.snd)
  | cookieless (hlocation : p.location = .cookie)
      (hnone : ∀ entry ∈ sc.request.headers,
        Bytes.sameIgnoringCase entry.1 (Bytes.ofString "cookie") = false) : Gives sc p []

variable {sc : Scope} {identifiers : Bool}

/-- A parameter is given the values that the binder looks up for it. -/
theorem gives_valuesOf (sc : Scope) (p : Parameter) : Gives sc p (valuesOf sc p) := by
  unfold valuesOf
  cases hlocation : p.location with
  | path =>
      cases hvalue : sc.routing.bind fun routing => routing.params.get? p.name with
      | none =>
          refine .uncaptured hlocation fun routing hrouting => ?_
          rw [hrouting] at hvalue
          exact Params.get?_eq_none_iff.1 hvalue
      | some value =>
          rcases Option.bind_eq_some_iff.1 hvalue with ⟨routing, hrouting, hfound⟩
          exact .captured hlocation hrouting (Params.get?_eq_some_iff.1 hfound)
  | query => exact .query hlocation
  | header =>
      cases hvalue : sc.request.header? p.name with
      | none => exact .headerless hlocation (Http.Headers.get?_eq_none_iff.1 hvalue)
      | some value => exact .header hlocation (Http.Headers.get?_eq_some_iff.1 hvalue)
  | cookie =>
      cases hheader : sc.request.header? (Bytes.ofString "cookie") with
      | none => exact .cookieless hlocation (Http.Headers.get?_eq_none_iff.1 hheader)
      | some header => exact .cookies hlocation (Http.Headers.get?_eq_some_iff.1 hheader)

/-- A parameter is given nothing else. -/
theorem Gives.eq_valuesOf {p : Parameter} {values : List Bytes} (h : Gives sc p values) :
    values = valuesOf sc p := by
  unfold valuesOf
  cases h with
  | captured hlocation hrouting hvalue =>
      rw [hlocation, hrouting]
      simp only [Option.bind_some, Params.get?_eq_some_iff.2 hvalue]
  | uncaptured hlocation hnone =>
      rw [hlocation]
      cases hrouting : sc.routing with
      | none => rfl
      | some routing =>
          simp only [Option.bind_some, Params.get?_eq_none_iff.2 (hnone routing hrouting)]
  | query hlocation => rw [hlocation]
  | header hlocation hvalue =>
      rw [hlocation]
      simp only [Request.header?, Http.Headers.get?_eq_some_iff.2 hvalue, Option.toList_some]
  | headerless hlocation hnone =>
      rw [hlocation]
      simp only [Request.header?, Http.Headers.get?_eq_none_iff.2 hnone, Option.toList_none]
  | cookies hlocation hheader =>
      rw [hlocation]
      simp only [Request.header?, Http.Headers.get?_eq_some_iff.2 hheader]
  | cookieless hlocation hnone =>
      rw [hlocation]
      simp only [Request.header?, Http.Headers.get?_eq_none_iff.2 hnone]

/-- What a parameter is given is one list of values. -/
theorem gives_iff {p : Parameter} {values : List Bytes} :
    Gives sc p values ↔ values = valuesOf sc p := by
  constructor
  · exact Gives.eq_valuesOf
  · rintro rfl
    exact gives_valuesOf sc p

/-- A parameter lacks a value if it is required and given nothing. -/
theorem lacks_iff {p : Parameter} : Lacks sc p ↔ p.required = true ∧ Gives sc p [] := by
  rw [Lacks, gives_iff, eq_comm (a := [])]

/-! ## What is bound -/

/-- The entries for parameters: their values in order, each under the name of its parameter. -/
inductive Binds (sc : Scope) (identifiers : Bool) :
    List Parameter → List (Bytes × Bytes) → Prop where
  | nil : Binds sc identifiers [] []
  | cons {p : Parameter} {rest : List Parameter} {values : List Bytes}
      {entries : List (Bytes × Bytes)} (hgives : Gives sc p values)
      (hrest : Binds sc identifiers rest entries) :
      Binds sc identifiers (p :: rest) (values.map (boundName identifiers p, ·) ++ entries)

/-- The entries that are bound for parameters are these. -/
theorem binds_iff {ps : List Parameter} {entries : List (Bytes × Bytes)} :
    Binds sc identifiers ps entries ↔ entries = entriesOf sc identifiers ps := by
  constructor
  · intro h
    induction h with
    | nil => rfl
    | cons hgives _ ih => rw [hgives.eq_valuesOf, ih, entriesOf, entriesOf, List.flatMap_cons]
  · rintro rfl
    induction ps with
    | nil => exact .nil
    | cons p rest ih =>
        rw [entriesOf, List.flatMap_cons]
        exact .cons (gives_valuesOf sc p) ih

/-- The fault is a bad request for a missing parameter, and tells its location and its name. -/
def Reports (e : Fault) (p : Parameter) : Prop :=
  ∃ problem, e = .problem problem (some .missingParameter) ∧ problem.status = 400 ∧
    problem.detail = some (Bytes.ofString "missing " ++ p.location.name ++
      Bytes.ofString " parameter '" ++ p.name ++ Bytes.ofString "'")

/-- The fault of a missing parameter reports it. -/
theorem reports_missing (p : Parameter) : Reports (missing p) p := by
  refine ⟨_, rfl, rfl, ?_⟩
  rw [Problem.badRequest, Problem.ofStatus, Problem.make, if_neg]
  rw [List.isEmpty_iff]
  simp only [List.append_assoc]
  exact List.append_ne_nil_of_left_ne_nil (by decide) _

/--
What a binding leaves of the initial arguments, when it fails and with which fault, and how its
values are read.
-/
structure BindsExactly (op : OperationSpec) (sc : Scope) (identifiers : Bool) (args : Arguments)
    (binding : Binding) : Prop where
  /-- A binding fails if some required parameter is given nothing. -/
  fails_iff : (∃ e, binding.failure = some e) ↔
    ∃ p ∈ op.parameters, p.required = true ∧ Gives sc p []
  /-- Without a failure the values of all parameters are appended. -/
  binds_all : binding.failure = none → ∃ entries, Binds sc identifiers op.parameters entries ∧
    binding.arguments = args.extend entries
  /-- A failure reports the first such parameter, behind the values of the parameters before it. -/
  stops : ∀ e, binding.failure = some e → ∃ before p after entries,
    op.parameters = before ++ p :: after ∧
      (∀ q ∈ before, ¬(q.required = true ∧ Gives sc q [])) ∧
      p.required = true ∧ Gives sc p [] ∧ Reports e p ∧
      Binds sc identifiers before entries ∧ binding.arguments = args.extend entries
  /-- A single value of a name is the last one. -/
  get?_eq : ∀ name, binding.arguments.get? name = (binding.arguments.all name).getLast?
  /-- A name is there if it has some value. -/
  contains_iff : ∀ name,
    binding.arguments.contains name = true ↔ binding.arguments.all name ≠ []

/-- The standard binder binds exactly what a request gives to the parameters of an operation. -/
theorem standard_binds_exactly (op : OperationSpec) (sc : Scope) (identifiers : Bool)
    (args : Arguments) :
    BindsExactly op sc identifiers args (standard op sc identifiers args) := by
  have hread (binding : Binding) (name : Bytes) :
      binding.arguments.get? name = (binding.arguments.all name).getLast? ∧
        (binding.arguments.contains name = true ↔ binding.arguments.all name ≠ []) :=
    ⟨Arguments.get?_eq_getLast? _ _, Arguments.contains_iff _ _⟩
  rcases bindParameters_cases sc identifiers args op.parameters with
    ⟨hall, hbinding⟩ | ⟨before, p, after, hsplit, hbefore, hlacks, hbinding⟩
  · rw [standard, hbinding]
    refine ⟨iff_of_false nofun ?_, fun _ => ⟨_, binds_iff.2 rfl, rfl⟩, nofun,
      fun name => (hread _ name).1, fun name => (hread _ name).2⟩
    rintro ⟨p, hp, hlacks⟩
    exact hall p hp (lacks_iff.2 hlacks)
  · have hp := lacks_iff.1 hlacks
    rw [standard, hbinding]
    refine ⟨iff_of_true ⟨_, rfl⟩ ⟨p, ?_, hp⟩, nofun, ?_, fun name => (hread _ name).1,
      fun name => (hread _ name).2⟩
    · rw [hsplit]
      exact List.mem_append_right before List.mem_cons_self
    · rintro e ⟨⟩
      exact ⟨before, p, after, _, hsplit, fun q hq => mt lacks_iff.2 (hbefore q hq), hp.1, hp.2,
        reports_missing p, binds_iff.2 rfl, rfl⟩

end Binder
end ApiGateway
