import ApiGateway.Proofs.Agendas

/-!
# Requests on their way

For each request either one step stands in the queue, with the rest of its program, or none;
and running that rest from the state of the request leads to the end that the request would
have had alone.  Every operation keeps this, since a step touches no request but its own.

Main definitions:

- `Visit.OnTrack`: the rest of a program leads to the end of the request alone.
- `Visit.Standing`: where a request stands, and what stands in the queue for it.
- `Agenda.Item`: a task in the queue, as an agenda or a step of a request.
- `Server.Sound`: every request stands somewhere.

Main results:

- `Server.Sound.perform`, `Server.Sound.suspend`, `Server.Sound.finish`: what a step does.
- `Server.Sound.enter`, `Server.Sound.keep`, `Server.Sound.release`: what other code does.
-/

namespace ApiGateway

variable {E O : Signature} {σ ω : Type}

/-! ## Requests on their way -/

namespace Visit

variable {endpoint : Endpoint E} {host : Host (Exchange E) σ} {v : Visit E σ}

/-- The place of a completion that is kept. -/
theorem place_of_kept {d : Deferred (Exchange E) Unit} (h : v.kept? = some d) :
    v.place = .kept d := by
  unfold kept? at h
  split at h
  next completion hplace => exact Option.some.inj h ▸ hplace
  next => cases h

/-- A completion that nobody keeps is not given away. -/
theorem release_of_none (h : v.kept? = none) : v.release = v := by
  rcases v with ⟨scope, initial, state, place, events, ends⟩
  cases place with
  | kept => cases h
  | nowhere | spawned => rfl

/-- From where the request is, running a program leads to the end of the request alone. -/
structure OnTrack (endpoint : Endpoint E) (host : Host (Exchange E) σ) (v : Visit E σ)
    (p : Prog (Exchange E) Unit) : Prop where
  events : v.events ++ (p.transcript host v.state).filter (fun event => !event.isResumed) =
    ((endpoint v.scope).transcript host v.initial).filter fun event => !event.isResumed
  outcome : (p.run host v.state).outcome = ((endpoint v.scope).run host v.initial).outcome
  state : (p.run host v.state).state = ((endpoint v.scope).run host v.initial).state

/-- The program of the endpoint leads there from the start. -/
theorem onTrack_enter (endpoint : Endpoint E) (host : Host (Exchange E) σ) (scope : Scope)
    (initial : σ) : OnTrack endpoint host { scope, initial } (endpoint scope) :=
  ⟨rfl, rfl, rfl⟩

/-- So does what is left after an operation. -/
theorem OnTrack.perform {op : (Exchange E).Op}
    {next : (Exchange E).Ans op → Prog (Exchange E) Unit}
    (h : v.OnTrack endpoint host (.call op next)) :
    (v.perform op (host.answer op v.state).1 (host.answer op v.state).2).OnTrack endpoint host
      (next (host.answer op v.state).1) := by
  refine ⟨?_, h.outcome, h.state⟩
  rw [Visit.perform, List.append_assoc]
  exact h.events

/-- So does what is left at a suspension. -/
theorem OnTrack.resume {rest : Prog (Exchange E) Unit}
    (h : v.OnTrack endpoint host (.suspend rest)) : v.OnTrack endpoint host rest :=
  ⟨h.events, h.outcome, h.state⟩

/-- A program that ends leaves the request where it would have been alone. -/
theorem OnTrack.finish {p : Prog (Exchange E) Unit} (h : v.OnTrack endpoint host p)
    (hends : v.ends = []) (hevents : p.transcript host v.state = [])
    (hstate : (p.run host v.state).state = v.state) :
    (v.finish (p.run host v.state).failure?).AsAlone endpoint host := by
  refine ⟨?_, ?_, ?_⟩
  · have hperformed := h.events
    rwa [hevents, List.filter_nil, List.append_nil] at hperformed
  · exact hstate.symm.trans h.state
  · change v.ends ++ [_] = [_]
    rw [hends, Ending.failure?, h.outcome]
    rfl

/-- Where a request stands, and the rests of its program that stand in the queue. -/
inductive Standing (endpoint : Endpoint E) (host : Host (Exchange E) σ) (v : Visit E σ) :
    List (Prog (Exchange E) Unit) → Prop where
  | nowhere (hplace : v.place = .nowhere) (hends : v.ends = []) : Standing endpoint host v []
  | kept {d : Deferred (Exchange E) Unit} (hplace : v.place = .kept d) (hends : v.ends = [])
      (h : v.OnTrack endpoint host d.toProg) : Standing endpoint host v []
  | underWay {p : Prog (Exchange E) Unit} (hplace : v.place = .spawned) (hends : v.ends = [])
      (h : v.OnTrack endpoint host p) : Standing endpoint host v [p]
  | ended (hplace : v.place = .spawned) (h : v.AsAlone endpoint host) : Standing endpoint host v []

end Visit

/-! ## The queue -/

/-- A task in the queue. -/
inductive Agenda.Item (E O : Signature) (σ : Type) where
  | code (agenda : Agenda E O σ)
  | step (i : Nat) (onDone : Agenda E O σ) (onFailure : Fault → Agenda E O σ)
      (rest : Prog (Exchange E) Unit)

namespace Agenda.Item

/-- The task itself. -/
def task (endpoint : Endpoint E) : Item E O σ → Task (ServerEffects E O σ)
  | .code agenda => agenda.task endpoint
  | .step i onDone onFailure rest =>
    Agenda.step i (onDone.task endpoint) (fun e => (onFailure e).task endpoint) rest

/-- The rest of a program, if the task is a step of that request. -/
def rest? (i : Nat) : Item E O σ → Option (Prog (Exchange E) Unit)
  | .code _ => none
  | .step j _ _ rest => if j = i then some rest else none

/-- The rests of the program of one request. -/
def rests (i : Nat) (items : List (Item E O σ)) : List (Prog (Exchange E) Unit) :=
  items.filterMap (rest? i)

@[simp]
theorem rests_append (i : Nat) (first second : List (Item E O σ)) :
    rests i (first ++ second) = rests i first ++ rests i second :=
  List.filterMap_append

@[simp]
theorem rests_code (i : Nat) (agenda : Agenda E O σ) (items : List (Item E O σ)) :
    rests i (.code agenda :: items) = rests i items :=
  rfl

theorem rests_step (i : Nat) (onDone : Agenda E O σ) (onFailure : Fault → Agenda E O σ)
    (rest : Prog (Exchange E) Unit) (items : List (Item E O σ)) :
    rests i (.step i onDone onFailure rest :: items) = rest :: rests i items :=
  List.filterMap_cons_some (if_pos rfl)

theorem rests_step_of_ne {i j : Nat} (h : j ≠ i) (onDone : Agenda E O σ)
    (onFailure : Fault → Agenda E O σ) (rest : Prog (Exchange E) Unit)
    (items : List (Item E O σ)) :
    rests i (.step j onDone onFailure rest :: items) = rests i items :=
  List.filterMap_cons_none (if_neg h)

end Agenda.Item

open Agenda (Item)
open Agenda.Item (rests)

namespace Server

/-- Every request stands somewhere, with at most one step in the queue. -/
structure Sound (endpoint : Endpoint E) (host : Host (Exchange E) σ) (s : Server E σ ω)
    (items : List (Item E O σ)) : Prop where
  standing : ∀ i (v : Visit E σ), s.visits[i]? = some v → v.Standing endpoint host (rests i items)
  known : ∀ i, s.visits.length ≤ i → rests i items = []

variable {endpoint : Endpoint E} {host : Host (Exchange E) σ} {s : Server E σ ω}
  {items : List (Item E O σ)} {i : Nat} {v : Visit E σ} {onDone : Agenda E O σ}
  {onFailure : Fault → Agenda E O σ}

/-- A server without requests. -/
theorem sound_empty (others : ω) :
    Sound endpoint host ({ others } : Server E σ ω) ([] : List (Item E O σ)) :=
  ⟨nofun, fun _ _ => rfl⟩

/-- Agendas concern no request. -/
theorem Sound.code (h : s.Sound endpoint host items) (agenda : Agenda E O σ) :
    s.Sound endpoint host (items ++ [.code agenda]) := by
  refine ⟨fun i v hv => ?_, fun i hi => ?_⟩
  · rw [Item.rests_append, Item.rests_code]
    exact (List.append_nil _).symm ▸ h.standing i v hv
  · rw [Item.rests_append, h.known i hi]
    rfl

theorem getElem?_update (s : Server E σ ω) (i j : Nat) (f : Visit E σ → Visit E σ) :
    (s.update i f).visits[j]? = if i = j then s.visits[j]?.map f else s.visits[j]? := by
  rw [update, List.getElem?_modify]
  split
  · rfl
  · exact Option.map_id'

/-- A change to one request, and to what stands in the queue for it. -/
theorem Sound.update {items' : List (Item E O σ)} (h : s.Sound endpoint host items)
    (hv : s.visits[i]? = some v) {f : Visit E σ → Visit E σ}
    (hstanding : (f v).Standing endpoint host (rests i items'))
    (hothers : ∀ j, i ≠ j → rests j items' = rests j items) :
    (s.update i f).Sound endpoint host items' := by
  refine ⟨fun j w hw => ?_, fun j hj => ?_⟩
  · rw [getElem?_update] at hw
    split at hw
    next heq =>
      subst heq
      rw [hv] at hw
      cases hw
      exact hstanding
    next hne =>
      rw [hothers j hne]
      exact h.standing j w hw
  · rw [Server.update, List.length_modify] at hj
    have hlt := (List.getElem?_eq_some_iff.1 hv).1
    rw [hothers j (Nat.ne_of_lt (Nat.lt_of_lt_of_le hlt hj)), h.known j hj]

/-- Nothing stands in the queue for a request whose completion has not been spawned. -/
theorem Sound.rests_eq_nil (h : s.Sound endpoint host items) (hv : s.visits[i]? = some v)
    (hplace : v.place ≠ .spawned) : rests i items = [] := by
  have hstanding := h.standing i v hv
  generalize rests i items = rests at hstanding
  cases hstanding with
  | nowhere | kept => rfl
  | underWay hspawned | ended hspawned => exact absurd hspawned hplace

/-- A step that is begun belongs to a request that is under way and has no other step. -/
theorem Sound.of_step {rest : Prog (Exchange E) Unit}
    (h : s.Sound endpoint host (.step i onDone onFailure rest :: items)) :
    ∃ v, s.visits[i]? = some v ∧ v.place = .spawned ∧ v.ends = [] ∧
      v.OnTrack endpoint host rest ∧ rests i items = [] := by
  have hlt : i < s.visits.length := by
    refine Nat.lt_of_not_le fun hle => ?_
    exact List.cons_ne_nil _ _ ((Item.rests_step i onDone onFailure rest items) ▸ h.known i hle)
  have hv := List.getElem?_eq_getElem hlt
  have hstanding := h.standing i _ hv
  rw [Item.rests_step] at hstanding
  generalize hrests : rests i items = rests at hstanding
  cases hstanding with
  | underWay hplace hends hrest => exact ⟨_, hv, hplace, hends, hrest, rfl⟩

/-- Where nothing is left in the queue, each request that has been spawned is over. -/
theorem Sound.asAlone (h : s.Sound endpoint host ([] : List (Item E O σ))) {v : Visit E σ}
    (hv : v ∈ s.visits) (hplace : v.place = .spawned) : v.AsAlone endpoint host := by
  rcases List.getElem?_of_mem hv with ⟨i, hi⟩
  have hstanding : v.Standing endpoint host [] := h.standing i v hi
  cases hstanding with
  | nowhere hnowhere => cases hplace.symm.trans hnowhere
  | kept hkept => cases hplace.symm.trans hkept
  | ended _ halone => exact halone

/-! ### What each operation does -/

/-- A request comes in. -/
theorem Sound.enter (h : s.Sound endpoint host items) (scope : Scope) (initial : σ) :
    Sound endpoint host { s with visits := s.visits ++ [{ scope, initial }] } items := by
  refine ⟨fun i v hv => ?_, fun i hi => ?_⟩
  · rcases Nat.lt_or_ge i s.visits.length with hlt | hge
    · rw [List.getElem?_append_left hlt] at hv
      exact h.standing i v hv
    · rw [List.getElem?_append_right hge] at hv
      rw [h.known i hge]
      obtain rfl := List.mem_singleton.1 (List.mem_of_getElem? hv)
      exact .nowhere rfl rfl
  · rw [List.length_append] at hi
    exact h.known i (Nat.le_of_add_right_le hi)

/-- A request performs an operation in one of its steps. -/
theorem Sound.perform [Inhabited σ] {op : (Exchange E).Op}
    {next : (Exchange E).Ans op → Prog (Exchange E) Unit}
    (h : s.Sound endpoint host (.step i onDone onFailure (.call op next) :: items)) :
    (s.update i fun v => v.perform op (host.answer op (s.stateOf i)).1
        (host.answer op (s.stateOf i)).2).Sound endpoint host
      (.step i onDone onFailure (next (host.answer op (s.stateOf i)).1) :: items) := by
  rcases h.of_step with ⟨v, hv, hplace, hends, htrack, hrests⟩
  have hstate : s.stateOf i = v.state := by rw [stateOf, hv]; rfl
  rw [hstate]
  refine h.update hv ?_ fun j hj => ?_
  · rw [Item.rests_step, hrests]
    exact .underWay hplace hends htrack.perform
  · rw [Item.rests_step_of_ne hj, Item.rests_step_of_ne hj]

/-- A step suspends, and the next one goes to the end of the queue. -/
theorem Sound.suspend {rest : Prog (Exchange E) Unit}
    (h : s.Sound endpoint host (.step i onDone onFailure (.suspend rest) :: items)) :
    s.Sound endpoint host (items ++ [.step i onDone onFailure rest]) := by
  rcases h.of_step with ⟨v, hv, hplace, hends, htrack, hrests⟩
  have hnil : rests i ([] : List (Item E O σ)) = [] := rfl
  refine ⟨fun j w hw => ?_, fun j hj => ?_⟩
  · by_cases hij : i = j
    · subst hij
      cases hv.symm.trans hw
      rw [Item.rests_append, hrests, Item.rests_step, hnil]
      exact .underWay hplace hends htrack.resume
    · have hstanding := h.standing j w hw
      rw [Item.rests_step_of_ne hij] at hstanding
      rw [Item.rests_append, Item.rests_step_of_ne hij]
      exact (List.append_nil (rests j items)).symm ▸ hstanding
  · have hij : i ≠ j := Nat.ne_of_lt (Nat.lt_of_lt_of_le (List.getElem?_eq_some_iff.1 hv).1 hj)
    have hrestsJ := h.known j hj
    rw [Item.rests_step_of_ne hij] at hrestsJ
    rw [Item.rests_append, hrestsJ, Item.rests_step_of_ne hij]
    rfl

/-- A request is over, and the callback for its end is called. -/
theorem Sound.finish {p : Prog (Exchange E) Unit} {failure : Option Fault}
    (h : s.Sound endpoint host (.step i onDone onFailure p :: items))
    (hp : ∀ state, p.transcript host state = [] ∧ (p.run host state).state = state ∧
      (p.run host state).failure? = failure) :
    (s.update i fun v => v.finish failure).Sound endpoint host items := by
  rcases h.of_step with ⟨v, hv, hplace, hends, htrack, hrests⟩
  rcases hp v.state with ⟨hevents, hstate, rfl⟩
  refine h.update hv ?_ fun j hj => (Item.rests_step_of_ne hj ..).symm
  rw [hrests]
  exact .ended hplace (htrack.finish hends hevents hstate)

/-- The completion of a request is kept. -/
theorem Sound.keep {d : Deferred (Exchange E) Unit} (h : s.Sound endpoint host items)
    (hv : s.visits[i]? = some v) (hplace : v.place = .nowhere) (hends : v.ends = [])
    (htrack : v.OnTrack endpoint host d.toProg) :
    (s.update i fun v => { v with place := .kept d }).Sound endpoint host items := by
  refine h.update hv ?_ fun _ _ => rfl
  rw [h.rests_eq_nil hv (hplace ▸ nofun)]
  exact .kept rfl hends ⟨htrack.events, htrack.outcome, htrack.state⟩

/-- A completion that was kept is spawned, and its first step begins. -/
theorem Sound.release {d : Deferred (Exchange E) Unit} (h : s.Sound endpoint host items)
    (hd : s.visits[i]?.bind Visit.kept? = some d) (onDone : Agenda E O σ)
    (onFailure : Fault → Agenda E O σ) :
    (s.update i Visit.release).Sound endpoint host
      (.step i onDone onFailure d.toProg :: items) := by
  rcases Option.bind_eq_some_iff.1 hd with ⟨v, hv, hkept⟩
  have hplace : v.place = .kept d := Visit.place_of_kept hkept
  have hnone : rests i items = [] := h.rests_eq_nil hv (hplace ▸ nofun)
  have hstanding := h.standing i v hv
  rw [hnone] at hstanding
  cases hstanding with
  | nowhere hnowhere => cases hplace.symm.trans hnowhere
  | ended hspawned => cases hplace.symm.trans hspawned
  | @kept d' hplace' hends htrack =>
      cases hplace.symm.trans hplace'
      refine h.update hv ?_ fun j hj => Item.rests_step_of_ne hj ..
      rw [Item.rests_step, hnone, Visit.release, hplace]
      exact .underWay rfl hends ⟨htrack.events, htrack.outcome, htrack.state⟩

/-- Nothing changes if nobody keeps the completion. -/
theorem update_release_of_none (h : s.visits[i]?.bind Visit.kept? = none) :
    s.update i Visit.release = s := by
  suffices hvisits : s.visits.modify i Visit.release = s.visits by rw [update, hvisits]
  refine List.ext_getElem? fun j => ?_
  rw [List.getElem?_modify]
  split
  next heq =>
    subst heq
    cases hv : s.visits[i]? with
    | none => rfl
    | some v =>
        rw [hv] at h
        exact congrArg some (Visit.release_of_none h)
  next => exact Option.map_id'

end Server
end ApiGateway
