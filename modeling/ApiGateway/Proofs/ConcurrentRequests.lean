import ApiGateway.Proofs.PostponedHandlers
import ApiGateway.Proofs.Scripts
import ApiGateway.Proofs.SoundServers

/-!
# Concurrent requests on the inline executor

All requests use one queue, and their steps interleave.  Agendas and steps keep the server
sound on every executor that does, whatever it does at once with a task; and they never fail,
since a fault of a step goes to the callback.  So the queue keeps the server sound until
nothing is left, the inline executor does, and each request ends as it would have alone.

Main definitions:

- `Server.Runs`, `Server.Safe`: a script keeps a server, or every server, sound and does not fail.
- `Server.Takes`: an executor keeps a server sound when it is handed a task.

Main results:

- `Server.runs_step`, `Server.safe_agenda`: steps and agendas run on every such executor.
- `Server.exists_runFrom_eq`: a queue runs until nothing is left.
- `App.concurrent_requests_end_as_alone`: each spawned request ends as it would have ended alone.
-/

namespace ApiGateway

variable {E O : Signature} {σ ω : Type}

open Agenda (Item)

namespace Server

variable (endpoint : Endpoint E) (host : Host (Exchange E) σ) (others : Host O ω)

/-- An executor that is handed a task keeps the server sound, and no fault comes back from it. -/
def Takes (intake : Intake (ServerEffects E O σ) (Server E σ ω)) : Prop :=
  ∀ (item : Item E O σ) (s : Server E σ ω) (items : List (Item E O σ)),
    s.Sound endpoint host (items ++ [item]) →
      ∃ s' items', intake (item.task endpoint) ⟨s, items.map (Item.task endpoint)⟩ =
        (⟨s', items'.map (Item.task endpoint)⟩, none) ∧ Sound endpoint host s' items'

/-- A queue takes every task. -/
theorem takes_enqueue (endpoint : Endpoint E) (host : Host (Exchange E) σ) :
    Takes endpoint host (Queue.enqueue (S := ServerEffects E O σ) (σ := Server E σ ω)) :=
  fun item s items h => ⟨s, items ++ [item], by rw [List.map_append]; rfl, h⟩

variable [Inhabited σ]

/-- A script does not fail, and it leaves a sound server and tasks that belong to it. -/
def Runs (intake : Intake (ServerEffects E O σ) (Server E σ ω))
    (script : Task (ServerEffects E O σ)) (s : Server E σ ω) (items : List (Item E O σ)) : Prop :=
  ∃ s' items', script.runWith intake (Server.host host others) ⟨s, items.map (Item.task endpoint)⟩ =
    (⟨s', items'.map (Item.task endpoint)⟩, none) ∧ Sound endpoint host s' items'

/-- A script runs from every sound server. -/
def Safe (intake : Intake (ServerEffects E O σ) (Server E σ ω))
    (script : Task (ServerEffects E O σ)) : Prop :=
  ∀ (s : Server E σ ω) (items : List (Item E O σ)), s.Sound endpoint host items →
    Runs endpoint host others intake script s items

variable {endpoint host others} {intake : Intake (ServerEffects E O σ) (Server E σ ω)}
  {s : Server E σ ω} {items : List (Item E O σ)}

/-- Nothing is left to run. -/
theorem safe_done : Safe endpoint host others intake .done :=
  fun s items h => ⟨s, items, rfl, h⟩

/-- A task is handed in. -/
theorem runs_schedule (hintake : Takes endpoint host intake) {item : Item E O σ}
    (h : s.Sound endpoint host (items ++ [item])) {next : Bool → Task (ServerEffects E O σ)}
    (hnext : Safe endpoint host others intake (next true)) :
    Runs endpoint host others intake (.schedule (item.task endpoint) next) s items := by
  rcases hintake item s items h with ⟨s', items', heq, hsound⟩
  rcases hnext s' items' hsound with ⟨s'', items'', hrun, hsound'⟩
  refine ⟨s'', items'', ?_, hsound'⟩
  rw [Task.runWith, heq]
  exact hrun

/-- A script runs after another one. -/
theorem runs_andThen {first second : Task (ServerEffects E O σ)}
    (hfirst : Runs endpoint host others intake first s items)
    (hsecond : Safe endpoint host others intake second) :
    Runs endpoint host others intake (first.andThen second) s items := by
  rcases hfirst with ⟨s', items', hrun, hsound⟩
  rw [Runs, Task.runWith_andThen, hrun]
  exact hsecond s' items' hsound

/-! ## Steps and agendas -/

/-- A step runs to its next suspension or to a callback. -/
theorem runs_step (hintake : Takes endpoint host intake) {onDone : Agenda E O σ}
    {onFailure : Fault → Agenda E O σ}
    (honDone : Safe endpoint host others intake (onDone.task endpoint))
    (honFailure : ∀ e, Safe endpoint host others intake ((onFailure e).task endpoint))
    {i : Nat} {rest : Prog (Exchange E) Unit}
    (h : s.Sound endpoint host (.step i onDone onFailure rest :: items)) :
    Runs endpoint host others intake ((Item.step i onDone onFailure rest).task endpoint) s
      items := by
  induction rest generalizing s with
  | done a => exact honDone _ _ (h.finish fun _ => ⟨rfl, rfl, rfl⟩)
  | fault e => exact honFailure e _ _ (h.finish fun _ => ⟨rfl, rfl, rfl⟩)
  | call op next ih => exact ih _ h.perform
  | suspend rest _ => exact runs_schedule hintake h.suspend safe_done

/-- The endpoint is called: its program runs to its first suspension, and the rest is kept. -/
theorem runs_opening {i : Nat} {next : Except Fault Nat → Task (ServerEffects E O σ)}
    (hnext : ∀ result, Safe endpoint host others intake (next result))
    (p : Prog (Exchange E) Unit) {v : Visit E σ} (h : s.Sound endpoint host items)
    (hv : s.visits[i]? = some v) (hplace : v.place = .nowhere) (hends : v.ends = [])
    (htrack : v.OnTrack endpoint host p) :
    Runs endpoint host others intake (Agenda.opening i next p) s items := by
  induction p generalizing s v with
  | done a => exact hnext _ _ _ (h.keep hv hplace hends htrack)
  | fault e => exact hnext _ _ _ h
  | suspend rest _ => exact hnext _ _ _ (h.keep hv hplace hends htrack)
  | call op rest ih =>
      have hstate : s.stateOf i = v.state := by rw [stateOf, hv]; rfl
      have htrack' := htrack.perform
      rw [← hstate] at htrack'
      have hv' : (s.update i fun v => v.perform op (host.answer op (s.stateOf i)).1
            (host.answer op (s.stateOf i)).2).visits[i]? =
          some (v.perform op (host.answer op (s.stateOf i)).1
            (host.answer op (s.stateOf i)).2) := by
        rw [getElem?_update, if_pos rfl, hv]
        rfl
      refine ih _ (h.update hv ?_ fun _ _ => rfl) hv' hplace hends htrack'
      have hwaiting : v.place ≠ .spawned := fun hspawned => by cases hplace.symm.trans hspawned
      rw [h.rests_eq_nil hv hwaiting]
      exact .nowhere hplace hends

/-- A completion is given away, if it is kept. -/
theorem runs_release {i : Nat}
    {next : Option (Deferred (Exchange E) Unit) → Task (ServerEffects E O σ)}
    (h : Runs endpoint host others intake (next (s.visits[i]?.bind Visit.kept?))
      (s.update i Visit.release) items) :
    Runs endpoint host others intake (.call (.release i) next) s items :=
  h

/-- Agendas run, whatever they do. -/
theorem safe_agenda (hintake : Takes endpoint host intake) (agenda : Agenda E O σ) :
    Safe endpoint host others intake (agenda.task endpoint) := by
  induction agenda with
  | done => exact safe_done
  | perform op next ih => exact fun s items h => ih _ _ _ ⟨h.standing, h.known⟩
  | schedule task next _ ih =>
      exact fun s items h => runs_schedule hintake (h.code task) (ih true)
  | request scope initial next ih =>
      intro s items h
      have hv : (s.visits ++ [({ scope, initial } : Visit E σ)])[s.visits.length]? =
          some { scope, initial } := List.getElem?_concat_length
      exact runs_opening ih _ (h.enter scope initial) hv rfl rfl
        (Visit.onTrack_enter endpoint host scope initial)
  | spawn i onDone onFailure next ihDone ihFailure ihNext =>
      intro s items h
      rw [Agenda.task]
      apply runs_release
      cases hkept : s.visits[i]?.bind Visit.kept? with
      | none =>
          rw [update_release_of_none hkept]
          exact ihNext s items h
      | some d =>
          have hstep := runs_step hintake ihDone ihFailure (h.release hkept onDone onFailure)
          dsimp only
          rw [Agenda.spawnProg_eq_step]
          exact runs_andThen hstep ihNext

/-! ## The queue and the inline executor -/

/-- The front task of a queue runs. -/
theorem runs_front (others : Host O ω) {item : Item E O σ}
    (h : s.Sound endpoint host (item :: items)) :
    Runs endpoint host others Queue.enqueue (item.task endpoint) s items := by
  cases item with
  | code agenda =>
      exact safe_agenda (takes_enqueue endpoint host) agenda s items ⟨h.standing, h.known⟩
  | step i onDone onFailure rest =>
      exact runs_step (takes_enqueue endpoint host)
        (safe_agenda (takes_enqueue endpoint host) onDone)
        (fun e => safe_agenda (takes_enqueue endpoint host) (onFailure e)) h

/-- A queue runs until nothing is left, and no task fails. -/
theorem exists_runFrom_eq (others : Host O ω) (h : s.Sound endpoint host items) :
    ∃ s' ran, Queue.runFrom (Inline.worker (Server.host host others)) s
        (items.map (Item.task endpoint)) = ⟨⟨s', []⟩, ran, none⟩ ∧
      Sound endpoint host s' ([] : List (Item E O σ)) := by
  generalize hpending : items.map (Item.task endpoint) = pending
  induction pending using Shrinks.wellFounded.induction generalizing s items with
  | _ pending ih =>
      cases items with
      | nil =>
          subst hpending
          exact ⟨s, 0, by rw [List.map_nil, Queue.runFrom], h⟩
      | cons item items =>
          subst hpending
          rcases runs_front others h with ⟨s', items', hrun, hsound⟩
          rw [← Queue.submit_eq_runWith, Queue.submit, Prod.mk.injEq, Queue.mk.injEq] at hrun
          rcases hrun with ⟨⟨hstate, hqueued⟩, hfailure⟩
          have hshrinks : Shrinks (items.map (Item.task endpoint) ++
              ((item.task endpoint).run (Inline.worker (Server.host host others)) s).queued)
              ((item :: items).map (Item.task endpoint)) :=
            ⟨_, _, _, rfl, rfl, fun _ => Task.inside_of_mem_queued _ _ _⟩
          rcases ih _ hshrinks hsound hqueued.symm with ⟨final, ran, hfinal, hend⟩
          refine ⟨final, ran + 1, ?_, hend⟩
          rw [List.map_cons, Queue.runFrom]
          dsimp only
          rw [hfailure]
          dsimp only
          rw [hstate, hfinal]

/-- The inline executor takes every task: it runs it with everything that stands in the queue. -/
theorem takes_drain (endpoint : Endpoint E) (host : Host (Exchange E) σ) (others : Host O ω) :
    Takes endpoint host (Inline.drain (Server.host host others)) := by
  intro item s items h
  rcases exists_runFrom_eq others h with ⟨s', ran, hrun, hsound⟩
  rw [List.map_append] at hrun
  exact ⟨s', [], congrArg (fun drained => (Queue.mk drained.queue.state [], drained.failure)) hrun,
    hsound⟩

/-- An agenda on the inline executor does not fail, and nothing is left in the queue. -/
theorem sound_run (others : Host O ω) (agenda : Agenda E O σ)
    (h : s.Sound endpoint host ([] : List (Item E O σ))) :
    (Inline.run (Server.host host others) (agenda.task endpoint) s).2 = none ∧
      Sound endpoint host (Inline.run (Server.host host others) (agenda.task endpoint) s).1
        ([] : List (Item E O σ)) := by
  rcases safe_agenda (takes_drain endpoint host others) agenda s [] h with ⟨s', items, hrun, hsound⟩
  rw [List.map_nil, Inline.runWith_drain, Prod.mk.injEq, Queue.mk.injEq] at hrun
  rcases hrun with ⟨⟨hstate, hpending⟩, hfailure⟩
  rw [List.map_eq_nil_iff.1 hpending.symm] at hsound
  exact ⟨hfailure, hstate ▸ hsound⟩

end Server

/--
Concurrent requests to an application on the inline executor.  Whatever an agenda does, when it
returns no fault has come out of it, and each request whose completion has been spawned has ended
as it would have ended alone: with the same operations, and so with the same messages and reads
of its body, with the same state of its host, and with one callback, for the same fault.
-/
theorem App.concurrent_requests_end_as_alone [Inhabited σ] (app : App E)
    (host : Host (Exchange E) σ) (others : Host O ω) (agenda : Agenda E O σ) (state : ω) :
    let result := Inline.run (Server.host host others) (agenda.task app.serve) { others := state }
    result.2 = none ∧ ∀ v ∈ result.1.visits, v.place = .spawned →
      v.AsAlone app.serve host ∧
        Event.messages v.events = Event.messages ((app.serve v.scope).transcript host v.initial) ∧
        v.events.countP Event.isReceive =
          ((app.serve v.scope).transcript host v.initial).countP Event.isReceive := by
  rcases Server.sound_run others agenda (Server.sound_empty state) with ⟨hfailure, hsound⟩
  refine ⟨hfailure, fun v hv hplace => ?_⟩
  have halone := hsound.asAlone hv hplace
  refine ⟨halone, ?_, ?_⟩
  · rw [halone.events, Event.messages_filter]
  · rw [halone.events, Event.countP_isReceive_filter]

/-! ## A sample -/

namespace Sample

/-- A host that accepts every message, unless its connection is broken. -/
def breakable : Host (Exchange Signature.empty) Bool where
  answer op broken :=
    match op with
    | .send _ => (if broken then .error (.logic []) else .ok (), broken)
    | .receiveBody => (.ok [], broken)
    | .log _ => ((), broken)
    | .observe _ => (.ok (), broken)
    | .readFile _ => (none, broken)
    | .enter _ => ((), broken)

/-- Calls the endpoint and spawns the completion at once. -/
def spawnNow (broken : Bool) (next : Agenda Signature.empty Signature.empty Bool) :
    Agenda Signature.empty Signature.empty Bool :=
  .request scope broken fun
    | .ok i => .spawn i .done (fun _ => .done) next
    | .error _ => next

/-- Two requests come in inside of a task, and one after it. -/
def agenda : Agenda Signature.empty Signature.empty Bool :=
  .schedule (spawnNow false (spawnNow true .done)) fun _ => spawnNow false .done

example :
    (Inline.run (Server.host breakable ⟨nofun⟩)
        (agenda.task (App.setUp [mounting (.postponed 3 acknowledge)]).serve)
        { others := () }).1.visits.map Visit.ends =
      [[none], [some (.logic [])], [none]] := by
  cbv

end Sample
end ApiGateway
