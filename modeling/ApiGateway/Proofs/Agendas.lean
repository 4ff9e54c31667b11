import ApiGateway.Exchange.Effects
import ApiGateway.Proofs.Suspension
import ApiGateway.Scheduling.Spawn

/-!
# Requests that share nothing but an executor

Each request has a host state of its own, so its handlers and its observer share nothing with
those of other requests.  Everything else is an agenda: code that never fails, that may call the
endpoint and keep the completion, spawn a completion which it has kept, and schedule further
agendas.  The callbacks of spawned completions are agendas too.

Main definitions:

- `Visit`: a request, and what has become of it.
- `Server`: all requests, and the state of all other code.
- `Agenda`, `Agenda.task`: what the program around the endpoint does.
- `Visit.AsAlone`: a request has ended as it would have ended alone.
-/

namespace ApiGateway

variable {E O : Signature} {σ ω : Type}

/-! ## Transcripts without resumptions -/

namespace Event

/-- Whether an event reads the body of a request. -/
def isReceive : Event (Exchange E) → Bool
  | .call .receiveBody _ => true
  | _ => false

/-- Resumptions hand over no message. -/
theorem messages_filter (events : List (Event (Exchange E))) :
    messages (events.filter fun event => !event.isResumed) = messages events := by
  rw [messages, List.filterMap_filter]
  refine congrArg (List.filterMap · events) (funext fun event => ?_)
  cases event with
  | call op answer => rfl
  | resumed => rfl

/-- Resumptions read no body. -/
theorem countP_isReceive_filter (events : List (Event (Exchange E))) :
    (events.filter fun event => !event.isResumed).countP isReceive = events.countP isReceive := by
  rw [List.countP_filter]
  refine List.countP_congr fun event _ => ?_
  cases event with
  | call op answer => rw [isResumed, Bool.not_false, Bool.and_true]
  | resumed => exact Iff.rfl

end Event

/-! ## Requests -/

/-- Where the completion of a request is. -/
inductive Visit.Place (E : Signature) where
  /-- The endpoint has left none so far. -/
  | nowhere
  /-- Someone keeps it. -/
  | kept (completion : Deferred (Exchange E) Unit)
  /-- It has been spawned. -/
  | spawned

/-- A request, the state of its host, and what has become of it. -/
structure Visit (E : Signature) (σ : Type) where
  scope : Scope
  initial : σ
  state : σ := initial
  place : Visit.Place E := .nowhere
  /-- The operations that it has performed, with their answers. -/
  events : List (Event (Exchange E)) := []
  /-- The callbacks that have been called, with the fault if it is the one for faults. -/
  ends : List (Option Fault) := []

namespace Visit

/-- The completion, if someone keeps it. -/
def kept? (v : Visit E σ) : Option (Deferred (Exchange E) Unit) :=
  match v.place with
  | .kept completion => some completion
  | _ => none

/-- A completion that was kept is spawned. -/
def release (v : Visit E σ) : Visit E σ :=
  match v.place with
  | .kept _ => { v with place := .spawned }
  | _ => v

/-- Performs an operation on the host state of the request. -/
def perform (v : Visit E σ) (op : (Exchange E).Op) (answer : (Exchange E).Ans op) (state : σ) :
    Visit E σ :=
  { v with state, events := v.events ++ [.call op answer] }

/-- Calls a callback. -/
def finish (v : Visit E σ) (failure : Option Fault) : Visit E σ :=
  { v with ends := v.ends ++ [failure] }

/--
A request has ended as it would have alone: it has performed the same operations with the same
answers, left its host in the same state, and one callback has been called, for the same fault.
-/
structure AsAlone (endpoint : Endpoint E) (host : Host (Exchange E) σ) (v : Visit E σ) : Prop where
  events : v.events =
    ((endpoint v.scope).transcript host v.initial).filter fun event => !event.isResumed
  state : v.state = ((endpoint v.scope).run host v.initial).state
  ends : v.ends = [((endpoint v.scope).run host v.initial).failure?]

end Visit

/-! ## Servers -/

/-- All requests by number, and the state of all other code. -/
structure Server (E : Signature) (σ ω : Type) where
  visits : List (Visit E σ) := []
  others : ω

/-- An operation of a request, one on its completion, or one of other code. -/
inductive ServerOp (E O : Signature) (σ : Type) where
  /-- A request comes in; the answer is its number. -/
  | enter (scope : Scope) (initial : σ)
  | request (i : Nat) (op : (Exchange E).Op)
  /-- Keeps a completion. -/
  | keep (i : Nat) (completion : Deferred (Exchange E) Unit)
  /-- Gives a completion away, if it is kept. -/
  | release (i : Nat)
  /-- The callback for the end of the request is called. -/
  | finished (i : Nat)
  /-- The callback for a fault of the request is called. -/
  | failed (i : Nat) (e : Fault)
  | other (op : O.Op)

/-- The operations on a server and the types of their answers. -/
def ServerEffects (E O : Signature) (σ : Type) : Signature where
  Op := ServerOp E O σ
  Ans
    | .enter _ _ => Nat
    | .request _ op => (Exchange E).Ans op
    | .keep _ _ => Unit
    | .release _ => Option (Deferred (Exchange E) Unit)
    | .finished _ => Unit
    | .failed _ _ => Unit
    | .other op => O.Ans op

/-- The exchange of one request among the others. -/
def ServerEffects.request (E O : Signature) (σ : Type) (i : Nat) :
    Embedding (Exchange E) (ServerEffects E O σ) where
  op := .request i
  answer _ a := a

namespace Server

/-- Changes the request of a number. -/
def update (s : Server E σ ω) (i : Nat) (f : Visit E σ → Visit E σ) : Server E σ ω :=
  { s with visits := s.visits.modify i f }

/-- The host state of the request of a number. -/
def stateOf [Inhabited σ] (s : Server E σ ω) (i : Nat) : σ :=
  (s.visits[i]?.map Visit.state).getD default

/-- Answers each request from its own host state, and other code from the rest. -/
def host [Inhabited σ] (host : Host (Exchange E) σ) (others : Host O ω) :
    Host (ServerEffects E O σ) (Server E σ ω) where
  answer
    | .enter scope initial, s =>
      (s.visits.length, { s with visits := s.visits ++ [{ scope, initial }] })
    | .request i op, s =>
      let (answer, state) := host.answer op (s.stateOf i)
      (answer, s.update i fun v => v.perform op answer state)
    | .keep i completion, s => ((), s.update i fun v => { v with place := .kept completion })
    | .release i, s => (s.visits[i]?.bind Visit.kept?, s.update i Visit.release)
    | .finished i, s => ((), s.update i fun v => v.finish none)
    | .failed i e, s => ((), s.update i fun v => v.finish (some e))
    | .other op, s =>
      let (answer, state) := others.answer op s.others
      (answer, { s with others := state })

end Server

/-! ## Agendas -/

/-- Code around an endpoint, which never fails. -/
inductive Agenda (E O : Signature) (σ : Type) where
  /-- Nothing is left to do. -/
  | done
  /-- Performs an operation of its own and goes on with its answer. -/
  | perform (op : O.Op) (next : O.Ans op → Agenda E O σ)
  /-- Hands in a task and goes on with whether it was accepted. -/
  | schedule (task : Agenda E O σ) (next : Bool → Agenda E O σ)
  /-- Calls the endpoint and goes on with the fault or with the number of the completion. -/
  | request (scope : Scope) (initial : σ) (next : Except Fault Nat → Agenda E O σ)
  /-- Spawns the completion of a number, unless nobody keeps it, and goes on. -/
  | spawn (i : Nat) (onDone : Agenda E O σ) (onFailure : Fault → Agenda E O σ)
      (next : Agenda E O σ)

namespace Agenda

/-- Callbacks that report which of them is called. -/
def callbacks (i : Nat) (onDone : Task (ServerEffects E O σ))
    (onFailure : Fault → Task (ServerEffects E O σ)) : Callbacks (ServerEffects E O σ) where
  onDone := some (.call (.finished i) fun _ => onDone)
  onFailure := some fun e => .call (.failed i e) fun _ => onFailure e

/-- The step of a spawned completion that goes on with a program. -/
def step (i : Nat) (onDone : Task (ServerEffects E O σ))
    (onFailure : Fault → Task (ServerEffects E O σ)) (p : Prog (Exchange E) Unit) :
    Task (ServerEffects E O σ) :=
  advance (callbacks i onDone onFailure)
    ((p.embed (ServerEffects.request E O σ i)).embed (Embedding.scheduling _))

/-- Calls the endpoint: its program runs to the first suspension, and what is left is kept. -/
def opening (i : Nat) (next : Except Fault Nat → Task (ServerEffects E O σ)) :
    Prog (Exchange E) Unit → Task (ServerEffects E O σ)
  | .done a => .call (.keep i (.ready a)) fun _ => next (.ok i)
  | .fault e => next (.error e)
  | .call op rest => .call (.request i op) fun answer => opening i next (rest answer)
  | .suspend rest => .call (.keep i (.waiting rest)) fun _ => next (.ok i)

/-- An agenda as a script. -/
def task (endpoint : Endpoint E) : Agenda E O σ → Task (ServerEffects E O σ)
  | .done => .done
  | .perform op next => .call (.other op) fun answer => (next answer).task endpoint
  | .schedule task next =>
    .schedule (task.task endpoint) fun accepted => (next accepted).task endpoint
  | .request scope initial next =>
    .call (.enter scope initial) fun i =>
      opening i (fun result => (next result).task endpoint) (endpoint scope)
  | .spawn i onDone onFailure next =>
    .call (.release i) fun completion =>
      match completion with
      | none => next.task endpoint
      | some d =>
        (spawnProg
          (callbacks i (onDone.task endpoint) fun e => (onFailure e).task endpoint)
          (d.toProg.embed (ServerEffects.request E O σ i))).andThen (next.task endpoint)

/-- Spawning runs a completion as a step would. -/
theorem spawnProg_eq_step (i : Nat) (onDone : Task (ServerEffects E O σ))
    (onFailure : Fault → Task (ServerEffects E O σ)) (d : Deferred (Exchange E) Unit) :
    spawnProg (callbacks i onDone onFailure) (d.toProg.embed (ServerEffects.request E O σ i)) =
      step i onDone onFailure d.toProg := by
  cases d with
  | ready a => rfl
  | waiting rest => rfl

end Agenda
end ApiGateway
