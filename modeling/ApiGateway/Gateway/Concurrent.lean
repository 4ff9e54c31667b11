import ApiGateway.Exchange.Connection
import ApiGateway.Scheduling.Spawn

/-!
# Concurrent requests

Several requests are spawned in order on one executor, which then interleaves their
steps.  Each request has a connection of its own; the journal and the state of the
handlers are common to all.

Main definitions:

- `Client`, `Session`: a request with its outcome, and all requests with what they
  share.
- `Session.runInline`: all requests on the inline executor.
- `Session.runQueued`: all requests on a queue, which may close after some tasks.
-/

namespace ApiGateway

/-- A request on its way, and how it ended. -/
structure Client where
  connection : Connection
  finished : Bool := false
  failure : Option Fault := none

/-- Requests that share a journal, and whether their host turns away further tasks. -/
structure Session (σ : Type) where
  clients : List Client
  journal : Journal σ
  closed : Bool := false

/-- What the end of a request does to the state that all requests share. -/
structure Ends (σ : Type) where
  finished : Nat → σ → σ
  failed : Nat → Fault → σ → σ

/-- An operation of the exchange of a request, or its end. -/
inductive SessionOp (E : Signature) where
  | request (i : Nat) (op : (Exchange E).Op)
  | finished (i : Nat)
  | failed (i : Nat) (e : Fault)

/-- The operations of concurrent requests and the types of their answers. -/
def SessionEffects (E : Signature) : Signature where
  Op := SessionOp E
  Ans
    | .request _ op => (Exchange E).Ans op
    | .finished _ => Unit
    | .failed _ _ => Unit

/-- The exchange of one request among the others. -/
def SessionEffects.request (E : Signature) (i : Nat) :
    Embedding (Exchange E) (SessionEffects E) where
  op := .request i
  answer _ a := a

namespace Session

variable {E : Signature} {σ : Type}

/-- Changes the client of an index. -/
def update (s : Session σ) (i : Nat) (f : Client → Client) : Session σ :=
  { s with clients := s.clients.modify i f }

/-- Changes the state that all requests share. -/
def share (s : Session σ) (f : σ → σ) : Session σ :=
  { s with journal := { s.journal with state := f s.journal.state } }

/-- A connection that has no request. -/
def unconnected : Connection where
  source := none
  scope := { request := {} }

/-- Answers the operations of all requests. -/
def host (handlers : Host E σ) (ends : Ends σ) : Host (SessionEffects E) (Session σ) where
  answer
    | .request i op, s =>
      let connection := (s.clients[i]?.map Client.connection).getD unconnected
      let (answer, connection, journal) := Connection.answer handlers op connection s.journal
      (answer, { s.update i (fun c => { c with connection }) with journal })
    | .finished i, s =>
      ((), (s.update i fun c => { c with finished := true }).share (ends.finished i))
    | .failed i e, s =>
      ((), (s.update i fun c => { c with failure := some e }).share (ends.failed i e))

/-- The script that starts a request and reports its end. -/
def script (endpoint : Endpoint E) (i : Nat) (client : Client) : Task (SessionEffects E) :=
  spawnProg
    { onDone := some (.perform (.finished i)), onFailure := some fun e => .perform (.failed i e) }
    ((endpoint client.connection.scope).embed (SessionEffects.request E i))

/-- The scripts of all requests in order. -/
def scripts (endpoint : Endpoint E) (s : Session σ) : List (Nat × Task (SessionEffects E)) :=
  s.clients.zipIdx.map fun (client, i) => (i, script endpoint i client)

/-- A request that fails while it is started is over. -/
def keepFailure (s : Session σ) (i : Nat) : Option Fault → Session σ
  | none => s
  | some e => s.update i fun c => { c with failure := some e }

/-- Starts all requests on the inline executor, which runs each to its end. -/
def runInline (handlers : Host E σ) (ends : Ends σ) (endpoint : Endpoint E) (s : Session σ) :
    Session σ :=
  (s.scripts endpoint).foldl
    (fun s entry =>
      let (s', failure) := Inline.run (host handlers ends) entry.2 s
      s'.keepFailure entry.1 failure)
    s

/-- A queue accepts tasks until it is closed. -/
def worker (handlers : Host E σ) (ends : Ends σ) : Worker (SessionEffects E) (Session σ) :=
  { host handlers ends with accepts := fun s => !s.closed }

/-- Starts all requests on a queue without running it. -/
def enqueue (handlers : Host E σ) (ends : Ends σ) (endpoint : Endpoint E) (s : Session σ) :
    Queue (SessionEffects E) (Session σ) :=
  (s.scripts endpoint).foldl
    (fun q entry =>
      let (q', failure) := q.submit (worker handlers ends) entry.2
      { q' with state := q'.state.keepFailure entry.1 failure })
    ⟨s, []⟩

/-- Closes the host of a queue. -/
def close (q : Queue (SessionEffects E) (Session σ)) : Queue (SessionEffects E) (Session σ) :=
  { q with state := { q.state with closed := true } }

/--
Starts all requests on a queue and runs it until it is empty; if a limit is given, the queue
closes after that many tasks.  Answers with the number of tasks that have run.
-/
def runQueued (handlers : Host E σ) (ends : Ends σ) (closeAfter : Option Nat)
    (endpoint : Endpoint E) (s : Session σ) : Session σ × Nat :=
  let queue := enqueue handlers ends endpoint s
  match closeAfter with
  | none =>
    let drained := queue.run (worker handlers ends)
    (drained.queue.state, drained.ran)
  | some limit =>
    let first := queue.runAtMost (worker handlers ends) limit
    let drained := (close first.queue).run (worker handlers ends)
    (drained.queue.state, first.ran + drained.ran)

end Session
end ApiGateway
