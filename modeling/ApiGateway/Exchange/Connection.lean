import ApiGateway.Exchange.Body
import ApiGateway.Exchange.Effects
import ApiGateway.Exchange.Files

/-!
# Connections

A connection is a host for one exchange that keeps everything it is told: it
delivers a given request body, accepts or refuses each message, and records what
was sent.  What is common to several exchanges, the log, the observed responses and
the state of the handlers, is kept in a journal beside it.

Main definitions:

- `Connection`, `Journal`.
- `Connection.answer`: how a connection answers the operations of an exchange.
-/

namespace ApiGateway

/-- The host side of one exchange. -/
structure Connection where
  /-- What the request body delivers; nothing if bodies cannot be received at all. -/
  source : Option Body.Source
  /-- The fault with which the n-th message is refused, counting from one. -/
  refusal : Nat → Option Fault := fun _ => none
  /-- The files that can be read. -/
  files : Files := Registry.empty
  /-- The scope in which the request goes on. -/
  scope : Scope
  /-- The messages that were accepted, in order. -/
  sent : List Message := []
  /-- How many messages were handed over. -/
  offered : Nat := 0
  /-- How often the source was called. -/
  receives : Nat := 0

/-- What several exchanges have in common. -/
structure Journal (σ : Type) where
  log : List LogEntry := []
  observed : List Canonical := []
  state : σ

namespace Connection

variable {E : Signature} {σ : Type}

/-- Reads the whole body from the source. -/
def receiveBody (c : Connection) : Except Fault Bytes × Connection :=
  match c.source with
  | none => (.ok [], c)
  | some source =>
    let reading := Body.readAll source
    (reading.outcome,
      { c with source := some reading.rest, receives := c.receives + reading.calls })

/-- Accepts a message, or refuses it and records nothing but the attempt. -/
def accept (c : Connection) (message : Message) : Except Fault Unit × Connection :=
  match c.refusal (c.offered + 1) with
  | some e => (.error e, { c with offered := c.offered + 1 })
  | none => (.ok (), { c with offered := c.offered + 1, sent := c.sent ++ [message] })

/-- Answers an operation; those of the handlers go to their own host. -/
def answer (handlers : Host E σ) (op : (Exchange E).Op) (c : Connection) (j : Journal σ) :
    (Exchange E).Ans op × Connection × Journal σ :=
  match op with
  | .send message => let (answer, c') := c.accept message; (answer, c', j)
  | .receiveBody => let (answer, c') := c.receiveBody; (answer, c', j)
  | .log entry => ((), c, { j with log := j.log ++ [entry] })
  | .observe response => (.ok (), c, { j with observed := j.observed ++ [response] })
  | .readFile path => (c.files.read? path, c, j)
  | .enter scope => ((), { c with scope }, j)
  | .effect op => let (answer, state) := handlers.answer op j.state; (answer, c, { j with state })

/-- The host of a single exchange. -/
def host (handlers : Host E σ) : Host (Exchange E) (Connection × Journal σ) where
  answer op s := answer handlers op s.1 s.2

end Connection
end ApiGateway
