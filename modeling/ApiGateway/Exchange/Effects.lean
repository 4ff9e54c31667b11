import ApiGateway.Exchange.Log
import ApiGateway.Exchange.Message
import ApiGateway.Exchange.Scope
import ApiGateway.Program.Deferred
import ApiGateway.Response.Canonical

/-!
# Exchanges and endpoints

An exchange is the conversation of one request with its host.  Beside the
operations of the gateway it admits the operations of a signature of its own, with
which handlers act on whatever the application is about.

Main definitions:

- `Exchange`: the operations of an exchange.
- `Endpoint`: a program for each scope, the common form of everything that answers
  requests.
- `send`, `receiveBody`, `observe`, `logAll`: the operations as programs.
-/

namespace ApiGateway

/-- An operation of an exchange over the handlers' operations `E`. -/
inductive ExchangeOp (E : Signature) where
  /-- Hands a message to the host. -/
  | send (message : Message)
  /-- Reads the whole request body. -/
  | receiveBody
  /-- Writes a log entry. -/
  | log (entry : LogEntry)
  /-- Shows a response to the observer. -/
  | observe (response : Canonical)
  /--
  Reads a file, if it exists.  A path that can be opened while it has no size or cannot be read,
  such as a directory or a file under `/proc`, is none that a host answers for.
  -/
  | readFile (path : Bytes)
  /-- Tells the host the scope in which the request goes on. -/
  | enter (scope : Scope)
  /-- Performs an operation of the handlers. -/
  | effect (op : E.Op)

/-- The operations of an exchange and the types of their answers. -/
def Exchange (E : Signature) : Signature where
  Op := ExchangeOp E
  Ans
    | .send _ => Except Fault Unit
    | .receiveBody => Except Fault Bytes
    | .log _ => Unit
    | .observe _ => Except Fault Unit
    | .readFile _ => Option Bytes
    | .enter _ => Unit
    | .effect op => E.Ans op

/-- Whatever answers requests: the response goes to the host, the program ends without value. -/
abbrev Endpoint (E : Signature) := Scope → Prog (Exchange E) Unit

/-- The operations of handlers are available in an exchange. -/
def Embedding.effects (E : Signature) : Embedding E (Exchange E) where
  op := .effect
  answer _ a := a

namespace Exchange

variable {E : Signature}

/-- Whether an operation hands over the start of a response. -/
def startsResponse : ExchangeOp E → Bool
  | .send message => message.isStart
  | _ => false

/-- Hands a message to the host, which may fail. -/
def send (message : Message) : Prog (Exchange E) Unit :=
  .call (.send message) .ofExcept

/-- Hands messages to the host, one after another. -/
def sendAll : List Message → Prog (Exchange E) Unit
  | [] => .done ()
  | message :: rest => (send message).bind fun _ => sendAll rest

/-- Reads the whole request body, which may fail. -/
def receiveBody : Prog (Exchange E) Bytes :=
  .call .receiveBody .ofExcept

/-- Writes log entries. -/
def logAll : List LogEntry → Prog (Exchange E) Unit
  | [] => .done ()
  | entry :: rest => .call (.log entry) fun _ => logAll rest

/-- Shows a response to the observer, which may fail. -/
def observe (response : Canonical) : Prog (Exchange E) Unit :=
  .call (.observe response) .ofExcept

end Exchange
end ApiGateway
