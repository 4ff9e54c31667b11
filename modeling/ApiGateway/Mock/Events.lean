import ApiGateway.Program.Deferred

/-!
# Mocks and their events

Mocks stand in for the parts of an application when a gateway is tried out.  Their
only operation is to write an event, so that the order in which they run can be
told from the events.

Main definitions:

- `Trail`: the events so far.
- `Events`: the operations of mocks, and `Events.host` to collect the events.
- `Pace`: how a mock announces itself and how often it suspends.
- `Chain`: a number of suspensions before a value or a fault.
-/

namespace ApiGateway

/-- The events so far; the latest comes first, so that writing takes no time. -/
structure Trail where
  latest : List Bytes := []
deriving DecidableEq, Repr

namespace Trail

/-- Writes an event. -/
def write (t : Trail) (event : Bytes) : Trail :=
  ⟨event :: t.latest⟩

/-- The events in the order in which they were written. -/
def events (t : Trail) : List Bytes :=
  t.latest.reverse

@[simp]
theorem events_write (t : Trail) (event : Bytes) :
    (t.write event).events = t.events ++ [event] := by
  simp [write, events]

end Trail

/-- The operations of mocks: each writes an event. -/
def Events : Signature :=
  ⟨Bytes, fun _ => Unit⟩

/-- Collects events in order. -/
def Events.host : Host Events Trail where
  answer := fun (event : Bytes) trail => ((), trail.write event)

namespace Mock

variable {S : Signature} {α : Type}

/-- Writes an event of a mock that has a name; with an empty name it is silent. -/
def announce (write : Bytes → S.Op) (name suffix : Bytes) (next : Prog S α) : Prog S α :=
  if name.isEmpty then next else .call (write (name ++ suffix)) fun _ => next

/-- How a mock announces itself, and how often it suspends before it acts. -/
structure Pace where
  name : Bytes := []
  delay : Nat := 0
deriving DecidableEq, Repr

namespace Pace

/-- Suspends, announcing each resumption by its number, and acts in the last step. -/
def resume (pace : Pace) (write : Bytes → S.Op) (action : Prog S α) : Nat → Nat → Prog S α
  | 0, _ => action
  | left + 1, k =>
    .suspend <| announce write pace.name (Bytes.ofString ":resume" ++ Bytes.ofNat k)
      (pace.resume write action left (k + 1))

/-- Announces the start, then suspends and acts. -/
def run (pace : Pace) (write : Bytes → S.Op) (action : Prog S α) : Prog S α :=
  announce write pace.name (Bytes.ofString ":start") (pace.resume write action pace.delay 1)

end Pace

/-- A number of suspensions before a value or a fault. -/
structure Chain (α : Type) where
  name : Bytes := []
  depth : Nat := 0
  outcome : Except Fault α

namespace Chain

/-- Suspends as often as the chain is deep, announcing what is left in each step. -/
def suspendFrom (chain : Chain α) : Nat → Prog Events α
  | 0 => .ofExcept chain.outcome
  | left + 1 =>
    .suspend <| announce id chain.name (Bytes.ofString ":" ++ Bytes.ofNat (left + 1))
      (chain.suspendFrom left)

/-- The program of a chain. -/
def run (chain : Chain α) : Prog Events α :=
  chain.suspendFrom chain.depth

end Chain
end Mock
end ApiGateway
