import ApiGateway.Mock.Events
import ApiGateway.Scheduling.Activity
import ApiGateway.Scheduling.Spawn

/-!
# Mock tasks

Tasks that write events, hand in further tasks, spawn work, fail, close their
executor or run its queue.  Events tell whether a task was accepted and what a run of
the queue has done.

Main definitions:

- `Mock.Desk`: the events so far and whether the executor is closed.
- `Mock.Desk.worker`: the executor that accepts tasks until it is closed.
- `Mock.scheduleTask`, `Mock.Work`: handing in tasks and spawning work.
- `Mock.stepQueue`, `Mock.runQueue`: running the queue.
-/

namespace ApiGateway
namespace Mock

/-- An operation of a mock task. -/
inductive DeskOp where
  | event (text : Bytes)
  | close

/-- The operations of mock tasks. -/
def DeskEffects : Signature :=
  ⟨DeskOp, fun _ => Unit⟩

/-- The events so far, and whether further tasks are turned away. -/
structure Desk where
  trail : Trail := {}
  closed : Bool := false
deriving DecidableEq, Repr

namespace Desk

/-- Collects events and closes on demand. -/
def host : Host DeskEffects Desk where
  answer
    | .event text, d => ((), { d with trail := d.trail.write text })
    | .close, d => ((), { d with closed := true })

/-- Accepts tasks until it is closed. -/
def worker : Worker DeskEffects Desk :=
  { host with accepts := fun d => !d.closed }

end Desk

/-- A mock task. -/
abbrev DeskTask := Task DeskEffects.queued

/-- Writes an event. -/
def event (text : Bytes) : DeskTask :=
  .perform (.base (.event text))

/-- Closes the executor. -/
def close : DeskTask :=
  .perform (.base .close)

/-- Hands in a task and writes whether it was accepted. -/
def scheduleTask (task : DeskTask) : DeskTask :=
  .schedule task fun accepted =>
    event (Bytes.ofString (if accepted then "accepted" else "rejected"))

/-- Runs the front task of the queue and writes whether there was one. -/
def stepQueue : DeskTask :=
  .call .step fun
    | .ok found => event (Bytes.ofString (if found then "stepped" else "idle"))
    | .error e => .fault e

/-- Runs the queue until it is empty and writes how many tasks have run. -/
def runQueue : DeskTask :=
  .call .run fun
    | .ok ran => event (Bytes.ofString "ran " ++ Bytes.ofNat ran)
    | .error e => .fault e

/-- Fails, if there is a fault. -/
def failWith (e : Option Fault) : DeskTask :=
  e.elim .done .fault

/-- Work to be spawned: a number of steps, of which one may fail and one may do more. -/
structure Work where
  tag : Bytes
  steps : Nat := 0
  failAt : Option Nat := none
  fault : Fault := .runtime []
  actAt : Option Nat := none
  act : DeskTask := .done
  /-- Whether the end is announced, and the fault with which that ends. -/
  onDone : Option (Option Fault) := none
  /-- Whether a failure is announced, and the fault with which that ends. -/
  onFailure : Option (Option Fault) := none

namespace Work

/-- The steps that are left; each announces itself by their number. -/
def stepsFrom (w : Work) : Nat → Prog DeskEffects.queued.scheduling Unit
  | 0 => (event (w.tag ++ Bytes.ofString ":done")).toProg
  | left + 1 =>
    .suspend <|
      (event (w.tag ++ Bytes.ofString ":" ++ Bytes.ofNat (left + 1))).toProg.bind fun _ =>
        if w.failAt = some (left + 1) then
          .fault w.fault
        else if w.actAt = some (left + 1) then
          w.act.toProg.bind fun _ => w.stepsFrom left
        else
          w.stepsFrom left

/-- What happens at the end of the work. -/
def callbacks (w : Work) : Callbacks DeskEffects.queued where
  onDone := w.onDone.map fun e =>
    (event (w.tag ++ Bytes.ofString ":finished")).andThen (failWith e)
  onFailure := w.onFailure.map fun e raised =>
    (event (w.tag ++ Bytes.ofString ":failure " ++ raised.message)).andThen (failWith e)

/-- Starts the work. -/
def start (w : Work) : DeskTask :=
  spawn w.callbacks (w.stepsFrom w.steps)

end Work
end Mock
end ApiGateway
