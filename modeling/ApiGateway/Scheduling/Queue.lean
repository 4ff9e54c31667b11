import ApiGateway.Scheduling.Descent
import ApiGateway.Scheduling.Task

/-!
# Queues and the inline executor

A queue runs its tasks one at a time in the order in which they were accepted.
The inline executor is a queue that lives only as long as the outermost call that
schedules: it accepts everything, runs until nothing is left, and forgets what is
left when a task fails.

Main definitions:

- `Queue.step`, `Queue.run`: running the front task, and running until the queue
  is empty or a task fails.
- `Inline.run`: a script on the inline executor.

Main results:

- `Shrinks.wellFounded`: running front tasks exhausts every queue.
- `Queue.pending_runFrom_eq_nil`: unless a task fails, nothing is left.
-/

namespace ApiGateway

variable {S : Signature} {σ : Type}

/-! ## Exhausting a queue -/

/-- The front task has been replaced by tasks at the end that stood inside it. -/
def Shrinks (after before : List (Task S)) : Prop :=
  ∃ front rest queued, before = front :: rest ∧ after = rest ++ queued ∧
    ∀ t ∈ queued, Task.Inside t front

namespace Shrinks

/-- The front task gives way to smaller ones. -/
theorem lowers {after before : List (Task S)} (h : Shrinks after before) :
    Lowers Task.Inside after before := by
  obtain ⟨front, rest, queued, rfl, rfl, hinside⟩ := h
  exact ⟨front, queued, rest, .refl _, List.perm_append_comm, hinside⟩

/-- Running front tasks exhausts every queue. -/
theorem wellFounded : WellFounded (Shrinks (S := S)) :=
  Subrelation.wf lowers (Lowers.wellFounded Task.part_wellFounded.transGen)

end Shrinks

instance : WellFoundedRelation (List (Task S)) :=
  ⟨Shrinks, Shrinks.wellFounded⟩

/-! ## Running a queue -/

/-- The state of a host and the tasks it has accepted, first to be run first. -/
structure Queue (S : Signature) (σ : Type) where
  state : σ
  pending : List (Task S)

/-- A queue after some of its tasks, their number, and the fault of the last one if it failed. -/
structure Drained (S : Signature) (σ : Type) where
  queue : Queue S σ
  ran : Nat
  failure : Option Fault

namespace Queue

/-- Runs a script on behalf of the caller; what it schedules is queued. -/
def submit (worker : Worker S σ) (q : Queue S σ) (script : Task S) : Queue S σ × Option Fault :=
  let progress := script.run worker q.state
  (⟨progress.state, q.pending ++ progress.queued⟩, progress.failure)

/-- Runs the front task, if there is one; a failed task is gone and the others stay. -/
def step (worker : Worker S σ) (q : Queue S σ) : Option (Queue S σ × Option Fault) :=
  match q.pending with
  | [] => none
  | front :: rest => some (submit worker ⟨q.state, rest⟩ front)

/-- Runs `pending` from the front until nothing is left or a task fails. -/
def runFrom (worker : Worker S σ) (state : σ) (pending : List (Task S)) : Drained S σ :=
  match pending with
  | [] => ⟨⟨state, []⟩, 0, none⟩
  | front :: rest =>
    let progress := front.run worker state
    match progress.failure with
    | some e => ⟨⟨progress.state, rest ++ progress.queued⟩, 1, some e⟩
    | none =>
      let drained := runFrom worker progress.state (rest ++ progress.queued)
      { drained with ran := drained.ran + 1 }
termination_by pending
decreasing_by
  exact ⟨front, rest, _, rfl, rfl, fun _ h => Task.inside_of_mem_queued worker front state h⟩

/-- Runs until nothing is left or a task fails. -/
def run (worker : Worker S σ) (q : Queue S σ) : Drained S σ :=
  runFrom worker q.state q.pending

/-- Runs at most `limit` tasks. -/
def runAtMost (worker : Worker S σ) : Nat → Queue S σ → Drained S σ
  | 0, q => ⟨q, 0, none⟩
  | limit + 1, q =>
    match q.step worker with
    | none => ⟨q, 0, none⟩
    | some (q', some e) => ⟨q', 1, some e⟩
    | some (q', none) =>
      let drained := runAtMost worker limit q'
      { drained with ran := drained.ran + 1 }

@[simp]
theorem run_nil (worker : Worker S σ) (s : σ) :
    run worker (⟨s, []⟩ : Queue S σ) = ⟨⟨s, []⟩, 0, none⟩ := by
  rw [run, runFrom]

/-- A queue in which no task fails is run until nothing is left. -/
theorem pending_runFrom_eq_nil {worker : Worker S σ} {s : σ} {pending : List (Task S)}
    (h : (runFrom worker s pending).failure = none) :
    (runFrom worker s pending).queue.pending = [] := by
  fun_induction runFrom worker s pending with
  | case1 s => rfl
  | case2 s front rest progress e hfailure => cases h
  | case3 s front rest progress hfailure drained ih => exact ih h

end Queue

/-! ## The inline executor -/

namespace Inline

/-- The inline executor accepts every task. -/
def worker (host : Host S σ) : Worker S σ :=
  { host with accepts := fun _ => true }

/--
Runs a script.  Each task that it schedules is run at once, together with everything scheduled
meanwhile; a fault among them ends the script, and what was still queued is forgotten.
-/
def run (host : Host S σ) : Task S → σ → σ × Option Fault
  | .done, s => (s, none)
  | .fault e, s => (s, some e)
  | .call op next, s =>
    let (answer, s') := host.answer op s
    run host (next answer) s'
  | .schedule task next, s =>
    let drained := Queue.run (worker host) ⟨s, [task]⟩
    match drained.failure with
    | some e => (drained.queue.state, some e)
    | none => run host (next true) drained.queue.state

end Inline
end ApiGateway
