import ApiGateway.Scheduling.Queue

/-!
# Scripts on executors that accept everything

Two executors that accept every task differ in one thing only: what they do at once with a
task that a script hands in.  A queue puts it at its end; the inline executor, outside of any
task, runs it together with everything that is scheduled meanwhile.  What is proved of a
script for every such intake holds on both.

Main definitions:

- `Intake`, `Task.runWith`: a script on an executor with some intake.
- `Queue.enqueue`, `Inline.drain`: the two intakes.

Main results:

- `Queue.submit_eq_runWith`, `Inline.runWith_drain`: scripts on a queue and on the inline executor.
-/

namespace ApiGateway

variable {S : Signature} {σ : Type}

/-- What an executor does at once with a task, and the fault that comes back from it. -/
abbrev Intake (S : Signature) (σ : Type) :=
  Task S → Queue S σ → Queue S σ × Option Fault

namespace Task

/-- Runs a script; a fault that comes back from a task which it hands in ends it. -/
def runWith (intake : Intake S σ) (host : Host S σ) :
    Task S → Queue S σ → Queue S σ × Option Fault
  | .done, q => (q, none)
  | .fault e, q => (q, some e)
  | .call op next, q =>
    let (answer, state) := host.answer op q.state
    (next answer).runWith intake host { q with state }
  | .schedule task next, q =>
    match intake task q with
    | (q', none) => (next true).runWith intake host q'
    | (q', some e) => (q', some e)

variable (intake : Intake S σ) (host : Host S σ)

/-- The second script goes on where the first one ends, unless that fails. -/
theorem runWith_andThen (first second : Task S) (q : Queue S σ) :
    (first.andThen second).runWith intake host q =
      match first.runWith intake host q with
      | (q', none) => second.runWith intake host q'
      | (q', some e) => (q', some e) := by
  induction first generalizing q with
  | done | fault => rfl
  | call op next ih => exact ih _ _
  | schedule task next _ ih =>
      rw [andThen, runWith, runWith]
      rcases intake task q with ⟨q', _ | e⟩
      · exact ih true q'
      · rfl

end Task

namespace Queue

/-- Puts the task at the end. -/
def enqueue : Intake S σ :=
  fun task q => ({ q with pending := q.pending ++ [task] }, none)

/-- What a script schedules on a queue stands at the end, in order. -/
theorem submit_eq_runWith (host : Host S σ) (q : Queue S σ) (script : Task S) :
    q.submit (Inline.worker host) script = script.runWith enqueue host q := by
  induction script generalizing q with
  | done | fault => rw [submit, Task.run, Task.runWith, List.append_nil]
  | call op next ih =>
      exact ih (host.answer op q.state).1 { q with state := (host.answer op q.state).2 }
  | schedule task next _ ih =>
      have hnext := ih true { q with pending := q.pending ++ [task] }
      refine Eq.trans ?_ hnext
      rw [submit, submit, Task.run, List.append_assoc]
      rfl

end Queue

namespace Inline

/-- Runs the task with everything that is scheduled meanwhile. -/
def drain (host : Host S σ) : Intake S σ :=
  fun task q =>
    let drained := Queue.run (worker host) ⟨q.state, q.pending ++ [task]⟩
    (⟨drained.queue.state, []⟩, drained.failure)

/-- On the inline executor nothing is left after each task. -/
theorem runWith_drain (host : Host S σ) (script : Task S) (s : σ) :
    script.runWith (drain host) host ⟨s, []⟩ =
      (⟨(run host script s).1, []⟩, (run host script s).2) := by
  induction script generalizing s with
  | done | fault => rfl
  | call op next ih => exact ih _ _
  | schedule task next _ ih =>
      rw [Task.runWith, run, drain, List.nil_append]
      cases (Queue.run (worker host) ⟨s, [task]⟩).failure with
      | none => exact ih true _
      | some e => rfl

end Inline
end ApiGateway
