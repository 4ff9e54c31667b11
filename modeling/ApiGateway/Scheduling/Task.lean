import ApiGateway.Program.Deferred

/-!
# Tasks

A task is work handed to an executor.  It performs operations, and it may
schedule further tasks; each of them is a part of the task that schedules it, so
no chain of scheduling is endless.  Running a task never runs another one: what
it schedules is appended to a queue, unless the host turns it away.

Main definitions:

- `Task`: work with operations and scheduling.
- `Worker`: a host together with its rule for accepting tasks.
- `Task.run`: the state, the queued tasks and the fault that a task leaves.
- `Task.Part`, `Task.Inside`: the tasks of which a task is made.

Main results:

- `Task.part_wellFounded`: no task has an endless chain of parts.
- `Task.inside_of_mem_queued`: a run queues nothing but tasks inside its task.
-/

namespace ApiGateway

/-- Work for an executor. -/
inductive Task (S : Signature) where
  /-- Nothing is left to do. -/
  | done
  /-- Fails. -/
  | fault (error : Fault)
  /-- Performs an operation and goes on with its answer. -/
  | call (op : S.Op) (next : S.Ans op → Task S)
  /-- Hands in a task and goes on with whether it was accepted. -/
  | schedule (task : Task S) (next : Bool → Task S)

/-- A host of tasks with its rule for accepting them. -/
structure Worker (S : Signature) (σ : Type) extends Host S σ where
  accepts : σ → Bool

/-- What running a task leaves behind. -/
structure Progress (S : Signature) (σ : Type) where
  state : σ
  queued : List (Task S)
  failure : Option Fault

variable {S : Signature} {σ : Type}

namespace Task

/-- Does one task after another. -/
def andThen : Task S → Task S → Task S
  | .done, rest => rest
  | .fault e, _ => .fault e
  | .call op next, rest => .call op fun answer => (next answer).andThen rest
  | .schedule task next, rest => .schedule task fun accepted => (next accepted).andThen rest

/-- Performs one operation for its effect. -/
def perform (op : S.Op) : Task S :=
  .call op fun _ => .done

/-- Runs a task; accepted tasks are queued in order. -/
def run (worker : Worker S σ) : Task S → σ → Progress S σ
  | .done, s => ⟨s, [], none⟩
  | .fault e, s => ⟨s, [], some e⟩
  | .call op next, s =>
    let (answer, s') := worker.answer op s
    (next answer).run worker s'
  | .schedule task next, s =>
    if worker.accepts s then
      let rest := (next true).run worker s
      { rest with queued := task :: rest.queued }
    else
      (next false).run worker s

/-- The second task goes on where the first one ends, unless that fails. -/
theorem run_andThen (worker : Worker S σ) (first second : Task S) (s : σ) :
    (first.andThen second).run worker s =
      match first.run worker s with
      | ⟨s', queued, some e⟩ => ⟨s', queued, some e⟩
      | ⟨s', queued, none⟩ =>
        let rest := second.run worker s'
        { rest with queued := queued ++ rest.queued } := by
  induction first generalizing s with
  | done | fault => rfl
  | call op next ih => exact ih _ _
  | schedule task next _ ih =>
    rw [andThen, run, run]
    split
    · rw [ih true s]
      rcases (next true).run worker s with ⟨_, _, _ | _⟩
      · rfl
      · rfl
    · exact ih false s

/-! ## Parts -/

/-- The first task is handed in by the second one, or is what the second one goes on with. -/
inductive Part : Task S → Task S → Prop where
  | answered (op : S.Op) (next : S.Ans op → Task S) (answer : S.Ans op) :
      Part (next answer) (.call op next)
  | scheduled (task : Task S) (next : Bool → Task S) : Part task (.schedule task next)
  | afterSchedule (task : Task S) (next : Bool → Task S) (accepted : Bool) :
      Part (next accepted) (.schedule task next)

/-- No task has an endless chain of parts. -/
theorem part_wellFounded : WellFounded (Part (S := S)) := by
  refine ⟨fun t => ?_⟩
  induction t with
  | done | fault => exact ⟨_, nofun⟩
  | call op next ih =>
    refine ⟨_, fun small h => ?_⟩
    cases h with
    | answered _ _ answer => exact ih answer
  | schedule task next ihTask ihNext =>
    refine ⟨_, fun small h => ?_⟩
    cases h with
    | scheduled => exact ihTask
    | afterSchedule _ _ accepted => exact ihNext accepted

/-- The first task is a part of the second one, or a part of a part, and so on. -/
abbrev Inside : Task S → Task S → Prop :=
  Relation.TransGen Part

/-- Running a task queues nothing but tasks inside it. -/
theorem inside_of_mem_queued (worker : Worker S σ) {small : Task S} (t : Task S) (s : σ)
    (h : small ∈ (t.run worker s).queued) : Inside small t := by
  induction t generalizing s with
  | done | fault => simp [run] at h
  | call op next ih => exact (ih _ _ h).tail (.answered op next _)
  | schedule task next _ ih =>
    rw [run] at h
    split at h
    · rcases List.mem_cons.1 h with rfl | h
      · exact .single (.scheduled _ _)
      · exact (ih true _ h).tail (.afterSchedule _ _ _)
    · exact (ih false _ h).tail (.afterSchedule _ _ _)

end Task
end ApiGateway
