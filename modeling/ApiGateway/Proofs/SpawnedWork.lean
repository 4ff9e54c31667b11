import ApiGateway.Proofs.Executions

/-!
# The life of spawned work

Spawned work is in one phase of its life at a time.  What happens to it leads from one phase
to the next: a step follows the program of the work, a suspension waits to be resumed, and a
callback or a refused task is the last thing that happens.  The task of a phase leads to the
next one and leaves less to do.

Main definitions:

- `Prog.Reaches`: a program is left with a rest after events.
- `Work.Phase`, `Work.Phase.Next`: the phases of spawned work, and how one leads to another.
- `Work.Phase.task`: the task that belongs to the work in a phase.

Main results:

- `Work.Phase.Leads.reaches`: the steps that a story tells follow the program of the work.
- `Work.Phase.goes`: a task of the work leads to the next phase.
-/

namespace ApiGateway

variable {S : Signature}

/-! ## Programs that have gone on -/

/-- A program is left with a rest after events: answered operations and resumptions. -/
inductive Prog.Reaches {α : Type} : Prog S α → List (Event S) → Prog S α → Prop where
  | here (p : Prog S α) : Reaches p [] p
  | call {op : S.Op} {next : S.Ans op → Prog S α} {answer : S.Ans op} {events : List (Event S)}
      {rest : Prog S α} (h : Reaches (next answer) events rest) :
      Reaches (.call op next) (.call op answer :: events) rest
  | resumed {p : Prog S α} {events : List (Event S)} {rest : Prog S α} (h : Reaches p events rest) :
      Reaches (.suspend p) (.resumed :: events) rest

namespace Incident

/-- The event in the program of the work, for what happens inside its steps. -/
def event? : Incident S → Option (Event S)
  | .performed op answer => some (.call op answer)
  | .noted .resumed => some .resumed
  | _ => none

/-- Whether a callback is called. -/
def isCallback : Incident S → Bool
  | .noted .finished => true
  | .noted (.failed _) => true
  | _ => false

end Incident

/-! ## Phases -/

namespace Work

/-- Where spawned work stands. -/
inductive Phase (S : Signature) where
  /-- A step is under way and left with a program. -/
  | stepping (p : Prog S Unit)
  /-- The next step has been accepted; it has not noted that it has begun. -/
  | waiting (rest : Prog S Unit)
  /-- The work is ready, and nothing has been called for it. -/
  | succeeded
  /-- A step has raised a fault, and nothing has been called for it. -/
  | raised (e : Fault)
  /-- Nothing is left but code of others. -/
  | ended (rest : Task S)

namespace Phase

/-- What happens to the work leads from one phase to the next. -/
inductive Next : Phase S → Incident S → Phase S → Prop where
  | performed (op : S.Op) (next : S.Ans op → Prog S Unit) (answer : S.Ans op) :
      Next (.stepping (.call op next)) (.performed op answer) (.stepping (next answer))
  | accepted (rest : Prog S Unit) : Next (.stepping (.suspend rest)) .accepted (.waiting rest)
  | rejected (rest : Prog S Unit) (others : Task S) :
      Next (.stepping (.suspend rest)) .rejected (.ended others)
  | resumed (rest : Prog S Unit) : Next (.waiting rest) (.noted .resumed) (.stepping rest)
  | ready (a : Unit) : Next (.stepping (.done a)) (.noted .ready) .succeeded
  | raised (e : Fault) : Next (.stepping (.fault e)) (.noted (.raised e)) (.raised e)
  | finished (others : Task S) : Next .succeeded (.noted .finished) (.ended others)
  | failed (e : Fault) (others : Task S) : Next (.raised e) (.noted (.failed e)) (.ended others)

/-- A story leads from one phase to another. -/
inductive Leads : Phase S → List (Incident S) → Phase S → Prop where
  | here (phase : Phase S) : Leads phase [] phase
  | next {first second last : Phase S} {incident : Incident S} {story : List (Incident S)}
      (hnext : Next first incident second) (h : Leads second story last) :
      Leads first (incident :: story) last

/-- A story may be told in two parts. -/
theorem leads_append_iff {first last : Phase S} {story more : List (Incident S)} :
    Leads first (story ++ more) last ↔ ∃ middle, Leads first story middle ∧
      Leads middle more last := by
  constructor
  · intro h
    induction story generalizing first with
    | nil => exact ⟨first, .here first, h⟩
    | cons incident story ih =>
        cases h with
        | next hnext h =>
            rcases ih h with ⟨middle, hstory, hmore⟩
            exact ⟨middle, .next hnext hstory, hmore⟩
  · rintro ⟨middle, hstory, hmore⟩
    induction hstory with
    | here phase => exact hmore
    | next hnext _ ih => exact .next hnext (ih hmore)

/-- Nothing happens to work that is over. -/
theorem Leads.eq_nil_of_ended {others : Task S} {story : List (Incident S)} {last : Phase S}
    (h : Leads (.ended others) story last) : story = [] ∧ last = .ended others := by
  cases h with
  | here phase => exact ⟨rfl, rfl⟩
  | next hnext h => cases hnext

/-- The program with which the work is left, unless it is over. -/
def program? : Phase S → Option (Prog S Unit)
  | .stepping p => some p
  | .waiting rest => some (.suspend rest)
  | .succeeded => some (.done ())
  | .raised e => some (.fault e)
  | .ended _ => none

/-- The steps that a story tells follow the program of the work. -/
theorem Leads.reaches {first last : Phase S} {story : List (Incident S)}
    (h : Leads first story last) {p : Prog S Unit} (hp : first.program? = some p) :
    ∃ rest, p.Reaches (story.filterMap Incident.event?) rest ∧
      ∀ q, last.program? = some q → q = rest := by
  induction h generalizing p with
  | here phase => exact ⟨p, .here p, fun q hq => Option.some.inj (hq.symm.trans hp)⟩
  | @next first second last incident story hnext h ih =>
      cases hnext with
      | performed op next answer =>
          cases hp
          rcases ih rfl with ⟨rest, hrest, hlast⟩
          exact ⟨rest, .call hrest, hlast⟩
      | accepted rest =>
          cases hp
          exact ih rfl
      | resumed rest =>
          cases hp
          rcases ih rfl with ⟨rest, hrest, hlast⟩
          exact ⟨rest, .resumed hrest, hlast⟩
      | ready a =>
          cases hp
          exact ih rfl
      | raised e =>
          cases hp
          exact ih rfl
      | rejected rest others =>
          rcases h.eq_nil_of_ended with ⟨rfl, rfl⟩
          exact ⟨p, .here p, nofun⟩
      | finished others =>
          rcases h.eq_nil_of_ended with ⟨rfl, rfl⟩
          exact ⟨p, .here p, nofun⟩
      | failed e others =>
          rcases h.eq_nil_of_ended with ⟨rfl, rfl⟩
          exact ⟨p, .here p, nofun⟩

/-- A callback is the last thing in a story. -/
theorem Leads.countP_isCallback_le {first last : Phase S} {story : List (Incident S)}
    (h : Leads first story last) : story.countP Incident.isCallback ≤ 1 := by
  induction h with
  | here phase => exact Nat.zero_le 1
  | next hnext h ih =>
      cases hnext with
      | finished others =>
          rcases h.eq_nil_of_ended with ⟨rfl, -⟩
          exact Nat.le_refl 1
      | failed e others =>
          rcases h.eq_nil_of_ended with ⟨rfl, -⟩
          exact Nat.le_refl 1
      | performed | accepted | rejected | resumed | ready | raised => exact ih

/-! ## The task of a phase -/

/-- The task that belongs to numbered work in a phase; at the end it is code of others. -/
def task (i : Nat) (w : Work S) : Phase S → Task S.noted
  | .stepping p => w.step i p
  | .waiting rest => .note i .resumed (w.step i rest)
  | .succeeded => (w.callbacks.noted i).finish
  | .raised e => (w.callbacks.noted i).fail e
  | .ended rest => rest.other

end Phase
end Work

/-- Code of others has no number. -/
theorem Task.number?_other (task : Task S) : task.other.number? = none := by
  induction task with
  | done | fault | call => rfl
  | schedule task next ih _ => exact ih

/-- What is left of code of others, and what it hands in, is code of others. -/
theorem Task.goes_other {task : Task S} {incidents : List (Nat × Incident S)}
    {queued : List (Task S.noted)} {rest : Task S.noted}
    (h : task.other.Goes incidents queued rest) :
    incidents = [] ∧ (∃ others : Task S, rest = others.other) ∧
      ∀ t ∈ queued, ∃ others : Task S, t = others.other := by
  cases task with
  | done => cases h
  | fault e => cases h
  | call op next =>
      cases h with
      | other op next answer => exact ⟨rfl, ⟨_, rfl⟩, nofun⟩
  | schedule task next =>
      have hnumber := Task.number?_other task
      cases h with
      | accept task next raised =>
          refine ⟨by rw [hnumber]; rfl, ?_, fun t ht => ⟨_, List.mem_singleton.1 ht⟩⟩
          cases raised with
          | none => exact ⟨_, rfl⟩
          | some e => exact ⟨.fault e, rfl⟩
      | reject task next raised =>
          refine ⟨by rw [hnumber]; rfl, ?_, nofun⟩
          cases raised with
          | none => exact ⟨_, rfl⟩
          | some e => exact ⟨.fault e, rfl⟩

namespace Work
namespace Phase

variable {i : Nat} {w : Work S}

/-- The task of a phase has the number of the work, or it is code of others. -/
theorem number?_task (i : Nat) (w : Work S) (phase : Phase S) :
    (phase.task i w).number? = some i ∨ ∃ others : Task S, phase.task i w = others.other := by
  cases phase with
  | stepping p =>
      cases p with
      | done | fault | call | suspend => exact .inl rfl
  | waiting rest => exact .inl rfl
  | succeeded =>
      rw [task, Callbacks.finish, Callbacks.noted]
      cases w.callbacks.onDone with
      | none => exact .inr ⟨.done, rfl⟩
      | some callback => exact .inl rfl
  | raised e =>
      rw [task, Callbacks.fail, Callbacks.noted]
      cases w.callbacks.onFailure with
      | none => exact .inr ⟨.fault e, rfl⟩
      | some callback => exact .inl rfl
  | ended rest => exact .inr ⟨rest, rfl⟩

/-- The task of a phase has no number but that of the work. -/
theorem eq_of_number?_task {phase : Phase S} {j : Nat} (h : (phase.task i w).number? = some j) :
    j = i := by
  rcases phase.number?_task i w with hi | ⟨others, hothers⟩
  · exact Option.some.inj (h.symm.trans hi)
  · rw [hothers, Task.number?_other] at h
    cases h

/--
A task with the number of the work leads to the next phase.  Its task is what is left, or it is
handed in by what is left; unless it has been turned away, it is a part of the one before.
-/
theorem goes {phase : Phase S} {incidents : List (Nat × Incident S)}
    {queued : List (Task S.noted)} {rest : Task S.noted}
    (hnumber : (phase.task i w).number? = some i)
    (h : (phase.task i w).Goes incidents queued rest) :
    ∃ incident next, phase.Next incident next ∧ incidents = [(i, incident)] ∧
      (incident = .rejected ∨ Task.Part (next.task i w) (phase.task i w)) ∧
      (queued = [] ∧ rest = next.task i w ∨
        (∃ p, next = .waiting p) ∧ queued = [next.task i w] ∧
          ∃ others : Task S, rest = others.other) := by
  cases phase with
  | stepping p =>
      cases p with
      | done a =>
          rw [task, step_done] at h ⊢
          cases h with
          | note => exact ⟨_, _, .ready a, rfl, .inr (Task.part_note _ _ _), .inl ⟨rfl, rfl⟩⟩
      | fault e =>
          rw [task, step_fault] at h ⊢
          cases h with
          | note => exact ⟨_, _, .raised e, rfl, .inr (Task.part_note _ _ _), .inl ⟨rfl, rfl⟩⟩
      | call op next =>
          rw [task, step_call] at h ⊢
          cases h with
          | work _ _ _ answer =>
              exact ⟨_, _, .performed op next answer, rfl,
                .inr (Task.part_work i op (fun a => w.step i (next a)) answer),
                .inl ⟨rfl, rfl⟩⟩
      | suspend p =>
          rw [task, step_suspend] at h ⊢
          cases h with
          | accept task next raised =>
              refine ⟨_, _, .accepted p, rfl, .inr (.scheduled _ _), .inr ⟨⟨p, rfl⟩, rfl, ?_⟩⟩
              cases raised with
              | none => exact ⟨.done, rfl⟩
              | some e => exact ⟨.fault e, rfl⟩
          | reject task next raised =>
              cases raised with
              | none => exact ⟨_, _, .rejected p .done, rfl, .inl rfl, .inl ⟨rfl, rfl⟩⟩
              | some e => exact ⟨_, _, .rejected p (.fault e), rfl, .inl rfl, .inl ⟨rfl, rfl⟩⟩
  | waiting p =>
      rw [task] at h ⊢
      cases h with
      | note => exact ⟨_, _, .resumed p, rfl, .inr (Task.part_note _ _ _), .inl ⟨rfl, rfl⟩⟩
  | succeeded =>
      cases hcallback : w.callbacks.onDone with
      | none =>
          simp only [task, Callbacks.finish, Callbacks.noted, hcallback] at hnumber
          cases hnumber
      | some callback =>
          have htask : (succeeded : Phase S).task i w = .note i .finished callback.other := by
            simp only [task, Callbacks.finish, Callbacks.noted, hcallback]
            rfl
          rw [htask] at h ⊢
          cases h with
          | note =>
              exact ⟨_, _, .finished callback, rfl, .inr (Task.part_note _ _ _),
                .inl ⟨rfl, rfl⟩⟩
  | raised e =>
      cases hcallback : w.callbacks.onFailure with
      | none =>
          simp only [task, Callbacks.fail, Callbacks.noted, hcallback] at hnumber
          cases hnumber
      | some callback =>
          have htask : (raised e : Phase S).task i w = .note i (.failed e) (callback e).other := by
            simp only [task, Callbacks.fail, Callbacks.noted, hcallback]
            rfl
          rw [htask] at h ⊢
          cases h with
          | note =>
              exact ⟨_, _, .failed e (callback e), rfl, .inr (Task.part_note _ _ _),
                .inl ⟨rfl, rfl⟩⟩
  | ended rest =>
      rw [task, Task.number?_other] at hnumber
      cases hnumber

/-- Work is over once its story has led it there, after a refused task or a single callback. -/
theorem Leads.ending {first last : Phase S} {story : List (Incident S)} {others : Task S}
    (h : Leads first story last) (hfirst : first.program?.isSome) (hlast : last = .ended others) :
    .rejected ∈ story ∨ story.countP Incident.isCallback = 1 := by
  induction h with
  | here phase =>
      subst hlast
      cases hfirst
  | next hnext h ih =>
      cases hnext with
      | performed | accepted | resumed | ready | raised =>
          rcases ih rfl hlast with hrejected | hcallback
          · exact .inl (List.mem_cons_of_mem _ hrejected)
          · exact .inr hcallback
      | rejected rest others => exact .inl List.mem_cons_self
      | finished others =>
          rcases h.eq_nil_of_ended with ⟨rfl, -⟩
          exact .inr rfl
      | failed e others =>
          rcases h.eq_nil_of_ended with ⟨rfl, -⟩
          exact .inr rfl

end Phase
end Work

end ApiGateway
