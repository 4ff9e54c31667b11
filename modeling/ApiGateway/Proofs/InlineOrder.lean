import Mathlib.Data.List.Nodup
import ApiGateway.Proofs.InlineCalls

/-!
# The order of tasks on the inline executor

The trace of an executor tells which tasks were scheduled, started, over and dropped, and how
outermost calls ended.  Every machine that can be reached has a trace in which tasks start in the
order in which they were scheduled and one at a time, an outermost call returns when nothing is left
to be run, and a fault drops the rest of the queue and escapes.

Main definitions:

- `Entry.schedules`, `Entry.starts`, `Entry.overs`, `Entry.drops`: what a trace tells of tasks.
- `Orderly`: the trace of a first-in-first-out executor that never nests.
- `Accounts`: what is true of a trace while tasks are queued, run and discarded.
- `Sound`: the places at which the code can stand.

Main results:

- `Sound.next`, `Sound.call`: every move and every call of the host keep a machine sound.
- `Reached.orderly`: every machine that can be reached is orderly.
-/

namespace ApiGateway.Inline

variable {S : Signature} {σ : Type}

/-! ## Reading a trace -/

namespace Entry

/-- The task that is scheduled. -/
@[simp]
def scheduled? : Entry → Option Nat
  | .scheduled n => some n
  | _ => none

/-- The task that starts. -/
@[simp]
def started? : Entry → Option Nat
  | .started n => some n
  | _ => none

/-- The task that is over, for better or worse. -/
@[simp]
def over? : Entry → Option Nat
  | .ended n | .failed n _ _ => some n
  | _ => none

/-- The tasks that are dropped. -/
@[simp]
def dropped : Entry → List Nat
  | .failed _ _ ns => ns
  | _ => []

/-- The tasks scheduled, in order. -/
def schedules (trace : List Entry) : List Nat :=
  trace.filterMap scheduled?

/-- The tasks started, in order. -/
def starts (trace : List Entry) : List Nat :=
  trace.filterMap started?

/-- The tasks that are over. -/
def overs (trace : List Entry) : List Nat :=
  trace.filterMap over?

/-- The tasks dropped. -/
def drops (trace : List Entry) : List Nat :=
  trace.flatMap dropped

section Concat

variable (trace : List Entry) (entry : Entry)

@[simp]
theorem schedules_concat :
    schedules (trace ++ [entry]) = schedules trace ++ entry.scheduled?.toList := by
  rw [schedules, List.filterMap_append, List.filterMap_cons]
  cases entry.scheduled? <;> rfl

@[simp]
theorem starts_concat : starts (trace ++ [entry]) = starts trace ++ entry.started?.toList := by
  rw [starts, List.filterMap_append, List.filterMap_cons]
  cases entry.started? <;> rfl

@[simp]
theorem overs_concat : overs (trace ++ [entry]) = overs trace ++ entry.over?.toList := by
  rw [overs, List.filterMap_append, List.filterMap_cons]
  cases entry.over? <;> rfl

@[simp]
theorem drops_concat : drops (trace ++ [entry]) = drops trace ++ entry.dropped := by
  rw [drops, List.flatMap_append, List.flatMap_singleton]
  rfl

end Concat

/-- The tasks that have neither started nor been dropped, in the order of scheduling. -/
def waiting (trace : List Entry) : List Nat :=
  (schedules trace).filter fun n => n ∉ starts trace ∧ n ∉ drops trace

/-- The task has ended, unless a fault has escaped since it was scheduled. -/
def Settled (trace : List Entry) (n : Nat) : Prop :=
  .ended n ∈ trace ∨ ∃ before e, before ++ [.raised e] <+: trace ∧ n ∈ schedules before

/-- What an entry requires of the entries before it. -/
def Follows (before : List Entry) : Entry → Prop
  | .started _ => ∀ k ∈ starts before, k ∈ overs before
  | .returned accepted => accepted = true ∧ ∀ k ∈ schedules before, Settled before k
  | .failed _ _ ns => ns = waiting before
  | _ => True

end Entry

open Entry

/-- Tasks are run in order and one by one, and outermost calls leave the executor idle. -/
structure Orderly (m : Machine S σ) : Prop where
  /-- Tasks are numbered in the order in which they are scheduled. -/
  numbered : schedules m.trace = List.range m.scheduled
  /-- The tasks that have started are the first of those scheduled, except for the dropped ones. -/
  inOrder : starts m.trace <+: (schedules m.trace).filter (· ∉ drops m.trace)
  /-- When a task starts, every task that has started before is over. -/
  alone : ∀ before n, before ++ [.started n] <+: m.trace → ∀ k ∈ starts before, k ∈ overs before
  /-- The outermost call returns when all tasks have ended that no fault has ended or dropped. -/
  complete : ∀ before accepted, before ++ [.returned accepted] <+: m.trace →
    accepted = true ∧ ∀ k ∈ schedules before, Settled before k
  /-- A fault of a task drops all that waits, and the next thing that happens is its escape. -/
  escapes : ∀ before n e ns, before ++ [.failed n e ns] <+: m.trace → ns = waiting before ∧
    (before ++ [.failed n e ns, .raised e] <+: m.trace ∨
      m.trace = before ++ [.failed n e ns] ∧ m.control = .leaving (.error e))
  /-- Outside of calls nothing is queued, and no call drains the queue. -/
  idle : m.control = .outside → m.executor = {}

/-! ## Accounts -/

/-- Every entry is preceded by what it requires. -/
def Lawful (trace : List Entry) : Prop :=
  ∀ before entry, before ++ [entry] <+: trace → entry.Follows before

/-- Every fault of a task has escaped at once, except for one that is about to. -/
def Escaping (trace : List Entry) (failing : Option Fault) : Prop :=
  ∀ before n e ns, before ++ [.failed n e ns] <+: trace →
    before ++ [.failed n e ns, .raised e] <+: trace ∨
      trace = before ++ [.failed n e ns] ∧ failing = some e

/--
What is true of a trace after so many tasks were scheduled, while some are queued, one may be under
way, and a fault may be about to escape.
-/
structure Accounts (trace : List Entry) (count : Nat) (queue : List Nat) (current : Option Nat)
    (failing : Option Fault) : Prop where
  numbered : schedules trace = List.range count
  dropped : ∀ n ∈ drops trace, n < count
  queued : starts trace ++ queue = (List.range count).filter (· ∉ drops trace)
  started : ∀ n ∈ starts trace, n ∈ overs trace ∨ current = some n
  settled : ∀ n ∈ schedules trace,
    Settled trace n ∨ n ∈ queue ∨ current = some n ∨ failing.isSome = true
  lawful : Lawful trace
  escaping : Escaping trace failing

/-- What comes at the end of a longer trace is its last entry, or it was there before. -/
theorem prefix_concat_cases {before trace : List Entry} {x y : Entry}
    (h : before ++ [x] <+: trace ++ [y]) : before = trace ∧ x = y ∨ before ++ [x] <+: trace := by
  rcases List.prefix_concat_iff.1 h with h | h
  · obtain ⟨rfl, hxy⟩ := List.append_inj' h rfl
    exact .inl ⟨rfl, List.cons.inj hxy |>.1⟩
  · exact .inr h

theorem Lawful.concat {trace : List Entry} {entry : Entry} (h : Lawful trace)
    (hentry : entry.Follows trace) : Lawful (trace ++ [entry]) := by
  intro before x hx
  rcases prefix_concat_cases hx with ⟨rfl, rfl⟩ | hx
  · exact hentry
  · exact h _ _ hx

theorem Escaping.concat {trace : List Entry} {entry : Entry} {failing : Option Fault}
    (h : Escaping trace none) (hentry : ∀ n e ns, entry = .failed n e ns → failing = some e) :
    Escaping (trace ++ [entry]) failing := by
  intro before n e ns hprefix
  rcases prefix_concat_cases hprefix with ⟨rfl, heq⟩ | hearlier
  · exact .inr ⟨by rw [heq], hentry n e ns heq.symm⟩
  · rcases h _ _ _ _ hearlier with hraised | ⟨_, hnone⟩
    · exact .inl (hraised.trans (List.prefix_append _ _))
    · cases hnone

/-- The fault that is about to escape does so. -/
theorem Escaping.raised {trace : List Entry} {e : Fault} (h : Escaping trace (some e)) :
    Escaping (trace ++ [.raised e]) none := by
  intro before n e' ns hprefix
  rcases prefix_concat_cases hprefix with ⟨_, heq⟩ | hearlier
  · cases heq
  · rcases h _ _ _ _ hearlier with hraised | ⟨rfl, hfailing⟩
    · exact .inl (hraised.trans (List.prefix_append _ _))
    · cases hfailing
      exact .inl (by rw [List.append_assoc]; exact List.prefix_rfl)

theorem Entry.Settled.concat {trace : List Entry} {n : Nat} (h : Settled trace n) (entry : Entry) :
    Settled (trace ++ [entry]) n := by
  rcases h with h | ⟨before, e, hprefix, hn⟩
  · exact .inl (List.mem_append_left _ h)
  · exact .inr ⟨before, e, hprefix.trans (List.prefix_append _ _), hn⟩

namespace Accounts

theorem nil : Accounts [] 0 [] none none where
  numbered := rfl
  dropped := nofun
  queued := rfl
  started := nofun
  settled := nofun
  lawful _ _ h := absurd (List.prefix_nil.1 h) (List.concat_ne_nil _ _)
  escaping _ _ _ _ h := absurd (List.prefix_nil.1 h) (List.concat_ne_nil _ _)

variable {trace : List Entry} {count n : Nat} {queue : List Nat} {current : Option Nat}
  {failing : Option Fault}

theorem nodup (h : Accounts trace count queue current failing) : (starts trace ++ queue).Nodup := by
  rw [h.queued]
  exact List.nodup_range.filter _

/-- No queued task has started. -/
theorem disjoint (h : Accounts trace count queue current failing) :
    List.Disjoint (starts trace) queue :=
  List.disjoint_of_nodup_append h.nodup

/-- What is queued is what waits. -/
theorem waiting_eq (h : Accounts trace count queue current failing) : waiting trace = queue := by
  have hstarts : (starts trace).filter (· ∉ starts trace) = [] :=
    List.filter_eq_nil_iff.2 fun k hk => by simpa using hk
  have hqueue : queue.filter (· ∉ starts trace) = queue :=
    List.filter_eq_self.2 fun k hk => by simpa using fun hk' => h.disjoint hk' hk
  calc waiting trace
      = ((List.range count).filter (· ∉ drops trace)).filter (· ∉ starts trace) := by
        rw [waiting, h.numbered, List.filter_filter]
        simp only [Bool.decide_and]
    _ = queue := by rw [← h.queued, List.filter_append, hstarts, hqueue, List.nil_append]

/-- When no task is under way, those that have started are over. -/
theorem over_of_started (h : Accounts trace count queue none failing) :
    ∀ k ∈ starts trace, k ∈ overs trace :=
  fun k hk => (h.started k hk).resolve_right nofun

/-- With the end of the task under way, all that have started are over. -/
theorem over_concat (h : Accounts trace count queue (some n) failing) {entry : Entry}
    (hover : entry.over? = some n) : ∀ k ∈ starts trace, k ∈ overs (trace ++ [entry]) := by
  intro k hk
  rw [overs_concat, hover]
  rcases h.started k hk with hk | hk
  · exact List.mem_append_left _ hk
  · exact Option.some.inj hk ▸ List.mem_concat_self

/-- When nothing is left to be run, every task is settled. -/
theorem settled_of_idle (h : Accounts trace count [] none none) :
    ∀ k ∈ schedules trace, Settled trace k := by
  intro k hk
  rcases h.settled k hk with hk | hk | hk | hk
  · exact hk
  · cases hk
  · cases hk
  · cases hk

/-- A task is scheduled. -/
theorem schedule (h : Accounts trace count queue current none) :
    Accounts (trace ++ [.scheduled count]) (count + 1) (queue ++ [count]) current none where
  numbered := by simp [List.range_succ, h.numbered]
  dropped k hk := Nat.lt_succ_of_lt (h.dropped k (by simpa using hk))
  queued := by
    have hcount : count ∉ drops trace := fun hk => Nat.lt_irrefl _ (h.dropped _ hk)
    simpa [List.range_succ, hcount, ← List.append_assoc] using h.queued
  started := by simpa using h.started
  settled k hk := by
    have hk : k ∈ schedules trace ∨ k = count := by simpa using hk
    rcases hk with hk | rfl
    · rcases h.settled k hk with hk | hk | hk
      · exact .inl (hk.concat _)
      · exact .inr (.inl (List.mem_append_left _ hk))
      · exact .inr (.inr hk)
    · exact .inr (.inl List.mem_concat_self)
  lawful := h.lawful.concat trivial
  escaping := h.escaping.concat nofun

/-- The front task starts. -/
theorem start (h : Accounts trace count (n :: queue) none none) :
    Accounts (trace ++ [.started n]) count queue (some n) none where
  numbered := by simpa using h.numbered
  dropped := by simpa using h.dropped
  queued := by simpa using h.queued
  started k hk := by
    have hk : k ∈ starts trace ∨ k = n := by simpa using hk
    rcases hk with hk | rfl
    · exact .inl (by simpa using h.over_of_started k hk)
    · exact .inr rfl
  settled k hk := by
    rcases h.settled k (by simpa using hk) with hk | hk | hk | hk
    · exact .inl (hk.concat _)
    · rcases List.mem_cons.1 hk with rfl | hk
      · exact .inr (.inr (.inl rfl))
      · exact .inr (.inl hk)
    · cases hk
    · cases hk
  lawful := h.lawful.concat h.over_of_started
  escaping := h.escaping.concat nofun

/-- The task under way ends. -/
theorem finish (h : Accounts trace count queue (some n) none) :
    Accounts (trace ++ [.ended n]) count queue none none where
  numbered := by simpa using h.numbered
  dropped := by simpa using h.dropped
  queued := by simpa using h.queued
  started k hk := .inl (h.over_concat rfl k (by simpa using hk))
  settled k hk := by
    rcases h.settled k (by simpa using hk) with hk | hk | hk | hk
    · exact .inl (hk.concat _)
    · exact .inr (.inl hk)
    · exact .inl (.inl (by simp [Option.some.inj hk]))
    · cases hk
  lawful := h.lawful.concat trivial
  escaping := h.escaping.concat nofun

/-- The task under way fails, and the queue is emptied. -/
theorem fail (h : Accounts trace count queue (some n) none) (e : Fault) :
    Accounts (trace ++ [.failed n e queue]) count [] none (some e) where
  numbered := by simpa using h.numbered
  dropped k hk := by
    have hk : k ∈ drops trace ∨ k ∈ queue := by simpa using hk
    rcases hk with hk | hk
    · exact h.dropped k hk
    · have hmem : k ∈ starts trace ++ queue := List.mem_append_right _ hk
      rw [h.queued] at hmem
      exact List.mem_range.1 (List.mem_filter.1 hmem).1
  queued := by
    have hstarts : (starts trace).filter (· ∉ queue) = starts trace :=
      List.filter_eq_self.2 fun k hk => by simpa using fun hk' => h.disjoint hk hk'
    have hqueue : queue.filter (· ∉ queue) = [] :=
      List.filter_eq_nil_iff.2 fun k hk => by simpa using hk
    calc starts (trace ++ [.failed n e queue]) ++ []
        = (starts trace ++ queue).filter (· ∉ queue) := by
          rw [List.filter_append, hstarts, hqueue]
          simp
      _ = (List.range count).filter (· ∉ drops (trace ++ [.failed n e queue])) := by
          rw [h.queued, List.filter_filter]
          simp [and_comm]
  started k hk := .inl (h.over_concat rfl k (by simpa using hk))
  settled _ _ := .inr (.inr (.inr rfl))
  lawful := h.lawful.concat h.waiting_eq.symm
  escaping := h.escaping.concat fun _ _ _ heq => by cases heq; rfl

/-- The outermost call returns. -/
theorem returned (h : Accounts trace count [] none none) :
    Accounts (trace ++ [.returned true]) count [] none none where
  numbered := by simpa using h.numbered
  dropped := by simpa using h.dropped
  queued := by simpa using h.queued
  started := by simpa using h.started
  settled k hk := .inl ((h.settled_of_idle k (by simpa using hk)).concat _)
  lawful := h.lawful.concat ⟨rfl, h.settled_of_idle⟩
  escaping := h.escaping.concat nofun

/-- A fault escapes. -/
theorem raised {e : Fault} (h : Accounts trace count [] none (some e)) :
    Accounts (trace ++ [.raised e]) count [] none none where
  numbered := by simpa using h.numbered
  dropped := by simpa using h.dropped
  queued := by simpa using h.queued
  started := by simpa using h.started
  settled k hk := .inl (.inr ⟨trace, e, List.prefix_rfl, by simpa using hk⟩)
  lawful := h.lawful.concat trivial
  escaping := h.escaping.raised

end Accounts

/-! ## Sound machines -/

/-- The places at which the code can stand, with its accounts. -/
inductive Sound (m : Machine S σ) : Prop where
  | outside (control : m.control = .outside) (executor : m.executor = {}) (callers : m.callers = [])
      (accounts : Accounts m.trace m.scheduled [] none none)
  | running (n : Nat) (task : Task S) (control : m.control = .running n task)
      (draining : m.executor.draining = true) (callers : m.callers = [.host])
      (accounts : Accounts m.trace m.scheduled (m.executor.queue.map Prod.fst) (some n) none)
  /-- A task has made a call, which is over. -/
  | answered (n : Nat) (next : Bool → Task S) (control : m.control = .leaving (.ok true))
      (draining : m.executor.draining = true) (callers : m.callers = [.task n next, .host])
      (accounts : Accounts m.trace m.scheduled (m.executor.queue.map Prod.fst) (some n) none)
  | looking (control : m.control = .looking)
      (draining : m.executor.draining = true) (callers : m.callers = [.host])
      (accounts : Accounts m.trace m.scheduled (m.executor.queue.map Prod.fst) none none)
  | returning (control : m.control = .leaving (.ok true)) (executor : m.executor = {})
      (callers : m.callers = [.host]) (accounts : Accounts m.trace m.scheduled [] none none)
  | raising (e : Fault) (control : m.control = .leaving (.error e)) (executor : m.executor = {})
      (callers : m.callers = [.host]) (accounts : Accounts m.trace m.scheduled [] none (some e))

namespace Sound

variable {host : Host S σ} {m m' : Machine S σ}

/-- Outside of calls the executor is idle. -/
theorem idle (hm : Sound m) (houtside : m.control = .outside) :
    m.executor = {} ∧ m.callers = [] ∧ Accounts m.trace m.scheduled [] none none := by
  cases hm with
  | outside _ executor callers accounts => exact ⟨executor, callers, accounts⟩
  | running _ _ control | answered _ _ control | looking control | returning control
  | raising _ control => cases control.symm.trans houtside

/-- It is the outermost call that looks for the next task. -/
theorem draining (hm : Sound m) (hlooking : m.control = .looking) :
    m.executor.draining = true ∧ m.callers = [.host] := by
  cases hm with
  | looking _ draining callers => exact ⟨draining, callers⟩
  | running _ _ control | answered _ _ control | outside control | returning control
  | raising _ control => cases control.symm.trans hlooking

/-- A call of the host finds the executor idle. -/
theorem call (hm : Sound m) (houtside : m.control = .outside) (task : Task S) :
    Sound (m.schedule .host task) := by
  obtain ⟨hexecutor, hcallers, accounts⟩ := hm.idle houtside
  refine .looking ?control rfl (congrArg _ hcallers) ?accounts
  case control => rw [Machine.schedule, hexecutor]; rfl
  case accounts =>
    have hqueue : (m.schedule .host task).executor.queue = [(m.scheduled, task)] := by
      rw [Machine.schedule, hexecutor]; rfl
    rw [hqueue]
    exact accounts.schedule

/-- Every move keeps a machine sound. -/
theorem next (hm : Sound m) (hnext : m.next? host = some m') : Sound m' := by
  cases hm with
  | outside control =>
      rw [Machine.next?, control] at hnext
      cases hnext
  | running n task control draining callers accounts =>
      cases task with
      | done =>
          rw [Machine.next?, control] at hnext
          cases hnext
          exact .looking rfl draining callers accounts.finish
      | fault e =>
          rw [Machine.next?, control] at hnext
          cases hnext
          exact .raising e rfl rfl callers (accounts.fail e)
      | call op next =>
          rw [Machine.next?, control] at hnext
          cases hnext
          exact .running n _ rfl draining callers accounts
      | schedule task next =>
          rw [Machine.next?, control] at hnext
          cases hnext
          refine .answered n next ?control rfl (congrArg _ callers) ?accounts
          case control => rw [Machine.schedule, draining]; rfl
          case accounts =>
            rw [Machine.schedule, List.map_append]
            exact accounts.schedule
  | answered n next control draining callers accounts =>
      rw [Machine.next?, control, callers] at hnext
      cases hnext
      exact .running n _ rfl draining rfl accounts
  | looking control draining callers accounts =>
      cases hqueue : m.executor.queue with
      | nil =>
          rw [Machine.next?, control, hqueue] at hnext
          cases hnext
          rw [hqueue] at accounts
          exact .returning rfl (congrArg (Executor.mk · false) hqueue) callers accounts
      | cons entry rest =>
          rw [Machine.next?, control, hqueue] at hnext
          cases hnext
          rw [hqueue] at accounts
          exact .running entry.1 entry.2 rfl draining callers accounts.start
  | returning control executor callers accounts =>
      rw [Machine.next?, control, callers] at hnext
      cases hnext
      exact .outside rfl executor rfl accounts.returned
  | raising e control executor callers accounts =>
      rw [Machine.next?, control, callers] at hnext
      cases hnext
      exact .outside rfl executor rfl accounts.raised

/-- The accounts of a sound machine, in which only a fault on its way out may be about to escape. -/
theorem exists_accounts (hm : Sound m) : ∃ queue current failing,
    Accounts m.trace m.scheduled queue current failing ∧
      ∀ e, failing = some e → m.control = .leaving (.error e) := by
  cases hm with
  | outside _ _ _ accounts | running _ _ _ _ _ accounts | answered _ _ _ _ _ accounts
  | looking _ _ _ accounts | returning _ _ _ accounts => exact ⟨_, _, _, accounts, nofun⟩
  | raising e control _ _ accounts =>
      exact ⟨_, _, _, accounts, fun e' h => by cases h; exact control⟩

/-- A sound machine is orderly. -/
theorem orderly (hm : Sound m) : Orderly m := by
  obtain ⟨queue, current, failing, accounts, hfailing⟩ := hm.exists_accounts
  exact {
    numbered := accounts.numbered
    inOrder := ⟨queue, by rw [accounts.numbered, accounts.queued]⟩
    alone := fun before n h => accounts.lawful before _ h
    complete := fun before accepted h => accounts.lawful before _ h
    escapes := fun before n e ns h =>
      ⟨accounts.lawful before _ h,
        (accounts.escaping before n e ns h).imp_right fun h' => ⟨h'.1, hfailing e h'.2⟩⟩
    idle := fun h => (hm.idle h).1 }

end Sound

/-! ## Machines that can be reached -/

theorem Reached.sound {host : Host S σ} {m : Machine S σ} (hm : Reached host m) : Sound m := by
  induction hm with
  | fresh s => exact .outside rfl rfl rfl .nil
  | next _ hnext ih => exact ih.next hnext
  | call task _ houtside ih => exact ih.call houtside task
  | change s _ houtside ih =>
      obtain ⟨hexecutor, hcallers, accounts⟩ := ih.idle houtside
      exact .outside houtside hexecutor hcallers accounts

/-- Whatever the host does, the executor is orderly. -/
theorem Reached.orderly {host : Host S σ} {m : Machine S σ} (hm : Reached host m) : Orderly m :=
  hm.sound.orderly

/-- Every call of the host ends, and it ends as on a fresh executor. -/
theorem Reached.exists_steps {host : Host S σ} {m : Machine S σ} (hm : Reached host m)
    (houtside : m.control = .outside) (task : Task S) :
    ∃ m', Steps host (m.schedule .host task) m' ∧
      m'.Left (run host (.schedule task fun _ => .done) m.state).1
        (run host (.schedule task fun _ => .done) m.state).2 :=
  let ⟨hexecutor, hcallers, _⟩ := hm.sound.idle houtside
  exists_steps_schedule host m task hexecutor hcallers

end ApiGateway.Inline
