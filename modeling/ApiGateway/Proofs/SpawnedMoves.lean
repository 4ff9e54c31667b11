import Mathlib.Data.Prod.Lex
import ApiGateway.Proofs.SpawnedWork

/-!
# What moves do to spawned work

Whatever an executor does, at most one task belongs to spawned work at a time: it has been
accepted, or it is under way.  Each move of that task takes the work to its next phase and
leaves less to do; no other move changes anything for it.

Main definitions:

- `Task.numbered`: the tasks that belong to numbered work.
- `Execution.Stands`: work is in a phase, with the task that belongs to it.
- `Execution.Advances`: the task of the work has moved.
- `Execution.Sound`: all work that has been spawned is in some phase.

Main results:

- `Execution.stands_move`: what each move does to spawned work.
- `Execution.Sound.move`: every move keeps an execution sound.
-/

namespace ApiGateway

variable {S : Signature}

/-! ## Tasks in an execution -/

/-- The tasks of a list that belong to numbered work. -/
def Task.numbered (i : Nat) (tasks : List (Task S.noted)) : List (Task S.noted) :=
  tasks.filter fun t => t.number? = some i

namespace Task

/-- A task has another number, or none. -/
theorem numbered_cons_of_ne {i : Nat} {t : Task S.noted} (h : t.number? ≠ some i)
    (tasks : List (Task S.noted)) : numbered i (t :: tasks) = numbered i tasks :=
  List.filter_cons_of_neg (by simpa using h)

/-- A task of the work comes first. -/
theorem numbered_cons {i : Nat} {t : Task S.noted} (h : t.number? = some i)
    (tasks : List (Task S.noted)) : numbered i (t :: tasks) = t :: numbered i tasks :=
  List.filter_cons_of_pos (by simpa using h)

theorem numbered_append (i : Nat) (first second : List (Task S.noted)) :
    numbered i (first ++ second) = numbered i first ++ numbered i second :=
  List.filter_append first second

/-- None of the tasks belongs to the work. -/
theorem numbered_eq_nil {i : Nat} {tasks : List (Task S.noted)}
    (h : ∀ t ∈ tasks, t.number? ≠ some i) : numbered i tasks = [] :=
  List.filter_eq_nil_iff.2 fun t ht => by simpa using h t ht

/-- A task of the work that stands in a list is the only candidate for it. -/
theorem eq_of_numbered_eq {i : Nat} {before after candidates : List (Task S.noted)}
    {t u : Task S.noted} (h : numbered i (before ++ t :: after) = numbered i candidates)
    (ht : t.number? = some i) (hcandidates : candidates = [] ∨ candidates = [u]) :
    candidates = [t] ∧ numbered i before = [] ∧ numbered i after = [] := by
  rw [numbered_append, numbered_cons ht] at h
  rcases hcandidates with rfl | rfl
  · exact absurd h (List.append_ne_nil_of_right_ne_nil _ (List.cons_ne_nil _ _))
  · by_cases hu : u.number? = some i
    · rw [numbered_cons hu, show numbered i [] = [] from rfl] at h
      rcases List.append_eq_singleton_iff.1 h with ⟨hbefore, hrest⟩ | ⟨-, hrest⟩
      · rcases List.cons.inj hrest with ⟨rfl, hafter⟩
        exact ⟨rfl, hbefore, hafter⟩
      · exact absurd hrest (List.cons_ne_nil _ _)
    · rw [numbered_cons_of_ne hu] at h
      exact absurd h (List.append_ne_nil_of_right_ne_nil _ (List.cons_ne_nil _ _))

/-- A task of code of others, or the task of a phase of work that has been spawned. -/
def Known (works : List (Work S)) (t : Task S.noted) : Prop :=
  (∃ others : Task S, t = others.other) ∨
    ∃ (i : Nat) (w : Work S) (phase : Work.Phase S), works[i]? = some w ∧ t = phase.task i w

/-- Code of others is known. -/
theorem known_other (works : List (Work S)) (others : Task S) : Known works others.other :=
  .inl ⟨others, rfl⟩

/-- What is known stays known when more work is spawned. -/
theorem Known.append {works : List (Work S)} {t : Task S.noted} (h : Known works t)
    (more : List (Work S)) : Known (works ++ more) t := by
  rcases h with h | ⟨i, w, phase, hw, rfl⟩
  · exact .inl h
  · refine .inr ⟨i, w, phase, ?_, rfl⟩
    rw [List.getElem?_append_left (List.getElem?_eq_some_iff.1 hw).1, hw]

/-- The number of a known task is that of work which has been spawned. -/
theorem Known.lt_length {works : List (Work S)} {t : Task S.noted} (h : Known works t) {i : Nat}
    (hnumber : t.number? = some i) : i < works.length := by
  rcases h with ⟨others, rfl⟩ | ⟨j, w, phase, hw, rfl⟩
  · rw [number?_other] at hnumber
    cases hnumber
  · cases Work.Phase.eq_of_number?_task hnumber
    exact (List.getElem?_eq_some_iff.1 hw).1

/-- A known task leaves known tasks, and nothing that it does bears any other number. -/
theorem Known.goes {works : List (Work S)} {t : Task S.noted} (h : Known works t)
    {incidents : List (Nat × Incident S)} {queued : List (Task S.noted)} {rest : Task S.noted}
    (hgoes : t.Goes incidents queued rest) :
    (∀ u ∈ rest :: queued, Known works u ∧ (u.number? = none ∨ u.number? = t.number?)) ∧
      ∀ entry ∈ incidents, some entry.1 = t.number? := by
  have hothers (others : Task S) (ht : t = others.other) :
      (∀ u ∈ rest :: queued, Known works u ∧ (u.number? = none ∨ u.number? = t.number?)) ∧
        ∀ entry ∈ incidents, some entry.1 = t.number? := by
    subst ht
    rcases goes_other hgoes with ⟨rfl, hrest, hqueued⟩
    refine ⟨fun u hu => ?_, nofun⟩
    obtain ⟨more, rfl⟩ : ∃ more : Task S, u = more.other :=
      (List.mem_cons.1 hu).elim (· ▸ hrest) (hqueued u)
    exact ⟨known_other works more, .inl (number?_other more)⟩
  rcases h with ⟨others, rfl⟩ | ⟨i, w, phase, hw, rfl⟩
  · exact hothers others rfl
  · rcases phase.number?_task i w with hi | ⟨others, ht⟩
    · rcases Work.Phase.goes hi hgoes with ⟨incident, next, -, rfl, -, hnext⟩
      have hknown : Known works (next.task i w) ∧ ((next.task i w).number? = none ∨
          (next.task i w).number? = (phase.task i w).number?) := by
        refine ⟨.inr ⟨i, w, next, hw, rfl⟩, ?_⟩
        rcases next.number?_task i w with hnumber | ⟨more, hmore⟩
        · exact .inr (hnumber.trans hi.symm)
        · exact .inl (by rw [hmore, number?_other])
      refine ⟨fun u hu => ?_, fun entry he => by rw [List.mem_singleton.1 he, hi]⟩
      rcases hnext with ⟨rfl, rfl⟩ | ⟨-, rfl, more, rfl⟩
      · rw [List.mem_singleton.1 hu]
        exact hknown
      · rcases List.mem_cons.1 hu with rfl | hu
        · exact ⟨known_other works more, .inl (number?_other more)⟩
        · rw [List.mem_singleton.1 hu]
          exact hknown
    · exact hothers others ht

end Task

namespace Execution

open Work

/-- All tasks of an execution are known, and so is the work to which something has happened. -/
structure Known (c : Execution S) : Prop where
  tasks : ∀ t ∈ c.running ++ c.pending, t.Known c.works
  history : ∀ entry ∈ c.history, entry.1 < c.works.length

/-- What is known of an execution stays known. -/
theorem Known.move {c c' : Execution S} {who : Option Nat} (h : c.Known) (hmove : Move c who c') :
    c'.Known := by
  have hrunning {t : Task S.noted} (ht : t ∈ c.running) := h.tasks t (List.mem_append_left _ ht)
  have hpending {t : Task S.noted} (ht : t ∈ c.pending) := h.tasks t (List.mem_append_right _ ht)
  cases hmove with
  | spawn w =>
      refine ⟨fun t ht => ?_, fun entry he => ?_⟩
      · rcases List.mem_cons.1 ht with rfl | ht
        · exact .inr ⟨_, w, .stepping w.completion.toProg, List.getElem?_concat_length,
            w.script_eq_step _⟩
        · exact (h.tasks t ht).append [w]
      · rw [List.length_append]
        exact Nat.lt_add_right _ (h.history entry he)
  | enter task =>
      refine ⟨fun t ht => ?_, h.history⟩
      rcases List.mem_cons.1 ht with rfl | ht
      · exact Task.known_other c.works task
      · exact h.tasks t ht
  | @go before after queued task rest incidents heq hgoes =>
      have htask : task.Known c.works := hrunning (heq ▸ List.mem_append_cons_self)
      rcases htask.goes hgoes with ⟨hrest, hincidents⟩
      refine ⟨fun t ht => ?_, fun entry he => ?_⟩
      · simp only [List.mem_append, List.mem_cons] at ht
        rcases ht with (ht | rfl | ht) | ht | ht
        · exact hrunning (heq ▸ List.mem_append_left _ ht)
        · exact (hrest t List.mem_cons_self).1
        · exact hrunning (heq ▸ List.mem_append_right _ (List.mem_cons_of_mem _ ht))
        · exact hpending ht
        · exact (hrest t (List.mem_cons_of_mem _ ht)).1
      · rcases List.mem_append.1 he with he | he
        · exact h.history entry he
        · exact htask.lt_length (hincidents entry he).symm
  | @begin before after task heq =>
      refine ⟨fun t ht => ?_, h.history⟩
      simp only [List.mem_append, List.mem_cons] at ht
      rcases ht with (rfl | ht) | ht | ht
      · exact hpending (heq ▸ List.mem_append_cons_self)
      · exact hrunning ht
      · exact hpending (heq ▸ List.mem_append_left _ ht)
      · exact hpending (heq ▸ List.mem_append_right _ (List.mem_cons_of_mem _ ht))
  | @leave before after task heq hover =>
      refine ⟨fun t ht => ?_, h.history⟩
      simp only [List.mem_append] at ht
      rcases ht with (ht | ht) | ht
      · exact hrunning (heq ▸ List.mem_append_left _ ht)
      · exact hrunning (heq ▸ List.mem_append_right _ (List.mem_cons_of_mem _ ht))
      · exact hpending ht
  | idle => exact h

/--
Work stands in a phase.  Its story has led there, and the task of the phase is the only one of
the work, if it is one: it has been accepted and is outstanding, or it is under way.
-/
structure Stands (c : Execution S) (i : Nat) (w : Work S) (phase : Phase S) (outstanding : Bool) :
    Prop where
  told : Phase.Leads (.stepping w.completion.toProg) (c.story i) phase
  running : Task.numbered i c.running =
    Task.numbered i (if outstanding then [] else [phase.task i w])
  pending : Task.numbered i c.pending =
    Task.numbered i (if outstanding then [phase.task i w] else [])

namespace Stands

variable {c c' : Execution S} {i : Nat} {w : Work S} {phase : Phase S} {outstanding : Bool}

/-- Where work stands depends on nothing but its story and its tasks. -/
theorem congr (h : c.Stands i w phase outstanding) (hstory : c'.story i = c.story i)
    (hrunning : Task.numbered i c'.running = Task.numbered i c.running)
    (hpending : Task.numbered i c'.pending = Task.numbered i c.pending) :
    c'.Stands i w phase outstanding :=
  ⟨hstory ▸ h.told, hrunning.trans h.running, hpending.trans h.pending⟩

/-- A task of the work that has been begun is that of the phase. -/
theorem of_running (h : c.Stands i w phase outstanding) {before after : List (Task S.noted)}
    {task : Task S.noted} (heq : c.running = before ++ task :: after)
    (hnumber : task.number? = some i) :
    outstanding = false ∧ task = phase.task i w ∧ Task.numbered i before = [] ∧
      Task.numbered i after = [] := by
  have hrunning := h.running
  rw [heq] at hrunning
  cases outstanding with
  | true => cases (Task.eq_of_numbered_eq (u := task) hrunning hnumber (.inl rfl)).1
  | false =>
      rcases Task.eq_of_numbered_eq hrunning hnumber (.inr rfl) with ⟨htask, hbefore, hafter⟩
      exact ⟨rfl, (List.cons.inj htask).1.symm, hbefore, hafter⟩

/-- A task of the work that has been accepted is that of the phase. -/
theorem of_pending (h : c.Stands i w phase outstanding) {before after : List (Task S.noted)}
    {task : Task S.noted} (heq : c.pending = before ++ task :: after)
    (hnumber : task.number? = some i) :
    outstanding = true ∧ task = phase.task i w ∧ Task.numbered i before = [] ∧
      Task.numbered i after = [] := by
  have hpending := h.pending
  rw [heq] at hpending
  cases outstanding with
  | false => cases (Task.eq_of_numbered_eq (u := task) hpending hnumber (.inl rfl)).1
  | true =>
      rcases Task.eq_of_numbered_eq hpending hnumber (.inr rfl) with ⟨htask, hbefore, hafter⟩
      exact ⟨rfl, (List.cons.inj htask).1.symm, hbefore, hafter⟩

end Stands

/-- Less is left to do for the work: its task is a part of the one before, or has been begun. -/
abbrev Less : Task S.noted × Bool → Task S.noted × Bool → Prop :=
  Prod.Lex Task.Part (· < ·)

/--
A move of a task of the work: the work stands at the next phase, or its task has been begun, and
less is left to do unless it has been turned away.
-/
structure Advances (c' : Execution S) (i : Nat) (w : Work S) (phase : Phase S)
    (outstanding : Bool) : Prop where
  mine : (phase.task i w).number? = some i
  further : ∃ next nowOutstanding, c'.Stands i w next nowOutstanding ∧
    (.rejected ∈ c'.story i ∨
      Less (next.task i w, nowOutstanding) (phase.task i w, outstanding))

/-- Nothing that happens to other work is told of this one. -/
theorem filterMap_eq_nil_of_ne {i : Nat} {incidents : List (Nat × Incident S)}
    (h : ∀ entry ∈ incidents, entry.1 ≠ i) :
    incidents.filterMap (fun entry => if entry.1 = i then some entry.2 else none) = [] :=
  List.filterMap_eq_nil_iff.2 fun entry he => if_neg (h entry he)

/-- A task that goes on takes its work to the next phase. -/
theorem Stands.go {c c' : Execution S} {i : Nat} {w : Work S} {phase : Phase S}
    {outstanding : Bool} (h : c.Stands i w phase outstanding)
    {before after queued : List (Task S.noted)} {task rest : Task S.noted}
    {incidents : List (Nat × Incident S)} (heq : c.running = before ++ task :: after)
    (hgoes : task.Goes incidents queued rest) (hnumber : task.number? = some i)
    (hrunning : c'.running = before ++ rest :: after) (hpending : c'.pending = c.pending ++ queued)
    (hhistory : c'.history = c.history ++ incidents) : c'.Advances i w phase outstanding := by
  rcases h.of_running heq hnumber with ⟨rfl, rfl, hbefore, hafter⟩
  rcases Phase.goes hnumber hgoes with ⟨incident, next, hnext, rfl, hless, hrest⟩
  have hstory : c'.story i = c.story i ++ [incident] := by
    rw [story, hhistory, List.filterMap_append, story]
    exact congrArg _ (by rw [List.filterMap_cons, if_pos rfl]; rfl)
  have htold : Phase.Leads (.stepping w.completion.toProg) (c'.story i) next := by
    rw [hstory]
    exact Phase.leads_append_iff.2 ⟨phase, h.told, .next hnext (.here next)⟩
  have hless' : .rejected ∈ c'.story i ∨
      ∀ now, Less (next.task i w, now) (phase.task i w, false) := by
    refine hless.imp (fun hrejected => ?_) fun hpart now => .left _ _ hpart
    rw [hstory, hrejected]
    exact List.mem_append_right _ List.mem_cons_self
  have hnone : Task.numbered i c.pending = [] := h.pending
  refine ⟨hnumber, ?_⟩
  rcases hrest with ⟨rfl, rfl⟩ | ⟨-, rfl, others, rfl⟩
  · refine ⟨next, false, ⟨htold, ?_, ?_⟩, hless'.imp id fun h => h false⟩
    · rw [hrunning, List.append_cons, Task.numbered_append, Task.numbered_append, hbefore, hafter,
        List.nil_append, List.append_nil]
      rfl
    · rw [hpending, List.append_nil, hnone]
      rfl
  · refine ⟨next, true, ⟨htold, ?_, ?_⟩, hless'.imp id fun h => h true⟩
    · rw [hrunning, Task.numbered_append, Task.numbered_cons_of_ne, hbefore, hafter]
      · rfl
      · rw [Task.number?_other]
        exact nofun
    · rw [hpending, Task.numbered_append, hnone]
      rfl

/-- What a move does to work: nothing, or it is a move of its task. -/
theorem stands_move {c c' : Execution S} {who : Option Nat} (hknown : c.Known)
    (hmove : Move c who c') {i : Nat} {w : Work S} (hw : c.works[i]? = some w) {phase : Phase S}
    {outstanding : Bool} (h : c.Stands i w phase outstanding) :
    (who ≠ some i ∧ c'.Stands i w phase outstanding) ∨
      (who = some i ∧ c'.Advances i w phase outstanding) := by
  cases hmove with
  | spawn w' =>
      refine .inl ⟨nofun, h.congr rfl (Task.numbered_cons_of_ne (fun hnumber => ?_) _) rfl⟩
      have hlt := (List.getElem?_eq_some_iff.1 hw).1
      rw [script_eq_step] at hnumber
      exact Nat.ne_of_lt hlt
        (@Phase.eq_of_number?_task _ _ w' (.stepping w'.completion.toProg) _ hnumber)
  | enter task =>
      refine .inl ⟨nofun, h.congr rfl (Task.numbered_cons_of_ne ?_ _) rfl⟩
      rw [Task.number?_other]
      exact nofun
  | @go before after queued task rest incidents heq hgoes =>
      by_cases hnumber : task.number? = some i
      · exact .inr ⟨hnumber, h.go heq hgoes hnumber rfl rfl rfl⟩
      · refine .inl ⟨hnumber, ?_⟩
        have htask : task.Known c.works :=
          hknown.tasks _ (List.mem_append_left _ (heq ▸ List.mem_append_cons_self))
        rcases htask.goes hgoes with ⟨hrest, hincidents⟩
        have hforeign (u : Task S.noted) (hu : u ∈ rest :: queued) : u.number? ≠ some i := by
          rcases (hrest u hu).2 with hnone | hsame
          · exact hnone ▸ nofun
          · exact hsame ▸ hnumber
        refine h.congr ?_ ?_ ?_
        · have hne (entry : Nat × Incident S) (he : entry ∈ incidents) : entry.1 ≠ i :=
            fun heq => hnumber (heq ▸ (hincidents entry he).symm)
          simp only [story, List.filterMap_append]
          rw [filterMap_eq_nil_of_ne hne, List.append_nil]
        · rw [heq, Task.numbered_append, Task.numbered_append, Task.numbered_cons_of_ne hnumber,
            Task.numbered_cons_of_ne (hforeign rest List.mem_cons_self)]
        · rw [Task.numbered_append, Task.numbered_eq_nil fun u hu =>
            hforeign u (List.mem_cons_of_mem _ hu), List.append_nil]
  | @begin before after task heq =>
      by_cases hnumber : task.number? = some i
      · rcases h.of_pending heq hnumber with ⟨rfl, rfl, hbefore, hafter⟩
        refine .inr ⟨hnumber, hnumber, phase, false, ⟨h.told, ?_, ?_⟩, .inr (.right _ rfl)⟩
        · have hnone : Task.numbered i c.running = [] := h.running
          rw [Task.numbered_cons hnumber, hnone, if_neg Bool.false_ne_true,
            Task.numbered_cons hnumber]
          rfl
        · rw [Task.numbered_append, hbefore, hafter]
          rfl
      · refine .inl ⟨hnumber, h.congr rfl (Task.numbered_cons_of_ne hnumber _) ?_⟩
        rw [heq, Task.numbered_append, Task.numbered_append, Task.numbered_cons_of_ne hnumber]
  | @leave before after task heq hover =>
      have hnumber : task.number? ≠ some i := by
        rcases hover with rfl | ⟨e, rfl⟩
        · exact nofun
        · exact nofun
      refine .inl ⟨nofun, h.congr rfl ?_ rfl⟩
      rw [heq, Task.numbered_append, Task.numbered_append, Task.numbered_cons_of_ne hnumber]
  | idle => exact .inl ⟨nofun, h⟩

/-- Work that has just been spawned stands at its first step. -/
theorem stands_spawn {c : Execution S} (hknown : c.Known) (w : Work S) :
    Stands { c with works := c.works ++ [w], running := w.script c.works.length :: c.running }
      c.works.length w (.stepping w.completion.toProg) false := by
  have hnone {tasks : List (Task S.noted)} (hsub : tasks ⊆ c.running ++ c.pending) :
      Task.numbered c.works.length tasks = [] :=
    Task.numbered_eq_nil fun t ht hnumber =>
      Nat.lt_irrefl _ ((hknown.tasks t (hsub ht)).lt_length hnumber)
  refine ⟨?_, ?_, hnone (List.subset_append_right _ _)⟩
  · have hstory : c.story c.works.length = [] :=
      filterMap_eq_nil_of_ne fun entry he => Nat.ne_of_lt (hknown.history entry he)
    exact hstory ▸ .here _
  · change Task.numbered _ ([w.script c.works.length] ++ c.running) = _
    rw [Task.numbered_append, hnone (List.subset_append_left _ _), List.append_nil, script_eq_step]
    rfl

/-- All tasks are known, and all work that has been spawned stands in some phase. -/
structure Sound (c : Execution S) : Prop where
  known : c.Known
  stands : ∀ i w, c.works[i]? = some w → ∃ phase outstanding, c.Stands i w phase outstanding

/-- Nothing has been spawned at the start. -/
theorem sound_empty : Sound ({} : Execution S) :=
  ⟨⟨nofun, nofun⟩, nofun⟩

/-- Only spawning adds work, and none is lost. -/
theorem works_move {c c' : Execution S} {who : Option Nat} (hmove : Move c who c') :
    c'.works = c.works ∨ ∃ w, c' =
      { c with works := c.works ++ [w], running := w.script c.works.length :: c.running } := by
  cases hmove with
  | spawn w => exact .inr ⟨w, rfl⟩
  | enter | go | begin | leave | idle => exact .inl rfl

/-- Work that has been spawned keeps its number. -/
theorem getElem?_works_move {c c' : Execution S} {who : Option Nat} (hmove : Move c who c')
    {i : Nat} {w : Work S} (hw : c.works[i]? = some w) : c'.works[i]? = some w := by
  rcases works_move hmove with hworks | ⟨w', rfl⟩
  · rw [hworks, hw]
  · rw [List.getElem?_append_left (List.getElem?_eq_some_iff.1 hw).1, hw]

/-- Every move keeps an execution sound. -/
theorem Sound.move {c c' : Execution S} {who : Option Nat} (h : c.Sound) (hmove : Move c who c') :
    c'.Sound := by
  have hstays {i : Nat} {w : Work S} (hw : c.works[i]? = some w) :
      ∃ phase outstanding, c'.Stands i w phase outstanding := by
    rcases h.stands i w hw with ⟨phase, outstanding, hstands⟩
    rcases stands_move h.known hmove hw hstands with ⟨-, hstands⟩ | ⟨-, -, next, now, hstands, -⟩
    · exact ⟨phase, outstanding, hstands⟩
    · exact ⟨next, now, hstands⟩
  refine ⟨h.known.move hmove, fun i w hw => ?_⟩
  rcases works_move hmove with hworks | ⟨w', rfl⟩
  · exact hstays (hworks ▸ hw)
  · rcases Nat.lt_or_ge i c.works.length with hlt | hge
    · exact hstays (by rwa [List.getElem?_append_left hlt] at hw)
    · have hi : i = c.works.length :=
        Nat.le_antisymm (Nat.le_of_lt_succ (by simpa using (List.getElem?_eq_some_iff.1 hw).1)) hge
      subst hi
      cases List.getElem?_concat_length.symm.trans hw
      exact ⟨_, _, stands_spawn h.known w⟩

namespace Stands

variable {c : Execution S} {i : Nat} {w : Work S} {phase : Phase S} {outstanding : Bool}

/-- The task of a phase is there, if it belongs to the work. -/
theorem mem (h : c.Stands i w phase outstanding) (hnumber : (phase.task i w).number? = some i) :
    phase.task i w ∈ c.running ++ c.pending := by
  have hmine : phase.task i w ∈ Task.numbered i [phase.task i w] := by
    rw [Task.numbered_cons hnumber]
    exact List.mem_cons_self
  cases outstanding with
  | false =>
      have hrunning : Task.numbered i c.running = Task.numbered i [phase.task i w] := h.running
      rw [← hrunning] at hmine
      exact List.mem_append_left _ (List.mem_filter.1 hmine).1
  | true =>
      have hpending : Task.numbered i c.pending = Task.numbered i [phase.task i w] := h.pending
      rw [← hpending] at hmine
      exact List.mem_append_right _ (List.mem_filter.1 hmine).1

/-- At most one task belongs to the work. -/
theorem length_numbered_le (h : c.Stands i w phase outstanding) :
    (Task.numbered i (c.running ++ c.pending)).length ≤ 1 := by
  rw [Task.numbered_append, h.running, h.pending, ← Task.numbered_append]
  cases outstanding with
  | false => exact List.length_filter_le _ [phase.task i w]
  | true => exact List.length_filter_le _ [phase.task i w]

end Stands
end Execution

end ApiGateway
