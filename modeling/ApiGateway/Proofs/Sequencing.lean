import ApiGateway.Proofs.Watching

/-!
# Sequences of deferred values

Going on with a deferred value resumes it step by step and starts the continuation in the step in
which the value arrives.  A resumption of the sequence is therefore a resumption of the first part
as long as that waits, and of the second part afterwards.  The continuation is called by no
operation, so a call of it shows in a run only once the continuation announces itself.

Main definitions:

- `Prog.reached`: what a number of resumptions lead to.
- `Deferred.continueWith`: going on with what a step has left.
- `Host.watched`, `Deferred.watch`, `Prog.announcing`: runs in which calls of a continuation show.
- `Deferred.Sequenced`: how a sequence runs, in terms of its two parts.

Main results:

- `Prog.start_bind`: a step of a sequence is a step of its first part, gone on with.
- `Prog.reached_conclude_of_lt`, `Prog.reached_conclude`: every resumption of a concluded program
  belongs to the program or to the conclusion.
- `Prog.reached_bind_of_lt`, `Prog.reached_bind_of_ok`, `Prog.reached_bind_of_error`: every
  resumption of a sequence belongs to one of its parts.
- `Deferred.andThen_sequences`: the laws of sequencing.
-/

namespace ApiGateway

variable {S : Signature} {C α β γ σ : Type}

/-! ## Steps -/

/-- Goes on with what a step has left: a fault stays, a deferred value is continued. -/
def Deferred.continueWith (host : Host S σ) (f : α → Prog S β) :
    Except Fault (Deferred S α) × σ → Except Fault (Deferred S β) × σ
  | (.ok d, s) => (d.andThen f).start host s
  | (.error e, s) => (.error e, s)

namespace Prog

variable (host : Host S σ)

/-- A step of a sequence is a step of its first part, gone on with. -/
theorem start_bind (p : Prog S α) (f : α → Prog S β) (s : σ) :
    (p.bind f).start host s = Deferred.continueWith host f (p.start host s) := by
  induction p generalizing s with
  | done a => rfl
  | fault e => rfl
  | call op next ih => exact ih _ _
  | suspend rest ih => rfl

/--
What there is after a number of resumptions.  A value that has arrived and a fault that was raised
stay, since there is nothing left to resume.
-/
def reached : Nat → Prog S α → σ → Except Fault (Deferred S α) × σ
  | 0, p, s => p.start host s
  | n + 1, p, s =>
    match p.start host s with
    | (.ok (.waiting rest), s') => reached n rest s'
    | ended => ended

section Reached

variable (n : Nat) (s : σ)

@[simp]
theorem reached_done (a : α) : (done a : Prog S α).reached host n s = (.ok (.ready a), s) := by
  cases n <;> rfl

@[simp]
theorem reached_fault (e : Fault) : (fault e : Prog S α).reached host n s = (.error e, s) := by
  cases n <;> rfl

@[simp]
theorem reached_call (op : S.Op) (next : S.Ans op → Prog S α) :
    (call op next).reached host n s =
      (next (host.answer op s).1).reached host n (host.answer op s).2 := by
  cases n <;> rfl

@[simp]
theorem reached_suspend_zero (rest : Prog S α) :
    (suspend rest).reached host 0 s = (.ok (.waiting rest), s) :=
  rfl

@[simp]
theorem reached_suspend_succ (rest : Prog S α) :
    (suspend rest).reached host (n + 1) s = rest.reached host n s :=
  rfl

end Reached

/-- Before its last step a concluded program is resumed as the program is. -/
theorem reached_conclude_of_lt (p : Prog S α) (f : Except Fault α → Prog S β) {n : Nat} (s : σ)
    (hn : n < (p.run host s).resumptions) :
    ∃ rest s', p.reached host n s = (.ok (.waiting rest), s') ∧
      (p.conclude f).reached host n s = (.ok (.waiting (rest.conclude f)), s') := by
  induction p generalizing n s with
  | done a => cases hn
  | fault e => cases hn
  | call op next ih =>
      rw [conclude, reached_call, reached_call]
      exact ih _ _ hn
  | suspend rest ih =>
      cases n with
      | zero => exact ⟨rest, s, rfl, rfl⟩
      | succ n => exact ih s (Nat.lt_of_succ_lt_succ hn)

/-- The conclusion starts in the resumption with which the program ends. -/
theorem reached_conclude (p : Prog S α) (f : Except Fault α → Prog S β) (n : Nat) (s : σ) :
    (p.conclude f).reached host ((p.run host s).resumptions + n) s =
      (f (p.run host s).outcome).reached host n (p.run host s).state := by
  induction p generalizing s with
  | done a => rw [conclude, run_done, Nat.zero_add]
  | fault e => rw [conclude, run_fault, Nat.zero_add]
  | call op next ih =>
      rw [conclude, reached_call]
      exact ih _ _
  | suspend rest ih =>
      rw [run_suspend, Nat.add_right_comm]
      exact ih s

/-- Before the first part has ended, a resumption of the sequence is one of the first part. -/
theorem reached_bind_of_lt (p : Prog S α) (f : α → Prog S β) {n : Nat} (s : σ)
    (hn : n < (p.run host s).resumptions) :
    ∃ rest s', p.reached host n s = (.ok (.waiting rest), s') ∧
      (p.bind f).reached host n s = (.ok (.waiting (rest.bind f)), s') := by
  simp only [bind_eq_conclude]
  exact reached_conclude_of_lt host p (onValue f) s hn

/-- The second part starts in the resumption with which the first part ends. -/
theorem reached_bind_of_ok (p : Prog S α) (f : α → Prog S β) {a : α} (n : Nat) (s : σ)
    (hvalue : (p.run host s).outcome = .ok a) :
    (p.bind f).reached host ((p.run host s).resumptions + n) s =
      (f a).reached host n (p.run host s).state := by
  rw [bind_eq_conclude, reached_conclude, hvalue, onValue]

/-- A fault of the first part ends the sequence in the same resumption. -/
theorem reached_bind_of_error (p : Prog S α) (f : α → Prog S β) {e : Fault} (n : Nat) (s : σ)
    (hfault : (p.run host s).outcome = .error e) :
    (p.bind f).reached host ((p.run host s).resumptions + n) s =
      (.error e, (p.run host s).state) := by
  rw [bind_eq_conclude, reached_conclude, hfault, onValue, reached_fault]

end Prog

/-! ## Calls of a continuation -/

/-- An announcement is answered without touching the host. -/
def Host.watched (host : Host S σ) : Host (Watched C S) σ where
  answer
    | .announce _, s => ((), s)
    | .own op, s => host.answer op s

/-- An event of a program among those of a watched one. -/
def Event.own : Event S → Event (Watched C S)
  | .call op answer =>
    let watched : WatchedOp C S := .own op
    .call watched answer
  | .resumed => .resumed

/-- The event with which a call is announced. -/
def Event.announced (callee : C) : Event (Watched C S) :=
  let op : WatchedOp C S := .announce callee
  .call op ()

/-- A deferred value among watched ones. -/
def Deferred.watch : Deferred S α → Deferred (Watched C S) α
  | .ready a => .ready a
  | .waiting rest => .waiting (rest.embed (Embedding.own C S))

/-- The continuation that announces the value with which it is called. -/
def Prog.announcing (f : α → Prog S β) (a : α) : Prog (Watched α S) β :=
  .call (.announce a) fun _ => (f a).embed (Embedding.own α S)

namespace Prog

variable (host : Host S σ)

/-- A watched program ends as it does alone. -/
theorem run_embed_own (p : Prog S α) (s : σ) :
    (p.embed (Embedding.own C S)).run host.watched s = p.run host s := by
  induction p generalizing s with
  | done a => rfl
  | fault e => rfl
  | call op next ih => exact ih _ _
  | suspend rest ih => rw [Prog.embed, run_suspend, run_suspend, ih]

/-- A watched program performs its own operations and announces nothing. -/
theorem transcript_embed_own (p : Prog S α) (s : σ) :
    (p.embed (Embedding.own C S)).transcript host.watched s =
      (p.transcript host s).map Event.own := by
  induction p generalizing s with
  | done a => rfl
  | fault e => rfl
  | call op next ih => exact congrArg (List.cons _) (ih _ _)
  | suspend rest ih => exact congrArg (List.cons _) (ih s)

end Prog

/-! ## The laws of sequencing -/

namespace Deferred

/--
The first part has left a value.  The second part starts in the resumption in which it arrives, and
its events, resumptions and end follow those of the first part.
-/
structure Continued (host : Host S σ) (d : Deferred S α) (f : α → Prog S β) (s : σ) (a : α) :
    Prop where
  arrived : d.toProg.reached host (d.toProg.run host s).resumptions s =
    (.ok (.ready a), (d.toProg.run host s).state)
  reached : ∀ n, (d.andThen f).reached host ((d.toProg.run host s).resumptions + n) s =
    (f a).reached host n (d.toProg.run host s).state
  outcome : ((d.andThen f).run host s).outcome =
    ((f a).run host (d.toProg.run host s).state).outcome
  resumptions : ((d.andThen f).run host s).resumptions =
    (d.toProg.run host s).resumptions + ((f a).run host (d.toProg.run host s).state).resumptions
  state : ((d.andThen f).run host s).state = ((f a).run host (d.toProg.run host s).state).state
  events : (d.andThen f).transcript host s =
    d.toProg.transcript host s ++ (f a).transcript host (d.toProg.run host s).state
  called : (d.watch.andThen (Prog.announcing f)).transcript host.watched s =
    (d.toProg.transcript host s).map Event.own ++
      Event.announced a :: ((f a).transcript host (d.toProg.run host s).state).map Event.own

/--
The first part has raised a fault.  The sequence raises it in the same resumption, and the second
part is not called.
-/
structure Stopped (host : Host S σ) (d : Deferred S α) (f : α → Prog S β) (s : σ) (e : Fault) :
    Prop where
  raised : d.toProg.reached host (d.toProg.run host s).resumptions s =
    (.error e, (d.toProg.run host s).state)
  reached : ∀ n, (d.andThen f).reached host ((d.toProg.run host s).resumptions + n) s =
    (.error e, (d.toProg.run host s).state)
  run : (d.andThen f).run host s =
    ⟨.error e, (d.toProg.run host s).resumptions, (d.toProg.run host s).state⟩
  events : (d.andThen f).transcript host s = d.toProg.transcript host s
  uncalled : (d.watch.andThen (Prog.announcing f)).transcript host.watched s =
    (d.toProg.transcript host s).map Event.own

/-- How a sequence runs, in terms of its two parts. -/
structure Sequenced (host : Host S σ) (d : Deferred S α) (f : α → Prog S β) (s : σ) : Prop where
  waiting : ∀ n < (d.toProg.run host s).resumptions, ∃ rest s',
    d.toProg.reached host n s = (.ok (.waiting rest), s') ∧
      (d.andThen f).reached host n s = (.ok (.waiting (rest.bind f)), s')
  continued : ∀ a, (d.toProg.run host s).outcome = .ok a → d.Continued host f s a
  stopped : ∀ e, (d.toProg.run host s).outcome = .error e → d.Stopped host f s e

variable {host : Host S σ} {s : σ}

/-- The program of a watched value is the watched program. -/
theorem toProg_watch (d : Deferred S α) :
    (d.watch : Deferred (Watched C S) α).toProg = d.toProg.embed (Embedding.own C S) := by
  cases d <;> rfl

/-- Going on with a bare value leaves the program as it is. -/
theorem andThen_done (d : Deferred S α) : d.andThen .done = d.toProg := by
  rw [andThen_eq_bind, Prog.bind_done]

/-- The continuation is called with the value that the first part has left, and nowhere else. -/
theorem transcript_watch_andThen (d : Deferred S α) (f : α → Prog S β) (s : σ) :
    (d.watch.andThen (Prog.announcing f)).transcript host.watched s =
      (d.toProg.transcript host s).map Event.own ++
        match (d.toProg.run host s).outcome with
        | .ok a => Event.announced a ::
            ((f a).transcript host (d.toProg.run host s).state).map Event.own
        | .error _ => [] := by
  rw [andThen_eq_bind, toProg_watch, Prog.transcript_bind, Prog.run_embed_own,
    Prog.transcript_embed_own]
  congr 1
  cases (d.toProg.run host s).outcome with
  | ok a => exact congrArg (List.cons _) (Prog.transcript_embed_own host (f a) _)
  | error e => rfl

/-- A sequence goes on with the value of its first part. -/
theorem continued_of_ok {d : Deferred S α} (f : α → Prog S β) {a : α}
    (h : (d.toProg.run host s).outcome = .ok a) : d.Continued host f s a := by
  have hrun : (d.andThen f).run host s =
      { (f a).run host (d.toProg.run host s).state with
        resumptions := (d.toProg.run host s).resumptions +
          ((f a).run host (d.toProg.run host s).state).resumptions } := by
    rw [andThen_eq_bind, Prog.run_bind, Ending.andThen, h]
  exact {
    arrived := by
      have hdone := Prog.reached_bind_of_ok host d.toProg .done 0 s h
      rwa [Prog.bind_done, Prog.reached_done] at hdone
    reached := fun n => by
      rw [andThen_eq_bind]
      exact Prog.reached_bind_of_ok host d.toProg f n s h
    outcome := by rw [hrun]
    resumptions := by rw [hrun]
    state := by rw [hrun]
    events := by rw [andThen_eq_bind, Prog.transcript_bind_of_ok f h]
    called := by rw [transcript_watch_andThen, h] }

/-- A sequence stops at a fault of its first part. -/
theorem stopped_of_error {d : Deferred S α} (f : α → Prog S β) {e : Fault}
    (h : (d.toProg.run host s).outcome = .error e) : d.Stopped host f s e where
  raised := by
    have hdone := Prog.reached_bind_of_error host d.toProg .done 0 s h
    rwa [Prog.bind_done] at hdone
  reached n := by
    rw [andThen_eq_bind]
    exact Prog.reached_bind_of_error host d.toProg f n s h
  run := by rw [andThen_eq_bind, Prog.run_bind, Ending.andThen, h]
  events := by rw [andThen_eq_bind, Prog.transcript_bind, h, List.append_nil]
  uncalled := by rw [transcript_watch_andThen, h, List.append_nil]

/-- A sequence runs its first part and then its second. -/
theorem sequenced_andThen (host : Host S σ) (d : Deferred S α) (f : α → Prog S β) (s : σ) :
    d.Sequenced host f s where
  waiting n hn := by
    rw [andThen_eq_bind]
    exact Prog.reached_bind_of_lt host d.toProg f s hn
  continued _ h := continued_of_ok f h
  stopped _ h := stopped_of_error f h

/--
The laws of sequencing.  A sequence runs its first part and, in the step in which that leaves a
value, goes on with its second.  A ready value is no more than its continuation, the bare value as
continuation changes nothing, and sequences may be nested to either side.  A program in place of
the first value is started and gone on with.  Equal programs behave alike under every host.
-/
theorem andThen_sequences (host : Host S σ) (d : Deferred S α) (f : α → Prog S β)
    (g : β → Prog S γ) (s : σ) :
    d.Sequenced host f s ∧ (∀ a, (ready a).andThen f = f a) ∧ d.andThen .done = d.toProg ∧
      (d.andThen f).bind g = (d.andThen fun a => (f a).bind g) ∧
      ∀ (p : Prog S β) (s' : σ),
        (p.bind g).start host s' = continueWith host g (p.start host s') := by
  refine ⟨sequenced_andThen host d f s, fun _ => rfl, d.andThen_done, ?_, fun p s' =>
    p.start_bind host g s'⟩
  rw [andThen_eq_bind, andThen_eq_bind, Prog.bind_assoc]

end Deferred
end ApiGateway
