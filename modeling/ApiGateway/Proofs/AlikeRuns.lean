import ApiGateway.Gateway.App
import ApiGateway.Proofs.Rendering

/-!
# Runs that differ in a fault

Two faults are alike if a client must not be able to tell them apart.  Two programs
are alike if they perform the same operations and differ only in faults that are
alike, and so are two hosts.  Runs of alike programs under alike hosts hand over the
same messages, also where a fault is rendered.

Main definitions:

- `Fault.Alike`: faults of which clients are told the same.
- `Prog.Alike`: programs that differ only in such faults.
- `Host.Alike`: hosts that differ only in such faults and in what they do with the log.

Main results:

- `Prog.Alike.bind`: sequences of alike programs are alike.
- `Prog.Alike.run`: runs of alike programs hand over the same messages.
- `Rendering.messages_guarded`: so do runs under error rendering.
-/

namespace ApiGateway

variable {S E : Signature} {α β γ δ σ τ : Type}

/-! ## Faults -/

namespace Fault

/-- Neither a problem nor a failure numbered by the gateway, nor a raised number. -/
def IsInternal : Fault → Prop
  | .problem _ _ => False
  | .coded .gateway _ _ => False
  | .foreign _ => False
  | _ => True

/-- Equal faults, two internal ones of any kind, or two with the same gateway code. -/
inductive Alike : Fault → Fault → Prop where
  | same (e : Fault) : Alike e e
  | internal {e e' : Fault} (h : e.IsInternal) (h' : e'.IsInternal) : Alike e e'
  | coded (code : ErrorCode) (context context' : Option Bytes) :
      Alike (.coded .gateway code context) (.coded .gateway code context')

end Fault

/-- Attempts that both succeed with related values or both fail with faults that are alike. -/
inductive Attempt.Alike (V : α → β → Prop) : Except Fault α → Except Fault β → Prop where
  | ok {a : α} {b : β} (h : V a b) : Attempt.Alike V (.ok a) (.ok b)
  | error {e e' : Fault} (h : e.Alike e') : Attempt.Alike V (.error e) (.error e')

/-! ## Programs -/

/-- A relation between the answers to each operation. -/
abbrev Signature.Answers (S : Signature) :=
  (op : S.Op) → S.Ans op → S.Ans op → Prop

/-- Every operation is given the same answer. -/
def Signature.sameAnswers (S : Signature) : S.Answers :=
  fun _ a a' => a = a'

/-- The host may fail in different ways; all other answers are the same. -/
def Exchange.answersAlike (E : Signature) : (Exchange E).Answers
  | .send _ => Attempt.Alike Eq
  | .receiveBody => Attempt.Alike Eq
  | .log _ => fun a a' => a = a'
  | .observe _ => Attempt.Alike Eq
  | .readFile _ => fun a a' => a = a'
  | .enter _ => fun a a' => a = a'
  | .effect _ => fun a a' => a = a'

/-- Reading the body may fail in different ways; all other answers are the same. -/
def RouteEffects.answersAlike (E : Signature) : (RouteEffects E).Answers
  | .body => Attempt.Alike Eq
  | .effect _ => fun a a' => a = a'

namespace Prog

/--
Programs that perform the same operations and suspend at the same points, for related answers,
and end with related values or with faults that are alike.
-/
inductive Alike (A : S.Answers) (V : α → β → Prop) : Prog S α → Prog S β → Prop where
  | done {a : α} {b : β} (h : V a b) : Alike A V (.done a) (.done b)
  | fault {e e' : Fault} (h : e.Alike e') : Alike A V (.fault e) (.fault e')
  | call (op : S.Op) {next : S.Ans op → Prog S α} {next' : S.Ans op → Prog S β}
      (h : ∀ a a', A op a a' → Alike A V (next a) (next' a')) :
      Alike A V (.call op next) (.call op next')
  | suspend {rest : Prog S α} {rest' : Prog S β} (h : Alike A V rest rest') :
      Alike A V (.suspend rest) (.suspend rest')

namespace Alike

/-- With the same answers every program is alike to itself. -/
theorem refl {V : α → α → Prop} (hV : ∀ a, V a a) (p : Prog S α) :
    p.Alike S.sameAnswers V p := by
  induction p with
  | done a => exact .done (hV a)
  | fault e => exact .fault (.same e)
  | suspend rest ih => exact .suspend ih
  | call op next ih =>
      refine .call op fun a a' ha => ?_
      obtain rfl : a = a' := ha
      exact ih a

/-- Sequences of alike programs are alike. -/
theorem bind {A : S.Answers} {V : α → β → Prop} {W : γ → δ → Prop} {p : Prog S α} {p' : Prog S β}
    {f : α → Prog S γ} {f' : β → Prog S δ} (hp : p.Alike A V p')
    (hf : ∀ a b, V a b → (f a).Alike A W (f' b)) : (p.bind f).Alike A W (p'.bind f') := by
  induction hp with
  | done h => exact hf _ _ h
  | fault h => exact .fault h
  | call op _ ih => exact .call op fun a a' ha => ih a a' ha
  | suspend _ ih => exact .suspend ih

/-- The ends of attempts that are alike. -/
theorem ofExcept {A : S.Answers} {V : α → β → Prop} {attempt : Except Fault α}
    {attempt' : Except Fault β} (h : Attempt.Alike V attempt attempt') :
    (Prog.ofExcept attempt).Alike A V (.ofExcept attempt') := by
  cases h with
  | ok h => exact .done h
  | error h => exact .fault h

/-! ### Programs of an exchange -/

section Exchange

variable {V : α → β → Prop}

/-- Alike handlers are alike in an exchange. -/
theorem embed_effects {p : Prog E α} {p' : Prog E β} (h : p.Alike E.sameAnswers V p') :
    (p.embed (Embedding.effects E)).Alike (Exchange.answersAlike E) V
      (p'.embed (Embedding.effects E)) := by
  induction h with
  | done h => exact .done h
  | fault h => exact .fault h
  | call op _ ih => exact .call _ fun a a' ha => ih a a' ha
  | suspend _ ih => exact .suspend ih

/-- Alike route handlers are alike in an exchange; what is kept of the body is the same. -/
theorem serve_route {p : Prog (RouteEffects E) α} {p' : Prog (RouteEffects E) β}
    (h : p.Alike (RouteEffects.answersAlike E) V p') (kept : Option Bytes) :
    (RouteContext.serve kept p).Alike (Exchange.answersAlike E) V
      (RouteContext.serve kept p') := by
  induction h generalizing kept with
  | done h => exact .done h
  | fault h => exact .fault h
  | suspend _ ih => exact .suspend (ih kept)
  | call op _ ih =>
      cases op with
      | effect op => exact .call _ fun a a' ha => ih a a' ha kept
      | body =>
          cases kept with
          | some bytes => exact ih _ _ (.ok rfl) _
          | none =>
              refine .call _ fun (received received' : Except Fault Bytes) hreceived => ?_
              have hkept : received.toOption = received'.toOption := by
                cases hreceived with
                | ok h => rw [h]
                | error h => rfl
              rw [hkept]
              exact ih received received' hreceived _

end Exchange

/-! ### Programs that are alike to themselves -/

/-- Handing over a message is alike for hosts that are. -/
theorem send (message : Message) :
    (Exchange.send message : Prog (Exchange E) Unit).Alike (Exchange.answersAlike E) Eq
      (Exchange.send message) :=
  .call _ fun _ _ ha => ofExcept ha

theorem receiveBody :
    (Exchange.receiveBody : Prog (Exchange E) Bytes).Alike (Exchange.answersAlike E) Eq
      Exchange.receiveBody :=
  .call _ fun _ _ ha => ofExcept ha

theorem observe (response : Canonical) :
    (Exchange.observe response : Prog (Exchange E) Unit).Alike (Exchange.answersAlike E) Eq
      (Exchange.observe response) :=
  .call _ fun _ _ ha => ofExcept ha

theorem sendAll (messages : List Message) :
    (Exchange.sendAll messages : Prog (Exchange E) Unit).Alike (Exchange.answersAlike E) Eq
      (Exchange.sendAll messages) := by
  induction messages with
  | nil => exact .done rfl
  | cons message rest ih => exact bind (send message) fun _ _ _ => ih

theorem logAll (entries : List LogEntry) :
    (Exchange.logAll entries : Prog (Exchange E) Unit).Alike (Exchange.answersAlike E) Eq
      (Exchange.logAll entries) := by
  induction entries with
  | nil => exact .done rfl
  | cons entry rest ih => exact .call _ fun _ _ _ => ih

end Alike
end Prog

/-! ## Responses -/

/-- Streams that send the same chunks and end in the same way, or fail in ways that are alike. -/
inductive Native.ChunksAlike : List (Except Fault Bytes) → List (Except Fault Bytes) → Prop where
  | nil : ChunksAlike [] []
  | ok (chunk : Bytes) {rest rest' : List (Except Fault Bytes)} (h : ChunksAlike rest rest') :
      ChunksAlike (.ok chunk :: rest) (.ok chunk :: rest')
  | error {e e' : Fault} (h : e.Alike e') (rest rest' : List (Except Fault Bytes)) :
      ChunksAlike (.error e :: rest) (.error e' :: rest')

/-- Equal responses, or streams that differ only in faults that are alike. -/
inductive Native.Alike : Native → Native → Prop where
  | same (res : Native) : Native.Alike res res
  | stream (head : Head) {chunks chunks' : List (Except Fault Bytes)}
      (h : ChunksAlike chunks chunks') : Native.Alike (.stream head chunks) (.stream head chunks')

/-- Equal results, or native responses that are alike. -/
inductive HandlerResult.Alike : HandlerResult → HandlerResult → Prop where
  | same (result : HandlerResult) : HandlerResult.Alike result result
  | native {res res' : Native} (h : res.Alike res') :
      HandlerResult.Alike (.native res) (.native res')

namespace Native

/-- Sending chunks fails where the stream fails. -/
theorem ChunksAlike.sendChunks {chunks chunks' : List (Except Fault Bytes)}
    (h : ChunksAlike chunks chunks') :
    (sendChunks chunks : Prog (Exchange E) Unit).Alike (Exchange.answersAlike E) Eq
      (Native.sendChunks chunks') := by
  induction h with
  | nil => exact Prog.Alike.send _
  | ok chunk _ ih => exact Prog.Alike.bind (Prog.Alike.send _) fun _ _ _ => ih
  | error h rest rest' => exact .fault h

/-- Every stream is alike to itself. -/
theorem ChunksAlike.refl (chunks : List (Except Fault Bytes)) : ChunksAlike chunks chunks := by
  induction chunks with
  | nil => exact .nil
  | cons chunk rest ih =>
      cases chunk with
      | ok bytes => exact .ok bytes ih
      | error e => exact .error (.same e) rest rest

/-- Sending responses that are alike. -/
theorem Alike.send {res res' : Native} (h : res.Alike res') :
    (res.send : Prog (Exchange E) Unit).Alike (Exchange.answersAlike E) Eq res'.send := by
  have hstream (head : Head) {chunks chunks' : List (Except Fault Bytes)}
      (h : ChunksAlike chunks chunks') :
      (Native.send (.stream head chunks) : Prog (Exchange E) Unit).Alike
        (Exchange.answersAlike E) Eq (Native.send (.stream head chunks')) :=
    Prog.Alike.bind (Prog.Alike.send _) fun _ _ _ => h.sendChunks
  cases h with
  | stream head h => exact hstream head h
  | same =>
      cases res with
      | plain head content => exact Prog.Alike.sendAll _
      | json head content => exact Prog.Alike.sendAll _
      | stream head chunks => exact hstream head (ChunksAlike.refl chunks)
      | file head path =>
          refine .call _ fun (content content' : Option Bytes) hcontent => ?_
          obtain rfl : content = content' := hcontent
          cases content with
          | none => exact .fault (.same _)
          | some bytes => exact Prog.Alike.sendAll _

end Native

/-! ## Runs -/

/--
Hosts that answer alike from related states.  What they do with the log may depend on the host, as
long as the states stay related.
-/
structure Host.Alike (R : σ → τ → Prop) (host : Host (Exchange E) σ) (host' : Host (Exchange E) τ) :
    Prop where
  answer : ∀ op s t, R s t →
    Exchange.answersAlike E op (host.answer op s).1 (host'.answer op t).1 ∧
      R (host.answer op s).2 (host'.answer op t).2
  log : ∀ entry entry' s t, R s t →
    R (host.answer (.log entry) s).2 (host'.answer (.log entry') t).2

section Runs

variable {R : σ → τ → Prop} {host : Host (Exchange E) σ} {host' : Host (Exchange E) τ}
  {V : α → β → Prop}

/-- Runs of alike programs hand over the same messages and end alike. -/
theorem Prog.Alike.run {p : Prog (Exchange E) α} {p' : Prog (Exchange E) β}
    (h : p.Alike (Exchange.answersAlike E) V p') (hhost : Host.Alike R host host') {s : σ} {t : τ}
    (hstate : R s t) :
    Event.messages (p.transcript host s) = Event.messages (p'.transcript host' t) ∧
      Attempt.Alike V (p.run host s).outcome (p'.run host' t).outcome ∧
        R (p.run host s).state (p'.run host' t).state := by
  induction h generalizing s t with
  | done h => exact ⟨rfl, .ok h, hstate⟩
  | fault h => exact ⟨rfl, .error h, hstate⟩
  | suspend _ ih => exact ih hstate
  | call op _ ih =>
      rcases hhost.answer op s t hstate with ⟨hanswer, hnext⟩
      rcases ih _ _ hanswer hnext with ⟨hmessages, houtcome, hend⟩
      refine ⟨?_, houtcome, hend⟩
      cases op with
      | send message => exact congrArg (List.cons message) hmessages
      | _ => exact hmessages

namespace Rendering

/-- An internal fault is answered as an internal error. -/
theorem details_of_isInternal {e : Fault} (h : e.IsInternal) :
    (of? e).map Rendering.details = some internalError := by
  cases e with
  | problem details code => exact h.elim
  | foreign value => exact h.elim
  | coded category code context =>
      cases category with
      | gateway => exact h.elim
      | system => rfl
  | _ => rfl

/-- Clients are told the same of faults that are alike. -/
theorem details_of_alike {e e' : Fault} (h : e.Alike e') :
    (of? e).map Rendering.details = (of? e').map Rendering.details := by
  cases h with
  | same => rfl
  | internal h h' => rw [details_of_isInternal h, details_of_isInternal h']
  | coded code context context' => rfl

/-- Answers to faults that are alike hand over the same messages. -/
theorem messages_answer {e e' : Fault} (h : e.Alike e') (hhost : Host.Alike R host host') {s : σ}
    {t : τ} (hstate : R s t) :
    Event.messages ((answer e).transcript host s) =
      Event.messages ((answer e').transcript host' t) := by
  have hdetails := details_of_alike h
  unfold answer
  cases hof : of? e with
  | none =>
      rw [hof, Option.map_none, eq_comm, Option.map_eq_none_iff] at hdetails
      rw [hdetails]
      rfl
  | some r =>
      rw [hof, Option.map_some, eq_comm, Option.map_eq_some_iff] at hdetails
      rcases hdetails with ⟨r', hof', hr⟩
      rw [hof']
      have hlogged := hhost.log r.entry r'.entry s t hstate
      have hsend := (Native.Alike.same (Native.ofProblem r.details)).send.run hhost hlogged
      dsimp only [send]
      rw [hr]
      exact hsend.1

/-- Runs of alike programs under error rendering hand over the same messages. -/
theorem messages_guarded {p p' : Prog (Exchange E) Unit}
    (h : p.Alike (Exchange.answersAlike E) Eq p') (hhost : Host.Alike R host host') {s : σ} {t : τ}
    (hstate : R s t) :
    Event.messages ((guarded false p).transcript host s) =
      Event.messages ((guarded false p').transcript host' t) := by
  rcases h.run hhost hstate with ⟨hmessages, houtcome, hend⟩
  have hrendered : isRendered false p host s = isRendered false p' host' t := by
    rw [isRendered, isRendered, Event.any_handsStart, Event.any_handsStart, hmessages]
  rw [transcript_guarded, transcript_guarded, Event.messages_append, Event.messages_append,
    hmessages, hrendered]
  congr 1
  split
  · generalize (p.run host s).outcome = outcome at houtcome ⊢
    generalize (p'.run host' t).outcome = outcome' at houtcome ⊢
    cases houtcome with
    | ok h => rfl
    | error h => exact messages_answer h hhost hend
  · rfl

end Rendering
end Runs
end ApiGateway
