import ApiGateway.Gateway.Dispatcher
import ApiGateway.Proofs.Rendering

/-!
# Suspensions in runs

A program may wait for a number of resumptions before it goes on.  In a run the events
before and after the wait are those of the program that does not wait, and so is the
end.  Sequencing and error rendering keep this, since both follow the run.

Main definitions:

- `Prog.Performs`, `Prog.AtOnce`: programs that end without suspending, by operations of one kind
  or of any.  `Prog.Admits`: operations of one kind, and possibly suspensions.
- `Exchange.IsQuiet`, `Event.IsQuiet`: nothing that a client or the observer can see.
- `Exchange.IsSending`: the operations of sending a response.
- `Prog.Postpones`: a run that differs from another by resumptions at one point, before
  which all is quiet.

Main results:

- `Prog.resumptions_run`: the resumptions of a run are those in its transcript.
- `Prog.Postpones.bind_right`, `Prog.Postpones.bind`, `Prog.Postpones.guarded`: what is
  postponed inside of a program is postponed in the whole.
- `Prog.AtOnce.invoke`, `Prog.AtOnce.respond`, `Prog.AtOnce.guarded`: without suspending handlers
  nothing suspends.
-/

namespace ApiGateway

variable {S E : Signature} {α β σ : Type}

/-! ## Resumptions -/

/-- Whether an event is a resumption. -/
def Event.isResumed : Event S → Bool
  | .call _ _ => false
  | .resumed => true

namespace Prog

/-- The resumptions of a run are those in its transcript. -/
theorem resumptions_run (host : Host S σ) (p : Prog S α) (s : σ) :
    (p.run host s).resumptions = (p.transcript host s).countP Event.isResumed := by
  induction p generalizing s with
  | done a => rfl
  | fault e => rfl
  | call op next ih => exact ih _ _
  | suspend rest ih =>
      rw [transcript_suspend, List.countP_cons_of_pos rfl, ← ih]
      rfl

/-- Waiting changes nothing in the end of a run but the number of resumptions. -/
theorem run_delayed (host : Host S σ) (n : Nat) (p : Prog S α) (s : σ) :
    (delayed n p).run host s =
      { p.run host s with resumptions := (p.run host s).resumptions + n } := by
  induction n with
  | zero => rfl
  | succ n ih => rw [delayed, run_suspend, ih, Nat.add_assoc]

/-- Waiting is resumed before anything else happens. -/
theorem transcript_delayed (host : Host S σ) (n : Nat) (p : Prog S α) (s : σ) :
    (delayed n p).transcript host s = List.replicate n .resumed ++ p.transcript host s := by
  induction n with
  | zero => rfl
  | succ n ih => rw [delayed, transcript_suspend, ih, List.replicate_succ, List.cons_append]

end Prog

/-- A number for a run that leaves a value, and zero for one that fails. -/
def Ending.ifOk (ending : Ending σ α) (n : Nat) : Nat :=
  match ending.outcome with
  | .ok _ => n
  | .error _ => 0

/-- Going on from runs with the same end, apart from resumptions, leads to the same end. -/
theorem Ending.andThen_congr {ending ending' : Ending σ α}
    (houtcome : ending'.outcome = ending.outcome) (hstate : ending'.state = ending.state)
    (f : α → σ → Ending σ β) :
    (ending'.andThen f).outcome = (ending.andThen f).outcome ∧
      (ending'.andThen f).state = (ending.andThen f).state := by
  unfold Ending.andThen
  rw [houtcome, hstate]
  cases ending.outcome with
  | ok a => exact ⟨rfl, rfl⟩
  | error e => exact ⟨rfl, rfl⟩

/-- Recovering from runs with the same end, apart from resumptions, leads to the same end. -/
theorem Ending.rescue_congr {ending ending' : Ending σ α}
    (houtcome : ending'.outcome = ending.outcome) (hstate : ending'.state = ending.state)
    (f : Fault → σ → Ending σ α) :
    (ending'.rescue f).outcome = (ending.rescue f).outcome ∧
      (ending'.rescue f).state = (ending.rescue f).state := by
  unfold Ending.rescue
  rw [houtcome, hstate]
  cases hout : ending.outcome with
  | ok a => exact ⟨houtcome, hstate⟩
  | error e => exact ⟨rfl, rfl⟩

namespace Prog

/-! ## Programs that end without suspending -/

/--
The program ends without suspending, and all operations that it performs are of one kind,
whatever the answers are.
-/
def Performs (P : S.Op → Prop) : Prog S α → Prop
  | .done _ => True
  | .fault _ => True
  | .call op next => P op ∧ ∀ answer, (next answer).Performs P
  | .suspend _ => False

namespace Performs

variable {P Q : S.Op → Prop}

/-- A kind of operations may be widened. -/
theorem mono (hPQ : ∀ op, P op → Q op) {p : Prog S α} (h : p.Performs P) : p.Performs Q := by
  induction p with
  | done a => exact trivial
  | fault e => exact trivial
  | call op next ih => exact ⟨hPQ op h.1, fun answer => ih answer (h.2 answer)⟩
  | suspend rest ih => exact h

theorem ofExcept (attempt : Except Fault α) :
    (Prog.ofExcept attempt : Prog S α).Performs P := by
  cases attempt with
  | ok a => exact trivial
  | error e => exact trivial

/-- Sequences end without suspending if their parts do. -/
theorem bind {p : Prog S α} {f : α → Prog S β} (hp : p.Performs P)
    (hf : ∀ a, (f a).Performs P) : (p.bind f).Performs P := by
  induction p with
  | done a => exact hf a
  | fault e => exact trivial
  | call op next ih => exact ⟨hp.1, fun answer => ih answer (hp.2 answer)⟩
  | suspend rest ih => exact hp.elim

/-- A run shows nothing but operations of the kind. -/
theorem transcript {p : Prog S α} (h : p.Performs P) (host : Host S σ) (s : σ) :
    ∀ event ∈ p.transcript host s, ∃ op answer, event = .call op answer ∧ P op := by
  induction p generalizing s with
  | done a => exact fun _ hmem => nomatch hmem
  | fault e => exact fun _ hmem => nomatch hmem
  | suspend rest ih => exact h.elim
  | call op next ih =>
      intro event hmem
      rcases List.mem_cons.1 hmem with rfl | hrest
      · exact ⟨op, _, rfl, h.1⟩
      · exact ih _ (h.2 _) _ event hrest

/-- A run of a program that ends without suspending is not resumed. -/
theorem resumptions {p : Prog S α} (h : p.Performs P) (host : Host S σ) (s : σ) :
    (p.run host s).resumptions = 0 := by
  rw [resumptions_run, List.countP_eq_zero]
  intro event hmem
  rcases h.transcript host s event hmem with ⟨op, answer, rfl, -⟩
  exact Bool.false_ne_true

end Performs
end Prog

/-! ## Programs that may suspend -/

namespace Prog

/-- All operations that the program performs are of one kind, whatever the answers are. -/
def Admits (P : S.Op → Prop) : Prog S α → Prop
  | .done _ => True
  | .fault _ => True
  | .call op next => P op ∧ ∀ answer, (next answer).Admits P
  | .suspend rest => rest.Admits P

/-- A program that ends without suspending is one that may suspend. -/
theorem Performs.admits {P : S.Op → Prop} {p : Prog S α} (h : p.Performs P) : p.Admits P := by
  induction p with
  | done a => exact trivial
  | fault e => exact trivial
  | call op next ih => exact ⟨h.1, fun answer => ih answer (h.2 answer)⟩
  | suspend rest ih => exact h.elim

namespace Admits

variable {P Q : S.Op → Prop}

/-- A kind of operations may be widened. -/
theorem mono (hPQ : ∀ op, P op → Q op) {p : Prog S α} (h : p.Admits P) : p.Admits Q := by
  induction p with
  | done a => exact trivial
  | fault e => exact trivial
  | call op next ih => exact ⟨hPQ op h.1, fun answer => ih answer (h.2 answer)⟩
  | suspend rest ih => exact ih h

/-- Sequences perform operations of one kind if their parts do. -/
theorem bind {p : Prog S α} {f : α → Prog S β} (hp : p.Admits P) (hf : ∀ a, (f a).Admits P) :
    (p.bind f).Admits P := by
  induction p with
  | done a => exact hf a
  | fault e => exact trivial
  | call op next ih => exact ⟨hp.1, fun answer => ih answer (hp.2 answer)⟩
  | suspend rest ih => exact ih hp

/-- The operations performed in a run are of the kind. -/
theorem of_mem_transcript {p : Prog S α} (h : p.Admits P) {host : Host S σ} {s : σ} {op : S.Op}
    {answer : S.Ans op} (hmem : .call op answer ∈ p.transcript host s) : P op := by
  induction p generalizing s with
  | done a => cases hmem
  | fault e => cases hmem
  | call performed next ih =>
      rcases List.mem_cons.1 hmem with heq | hrest
      · cases heq
        exact h.1
      · exact ih _ (h.2 _) hrest
  | suspend rest ih =>
      rcases List.mem_cons.1 hmem with heq | hrest
      · cases heq
      · exact ih h hrest

/-- Nothing is read off a run if nothing is read off the operations of the kind. -/
theorem filterMap_transcript {p : Prog S α} (h : p.Admits P) {read : Event S → Option β}
    (hcall : ∀ op answer, P op → read (.call op answer) = none) (hresumed : read .resumed = none)
    (host : Host S σ) (s : σ) : (p.transcript host s).filterMap read = [] := by
  refine List.filterMap_eq_nil_iff.2 fun event hmem => ?_
  cases event with
  | call op answer => exact hcall op answer (h.of_mem_transcript hmem)
  | resumed => exact hresumed

/-- Handlers perform nothing but their own operations. -/
theorem embed_effects {P : (Exchange E).Op → Prop} (hP : ∀ op, P (.effect op)) (p : Prog E α) :
    (p.embed (Embedding.effects E)).Admits P := by
  induction p with
  | done a => exact trivial
  | fault e => exact trivial
  | call op next ih => exact ⟨hP op, ih⟩
  | suspend rest ih => exact ih

end Admits
end Prog

/-- An operation that neither hands over a message nor shows a response to the observer. -/
def Exchange.IsQuiet : (Exchange E).Op → Prop
  | .send _ => False
  | .observe _ => False
  | _ => True

/-- An event in which nothing is handed over, shown or resumed. -/
def Event.IsQuiet : Event (Exchange E) → Prop
  | .call op _ => Exchange.IsQuiet op
  | .resumed => False

/-- Gathering the arguments of a call does nothing but read the body. -/
theorem Invoker.performs_arguments_of {P : (Exchange E).Op → Prop} (hbody : P .receiveBody)
    (inv : Invoker E) (sc : Scope) : (inv.arguments sc).Performs P := by
  unfold Invoker.arguments
  dsimp only
  split
  · exact trivial
  · split
    · exact Prog.Performs.bind ⟨hbody, fun _ => Prog.Performs.ofExcept _⟩ fun _ => trivial
    · exact trivial

/-- Gathering the arguments of a call is quiet. -/
theorem Invoker.performs_arguments (inv : Invoker E) (sc : Scope) :
    (inv.arguments sc).Performs Exchange.IsQuiet :=
  performs_arguments_of trivial inv sc

/-! ## Sending -/

/-- An operation by which a response is sent: a message is handed over or a file is read. -/
def Exchange.IsSending : (Exchange E).Op → Prop
  | .send _ => True
  | .readFile _ => True
  | _ => False

namespace Prog.Performs

theorem send (message : Message) :
    (Exchange.send message : Prog (Exchange E) Unit).Performs Exchange.IsSending :=
  ⟨trivial, ofExcept⟩

theorem sendAll (messages : List Message) :
    (Exchange.sendAll messages : Prog (Exchange E) Unit).Performs Exchange.IsSending := by
  induction messages with
  | nil => exact trivial
  | cons message rest ih => exact bind (send message) fun _ => ih

theorem sendChunks (chunks : List (Except Fault Bytes)) :
    (Native.sendChunks chunks : Prog (Exchange E) Unit).Performs Exchange.IsSending := by
  induction chunks with
  | nil => exact send _
  | cons chunk rest ih =>
      cases chunk with
      | error e => exact trivial
      | ok bytes => exact bind (send _) fun _ => ih

/-- Sending a response does nothing but hand over messages and read its file. -/
theorem sendNative (res : Native) :
    (res.send : Prog (Exchange E) Unit).Performs Exchange.IsSending := by
  cases res with
  | plain head content => exact sendAll _
  | json head content => exact sendAll _
  | stream head chunks => exact bind (send _) fun _ => sendChunks chunks
  | file head path =>
      refine ⟨trivial, fun (content : Option Bytes) => ?_⟩
      cases content with
      | none => exact trivial
      | some bytes => exact sendAll _

section Answers

variable {P : (Exchange E).Op → Prop} (hlog : ∀ entry, P (.log entry))
  (hsend : ∀ op, Exchange.IsSending op → P op)
include hlog

theorem logAll (entries : List LogEntry) :
    (Exchange.logAll entries : Prog (Exchange E) Unit).Performs P := by
  induction entries with
  | nil => exact trivial
  | cons entry rest ih => exact ⟨hlog entry, fun _ => ih⟩

include hsend

/-- A handler result is noted, shown to an observer if there is one, and sent. -/
theorem respond {observed : Bool} (hobserve : observed = true → ∀ c, P (.observe c))
    (mediaType : Option Bytes) (result : HandlerResult) :
    (Dispatcher.respond observed mediaType result : Prog (Exchange E) Unit).Performs P := by
  refine bind (logAll hlog _) fun _ => ?_
  split
  · exact trivial
  · rename_i res _
    have hres : (res.send : Prog (Exchange E) Unit).Performs P := (sendNative res).mono hsend
    split
    · rename_i hobserved
      exact bind ⟨hobserve hobserved _, ofExcept⟩ fun _ => hres
    · exact hres

/-- A fault is logged and answered with a response, if it is answered. -/
theorem answer (e : Fault) : (Rendering.answer e : Prog (Exchange E) Unit).Performs P := by
  unfold Rendering.answer
  split
  · exact ⟨hlog _, fun _ => (sendNative _).mono hsend⟩
  · exact trivial

end Answers
end Prog.Performs

/-! ## What the gateway does without suspending -/

/-- The program ends without suspending. -/
abbrev Prog.AtOnce (p : Prog S α) : Prop :=
  p.Performs fun _ => True

namespace Prog.AtOnce

/-- Handlers that cannot suspend do not suspend in an exchange. -/
theorem embed_effects (p : Immediate E α) : AtOnce (p.toProg.embed (Embedding.effects E)) := by
  induction p with
  | done a => exact trivial
  | fault e => exact trivial
  | call op next ih => exact ⟨trivial, ih⟩

/-- A handler result is responded to without suspending. -/
theorem respond (observed : Bool) (mediaType : Option Bytes) (result : HandlerResult) :
    AtOnce (Dispatcher.respond observed mediaType result : Prog (Exchange E) Unit) :=
  Performs.respond (fun _ => trivial) (fun _ _ => trivial) (fun _ _ => trivial) mediaType result

/-- A fault is answered without suspending. -/
theorem answer (e : Fault) : AtOnce (Rendering.answer e : Prog (Exchange E) Unit) :=
  Performs.answer (fun _ => trivial) (fun _ _ => trivial) e

/-- Error rendering suspends only where the program does. -/
theorem guarded {p : Prog (Exchange E) Unit} (h : AtOnce p) (started : Bool) :
    AtOnce (Rendering.guarded started p) := by
  induction p generalizing started with
  | done a => exact trivial
  | fault e =>
      cases started with
      | true => exact trivial
      | false => exact answer e
  | call op next ih => exact ⟨trivial, fun a => ih a (h.2 a) _⟩
  | suspend rest ih => exact h.elim

/-- An invoker with a handler that cannot suspend does not suspend. -/
theorem invoke {inv : Invoker E} {run : Arguments → Immediate E HandlerResult}
    (hsync : inv.handler = .sync run) (sc : Scope) : AtOnce (inv.invoke sc) := by
  refine Performs.bind ((inv.performs_arguments sc).mono fun _ _ => trivial) fun args => ?_
  rw [hsync]
  exact embed_effects (run args)

end Prog.AtOnce

/-! ## Postponing -/

/--
In a run the second program does what the first does, after a number of further resumptions at
one point, and until then all is quiet.
-/
structure Prog.Postpones (host : Host (Exchange E) σ) (s : σ) (n : Nat)
    (p p' : Prog (Exchange E) α) : Prop where
  outcome : (p'.run host s).outcome = (p.run host s).outcome
  state : (p'.run host s).state = (p.run host s).state
  split : ∃ first rest, p.transcript host s = first ++ rest ∧
    p'.transcript host s = first ++ List.replicate n .resumed ++ rest ∧
    ∀ event ∈ first, event.IsQuiet

namespace Prog.Postpones

variable {host : Host (Exchange E) σ} {s : σ} {n : Nat} {p p' : Prog (Exchange E) α}

/-- Waiting before a program postpones it. -/
theorem delayed (n : Nat) (p : Prog (Exchange E) α) : Postpones host s n p (.delayed n p) where
  outcome := by rw [run_delayed]
  state := by rw [run_delayed]
  split := ⟨[], p.transcript host s, rfl, transcript_delayed host n p s, nofun⟩

/-- What is postponed after a quiet operation is postponed. -/
theorem call {op : (Exchange E).Op} (hop : Exchange.IsQuiet op)
    {next next' : (Exchange E).Ans op → Prog (Exchange E) α}
    (h : Postpones host (host.answer op s).2 n (next (host.answer op s).1)
      (next' (host.answer op s).1)) :
    Postpones host s n (.call op next) (.call op next') where
  outcome := h.outcome
  state := h.state
  split := by
    rcases h.split with ⟨first, rest, hp, hp', hquiet⟩
    refine ⟨.call op (host.answer op s).1 :: first, rest, ?_, ?_, ?_⟩
    · rw [transcript_call, hp, List.cons_append]
    · rw [transcript_call, hp', List.cons_append, List.cons_append]
    · intro event hmem
      rcases List.mem_cons.1 hmem with rfl | hmem
      · exact hop
      · exact hquiet event hmem

/-- What is postponed after a quiet part is postponed, if that part leaves a value. -/
theorem bind_right {q : Prog (Exchange E) β} (hq : q.Performs Exchange.IsQuiet)
    {f f' : β → Prog (Exchange E) α} (h : ∀ a t, Postpones host t n (f a) (f' a)) :
    Postpones host s ((q.run host s).ifOk n) (q.bind f) (q.bind f') := by
  have hquiet : ∀ event ∈ q.transcript host s, event.IsQuiet := by
    intro event hmem
    rcases hq.transcript host s event hmem with ⟨op, answer, rfl, hop⟩
    exact hop
  unfold Ending.ifOk
  cases hout : (q.run host s).outcome with
  | error e =>
      refine ⟨?_, ?_, q.transcript host s, [], ?_, ?_, hquiet⟩
      · rw [outcome_bind_of_error _ hout, outcome_bind_of_error _ hout]
      · rw [run_bind, run_bind, Ending.andThen, Ending.andThen, hout]
      · rw [transcript_bind, hout]
      · rw [transcript_bind, hout]
        simp only [List.replicate_zero, List.append_nil]
  | ok a =>
      have hrest := h a (q.run host s).state
      rcases hrest.split with ⟨first, rest, hf, hf', hfirst⟩
      refine ⟨?_, ?_, q.transcript host s ++ first, rest, ?_, ?_, ?_⟩
      · rw [outcome_bind_of_ok _ hout, outcome_bind_of_ok _ hout, hrest.outcome]
      · rw [run_bind, run_bind, Ending.andThen, Ending.andThen, hout]
        exact hrest.state
      · rw [transcript_bind_of_ok _ hout, hf, List.append_assoc]
      · rw [transcript_bind_of_ok _ hout, hf']
        simp only [List.append_assoc]
      · intro event hmem
        rcases List.mem_append.1 hmem with hmem | hmem
        · exact hquiet event hmem
        · exact hfirst event hmem

/-- What goes on in the same way from the ends of both runs is postponed. -/
theorem extend (h : Postpones host s n p p') {q q' : Prog (Exchange E) β}
    {tail : List (Event (Exchange E))} (hq : q.transcript host s = p.transcript host s ++ tail)
    (hq' : q'.transcript host s = p'.transcript host s ++ tail)
    (hend : (q'.run host s).outcome = (q.run host s).outcome ∧
      (q'.run host s).state = (q.run host s).state) : Postpones host s n q q' := by
  rcases h.split with ⟨first, rest, hp, hp', hquiet⟩
  refine ⟨hend.1, hend.2, first, rest ++ tail, ?_, ?_, hquiet⟩
  · rw [hq, hp, List.append_assoc]
  · rw [hq', hp', List.append_assoc]

/-- A program that goes on from a postponed part is postponed. -/
theorem bind (h : Postpones host s n p p') (f : α → Prog (Exchange E) β) :
    Postpones host s n (p.bind f) (p'.bind f) := by
  refine h.extend (transcript_bind host p f s) ?_ ?_
  · rw [transcript_bind, h.outcome, h.state]
  · rw [run_bind, run_bind]
    exact Ending.andThen_congr h.outcome h.state _

/-- Resumptions hand over no start. -/
theorem any_handsStart (h : Postpones host s n p p') :
    (p'.transcript host s).any Event.handsStart = (p.transcript host s).any Event.handsStart := by
  have hwait : (List.replicate n (.resumed : Event (Exchange E))).any Event.handsStart = false := by
    rw [List.any_eq_false]
    intro event hmem
    rw [List.eq_of_mem_replicate hmem]
    exact Bool.false_ne_true
  rcases h.split with ⟨first, rest, hp, hp', -⟩
  rw [hp, hp', List.any_append, List.any_append, List.any_append, hwait, Bool.or_false]

/-- Under error rendering a postponed program is postponed, and its fault is answered alike. -/
theorem guarded {p p' : Prog (Exchange E) Unit} (h : Postpones host s n p p') (started : Bool) :
    Postpones host s n (Rendering.guarded started p) (Rendering.guarded started p') := by
  have hrendered : Rendering.isRendered started p' host s =
      Rendering.isRendered started p host s := by
    rw [Rendering.isRendered, Rendering.isRendered, h.any_handsStart]
  refine h.extend (Rendering.transcript_guarded host started p s) ?_ ?_
  · rw [Rendering.transcript_guarded, hrendered, h.outcome, h.state]
  · rw [Rendering.run_guarded, Rendering.run_guarded, hrendered]
    split
    · exact Ending.rescue_congr h.outcome h.state _
    · exact ⟨h.outcome, h.state⟩

/-- The further resumptions are all that a postponed run is resumed more. -/
theorem resumptions (h : Postpones host s n p p') :
    (p'.run host s).resumptions = (p.run host s).resumptions + n := by
  have hwait : (List.replicate n (.resumed : Event (Exchange E))).countP Event.isResumed = n := by
    rw [List.countP_replicate]
    exact if_pos rfl
  rcases h.split with ⟨first, rest, hp, hp', -⟩
  rw [resumptions_run, resumptions_run, hp, hp']
  simp only [List.countP_append, hwait]
  omega

/-- Without its resumptions the transcript of a postponed run is the one of a run without any. -/
theorem filter_transcript (h : Postpones host s n p p') (hp : p.AtOnce) :
    (p'.transcript host s).filter (fun event => !event.isResumed) = p.transcript host s := by
  have hnone : ∀ event ∈ p.transcript host s, (!event.isResumed) = true := by
    intro event hmem
    rcases hp.transcript host s event hmem with ⟨op, answer, rfl, -⟩
    rfl
  have hwait : (List.replicate n (.resumed : Event (Exchange E))).filter
      (fun event => !event.isResumed) = [] := by
    rw [List.filter_replicate]
    exact if_neg Bool.false_ne_true
  rcases h.split with ⟨first, rest, hsplit, hsplit', -⟩
  rw [hsplit', List.filter_append, List.filter_append, hwait, List.append_nil,
    ← List.filter_append, ← hsplit]
  exact List.filter_eq_self.2 hnone

end Prog.Postpones
end ApiGateway
