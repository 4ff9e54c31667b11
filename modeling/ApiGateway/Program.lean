import ApiGateway.Fault

/-!
# Programs

A program is a finite-path tree: it ends with a value or a fault, asks its host to
perform an operation and goes on with the answer, or suspends.  Operations come
from a signature that fixes the type of each answer.  A program says nothing about
what an operation does, so every statement about a program holds for every host.

Main definitions:

- `Prog`: programs that may suspend; `Immediate`: programs that cannot.
- `Prog.bind`: sequencing.  `Prog.rescue`: replaces the fault that ends a program.
- `Prog.recover`: the same for faults raised after the first suspension only.
- `Prog.delayed`: a program behind a number of suspensions.
- `Embedding`: the operations of one signature as operations of another.

Main results:

- `Prog.bind_done`, `Prog.bind_assoc`: the laws of sequencing.
-/

namespace ApiGateway

/-- The operations a program may ask for, and the type of each answer. -/
structure Signature where
  Op : Type
  Ans : Op → Type

/-- The signature without operations. -/
def Signature.empty : Signature :=
  ⟨Empty, fun _ => Empty⟩

/-- A computation that may perform operations, fail and suspend. -/
inductive Prog (S : Signature) (α : Type) where
  /-- Ends with a value. -/
  | done (value : α)
  /-- Ends with a fault. -/
  | fault (error : Fault)
  /-- Performs an operation and goes on with its answer. -/
  | call (op : S.Op) (next : S.Ans op → Prog S α)
  /-- Goes on at the next resumption. -/
  | suspend (rest : Prog S α)

/-- A computation that may perform operations and fail but ends without suspending. -/
inductive Immediate (S : Signature) (α : Type) where
  /-- Ends with a value. -/
  | done (value : α)
  /-- Ends with a fault. -/
  | fault (error : Fault)
  /-- Performs an operation and goes on with its answer. -/
  | call (op : S.Op) (next : S.Ans op → Immediate S α)

variable {S T : Signature} {α β γ : Type}

/-! ## Sequencing -/

namespace Prog

/-- Goes on with the value of a program; its operations and suspensions come first. -/
def bind : Prog S α → (α → Prog S β) → Prog S β
  | .done a, f => f a
  | .fault e, _ => .fault e
  | .call op next, f => .call op fun answer => (next answer).bind f
  | .suspend rest, f => .suspend (rest.bind f)

instance : Monad (Prog S) where
  pure := .done
  bind := bind

/-- Performs one operation. -/
def perform (op : S.Op) : Prog S (S.Ans op) :=
  .call op .done

/-- Ends with the outcome of an attempt. -/
def ofExcept : Except Fault α → Prog S α
  | .ok a => .done a
  | .error e => .fault e

/-- Puts a number of suspensions in front of a program. -/
def delayed : Nat → Prog S α → Prog S α
  | 0, p => p
  | n + 1, p => .suspend (delayed n p)

@[simp]
theorem done_bind (a : α) (f : α → Prog S β) : (done a).bind f = f a :=
  rfl

@[simp]
theorem fault_bind (e : Fault) (f : α → Prog S β) : (fault e).bind f = .fault e :=
  rfl

@[simp]
theorem call_bind (op : S.Op) (next : S.Ans op → Prog S α) (f : α → Prog S β) :
    (call op next).bind f = .call op fun answer => (next answer).bind f :=
  rfl

@[simp]
theorem suspend_bind (rest : Prog S α) (f : α → Prog S β) :
    (suspend rest).bind f = .suspend (rest.bind f) :=
  rfl

@[simp]
theorem pure_eq_done (a : α) : (pure a : Prog S α) = .done a :=
  rfl

@[simp]
theorem monad_bind_eq_bind (p : Prog S α) (f : α → Prog S β) : p >>= f = p.bind f :=
  rfl

/-- Going on with the bare value changes nothing. -/
@[simp]
theorem bind_done (p : Prog S α) : p.bind .done = p := by
  induction p with
  | done | fault => rfl
  | call op next ih => exact congrArg (Prog.call op) (funext ih)
  | suspend rest ih => exact congrArg Prog.suspend ih

/-- Sequencing is associative. -/
theorem bind_assoc (p : Prog S α) (f : α → Prog S β) (g : β → Prog S γ) :
    (p.bind f).bind g = p.bind fun a => (f a).bind g := by
  induction p with
  | done | fault => rfl
  | call op next ih => exact congrArg (Prog.call op) (funext ih)
  | suspend rest ih => exact congrArg Prog.suspend ih

@[simp]
theorem bind_delayed (n : Nat) (p : Prog S α) (f : α → Prog S β) :
    (delayed n p).bind f = delayed n (p.bind f) := by
  induction n with
  | zero => rfl
  | succ n ih => exact congrArg Prog.suspend ih

/-! ## Recovery -/

/-- Goes on with a replacement where the program ends with a fault. -/
def rescue (handler : Fault → Prog S α) : Prog S α → Prog S α
  | .done a => .done a
  | .fault e => handler e
  | .call op next => .call op fun answer => (next answer).rescue handler
  | .suspend rest => .suspend (rest.rescue handler)

@[simp]
theorem rescue_done (handler : Fault → Prog S α) (a : α) : (done a).rescue handler = .done a :=
  rfl

@[simp]
theorem rescue_fault (handler : Fault → Prog S α) (e : Fault) :
    (fault e).rescue handler = handler e :=
  rfl

@[simp]
theorem rescue_call (handler : Fault → Prog S α) (op : S.Op) (next : S.Ans op → Prog S α) :
    (call op next).rescue handler = .call op fun answer => (next answer).rescue handler :=
  rfl

@[simp]
theorem rescue_suspend (handler : Fault → Prog S α) (rest : Prog S α) :
    (suspend rest).rescue handler = .suspend (rest.rescue handler) :=
  rfl

/--
Replaces faults raised after the first suspension.  An earlier one stays: there is no value yet
that could be recovered.
-/
def recover (handler : Fault → Prog S α) : Prog S α → Prog S α
  | .done a => .done a
  | .fault e => .fault e
  | .call op next => .call op fun answer => (next answer).recover handler
  | .suspend rest => .suspend (rest.rescue handler)

end Prog

namespace Immediate

/-- Goes on with the value of a program. -/
def bind : Immediate S α → (α → Immediate S β) → Immediate S β
  | .done a, f => f a
  | .fault e, _ => .fault e
  | .call op next, f => .call op fun answer => (next answer).bind f

instance : Monad (Immediate S) where
  pure := .done
  bind := bind

/-- Performs one operation. -/
def perform (op : S.Op) : Immediate S (S.Ans op) :=
  .call op .done

/-- An immediate computation as a program that happens not to suspend. -/
def toProg : Immediate S α → Prog S α
  | .done a => .done a
  | .fault e => .fault e
  | .call op next => .call op fun answer => (next answer).toProg

@[simp]
theorem toProg_bind (p : Immediate S α) (f : α → Immediate S β) :
    (p.bind f).toProg = p.toProg.bind fun a => (f a).toProg := by
  induction p with
  | done | fault => rfl
  | call op next ih => exact congrArg (Prog.call op) (funext ih)

end Immediate

/-! ## Changing the signature -/

/-- The operations of `S` as operations of `T`, with their answers read back. -/
structure Embedding (S T : Signature) where
  op : S.Op → T.Op
  answer : (o : S.Op) → T.Ans (op o) → S.Ans o

/-- Performs the operations of a program as those of another signature. -/
def Prog.embed (e : Embedding S T) : Prog S α → Prog T α
  | .done a => .done a
  | .fault f => .fault f
  | .call o next => .call (e.op o) fun answer => (next (e.answer o answer)).embed e
  | .suspend rest => .suspend (rest.embed e)

@[simp]
theorem Prog.embed_bind (e : Embedding S T) (p : Prog S α) (f : α → Prog S β) :
    (p.bind f).embed e = (p.embed e).bind fun a => (f a).embed e := by
  induction p with
  | done | fault => rfl
  | call o next ih => exact congrArg (Prog.call (e.op o)) (funext fun answer => ih _)
  | suspend rest ih => exact congrArg Prog.suspend ih

@[simp]
theorem Prog.embed_delayed (e : Embedding S T) (n : Nat) (p : Prog S α) :
    (Prog.delayed n p).embed e = Prog.delayed n (p.embed e) := by
  induction n with
  | zero => rfl
  | succ n ih => exact congrArg Prog.suspend ih

end ApiGateway
