import Mathlib.Logic.Basic

namespace Framework

/-- The operations a program may ask for, each with the type of its answer. -/
structure Signature where
  Op : Type
  Res : Op → Type

/-- A program returns, or performs one operation and goes on with the answer. -/
inductive Program (S : Signature) (α : Type) : Type where
  | ret (a : α)
  | call (o : S.Op) (next : S.Res o → Program S α)

namespace Program

variable {S : Signature} {α β γ : Type}

def bind : Program S α → (α → Program S β) → Program S β
  | .ret a, f => f a
  | .call o next, f => .call o fun r => (next r).bind f

@[simp] theorem ret_bind (a : α) (f : α → Program S β) : (ret a : Program S α).bind f = f a := rfl

@[simp] theorem call_bind (o : S.Op) (next : S.Res o → Program S α) (f : α → Program S β) :
    (call o next).bind f = call o fun r => (next r).bind f := rfl

theorem bind_ret (p : Program S α) : p.bind .ret = p := by
  induction p with
  | ret a => rfl
  | call o next ih => exact congrArg (call o) (funext ih)

theorem bind_assoc (p : Program S α) (f : α → Program S β) (g : β → Program S γ) :
    (p.bind f).bind g = p.bind fun a => (f a).bind g := by
  induction p with
  | ret a => rfl
  | call o next ih => exact congrArg (call o) (funext ih)

end Program

/-- A program that ends normally or raises an exception of type `ε`. -/
def Action (S : Signature) (ε α : Type) : Type := Program S (Except ε α)

namespace Action

variable {S : Signature} {ε α β : Type}

def raise (e : ε) : Action S ε α := Program.ret (.error e)

def ofExcept (r : Except ε α) : Action S ε α := Program.ret r

def perform (o : S.Op) : Action S ε (S.Res o) := Program.call o fun r => .ret (.ok r)

def bind (x : Action S ε α) (f : α → Action S ε β) : Action S ε β :=
  Program.bind x fun
    | .ok a => f a
    | .error e => .ret (.error e)

instance : Monad (Action S ε) where
  pure a := Program.ret (.ok a)
  bind := Action.bind

/-- `try: x` with `except: handler`; the handler may raise again. -/
def tryExcept (x : Action S ε α) (handler : ε → Action S ε α) : Action S ε α :=
  Program.bind x fun
    | .ok a => .ret (.ok a)
    | .error e => handler e

/-- `try: x` with `finally: last`; an exception of `last` replaces the outcome of `x`. -/
def tryFinally (x : Action S ε α) (last : Action S ε Unit) : Action S ε α :=
  Program.bind x fun r =>
    Program.bind last fun
      | .ok _ => .ret r
      | .error e => .ret (.error e)

/-- `for a in items: body(a)`; an exception ends the loop. -/
def forEach : List α → (α → Action S ε Unit) → Action S ε Unit
  | [], _ => pure ()
  | a :: rest, body => body a >>= fun _ => forEach rest body

/-- A loop that extends a list by what `body` returns for each item. -/
def collect : List α → (α → Action S ε (List β)) → Action S ε (List β)
  | [], _ => pure []
  | a :: rest, body => do
    let found ← body a
    let more ← collect rest body
    pure (found ++ more)

end Action

end Framework
