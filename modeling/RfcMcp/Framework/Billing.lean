import RfcMcp.Framework.Trace

namespace Framework

/-- What the operations of a thread put it in debt with, and what it pays by others. `State` sums up
what a debt depends on. -/
structure Billing (S : Signature) (ρ : Type) where
  State : Type
  start : State
  next : State → (o : S.Op) → S.Res o → State
  due : State → (o : S.Op) → S.Res o → List ρ
  paid : S.Op → List ρ

namespace Billing

variable {S : Signature} {ρ ε α β : Type} (B : Billing S ρ)

def stateOf : Trace S → B.State
  | [] => B.start
  | ⟨o, v⟩ :: rest => B.next (stateOf rest) o v

/-- All that has fallen due in the course of a trace, the oldest first. -/
def dues : Trace S → List ρ
  | [] => []
  | ⟨o, v⟩ :: rest => dues rest ++ B.due (B.stateOf rest) o v

/-- All that has been paid in the course of a trace, the oldest first. -/
def payments : Trace S → List ρ
  | [] => []
  | ⟨o, _⟩ :: rest => payments rest ++ B.paid o

/-- Debts are paid in their order, and nothing else is paid. -/
@[reducible] def protocol : Protocol S where
  Local := B.State × List ρ
  start := (B.start, [])
  allows := fun o g => B.paid o <+: g.2
  after := fun o v g => (B.next g.1 o v, g.2.drop (B.paid o).length ++ B.due g.1 o v)

/-- There is no debt. -/
abbrev Clear (g : B.State × List ρ) : Prop := g.2 = []

/-- The operation has nothing to do with debts. -/
def Free (o : S.Op) : Prop := B.paid o = [] ∧ ∀ state v, B.due state o v = []

section Rules

open Protocol

variable {B} {state : B.State} {debt : List ρ}

/-- An operation that pays nothing. -/
theorem unpaid_step {o : S.Op} {ok : S.Res o → B.State × List ρ → Prop}
    {err : ε → B.State × List ρ → Prop} (ho : B.paid o = [])
    (hok : ∀ v, ok v (B.next state o v, debt ++ B.due state o v)) :
    B.protocol.Meets (Action.perform o : Action S ε _) ok err (state, debt) := by
  have hallowed : B.paid o <+: debt := by
    rw [ho]
    exact List.nil_prefix
  refine ⟨hallowed, fun v => ?_⟩
  have hafter := hok v
  simp only [protocol, ho, List.length_nil, List.drop_zero]
  exact hafter

theorem free_step {o : S.Op} {ok : S.Res o → B.State × List ρ → Prop}
    {err : ε → B.State × List ρ → Prop} (ho : B.Free o)
    (hok : ∀ v, ok v (B.next state o v, debt)) :
    B.protocol.Meets (Action.perform o : Action S ε _) ok err (state, debt) := by
  refine unpaid_step ho.1 fun v => ?_
  rw [ho.2, List.append_nil]
  exact hok v

/-- The oldest debt is paid. -/
theorem pay_step {o : S.Op} {r : ρ} {ok : S.Res o → B.State × List ρ → Prop}
    {err : ε → B.State × List ρ → Prop} (hpaid : B.paid o = [r])
    (hdue : ∀ v, B.due state o v = []) (hok : ∀ v, ok v (B.next state o v, debt)) :
    B.protocol.Meets (Action.perform o : Action S ε _) ok err (state, r :: debt) := by
  have hallowed : B.paid o <+: r :: debt := by
    rw [hpaid]
    exact ⟨debt, rfl⟩
  refine ⟨hallowed, fun v => ?_⟩
  have hafter := hok v
  simp only [protocol, hpaid, hdue, List.length_singleton, List.drop_one, List.tail_cons,
    List.append_nil]
  exact hafter

theorem keeps_free {o : S.Op} (ho : B.Free o) :
    B.protocol.Keeps B.Clear (Action.perform o : Action S ε _) := by
  constructor
  rintro ⟨state, debt⟩ hclear
  exact free_step ho fun _ => hclear

end Rules

section Runs

open Framework.System

variable {B} {Y : System S} {post : Y.Request → Y.Reply → B.State × List ρ → Prop}

/-- What a thread has paid, and what it still owes, is what has fallen due. -/
theorem balanced (hprog : ∀ r, B.protocol.Follows (post r) (Y.program r) (B.start, []))
    {c : Y.Config} (h : Reachable c) (t : ℕ) :
    localOf B.protocol t c.history =
        (B.stateOf (traceOf t c.history), (localOf B.protocol t c.history).2) ∧
      B.dues (traceOf t c.history) =
        B.payments (traceOf t c.history) ++ (localOf B.protocol t c.history).2 := by
  refine Reachable.induction (I := fun c =>
    localOf B.protocol t c.history =
        (B.stateOf (traceOf t c.history), (localOf B.protocol t c.history).2) ∧
      B.dues (traceOf t c.history) =
        B.payments (traceOf t c.history) ++ (localOf B.protocol t c.history).2)
    ⟨rfl, rfl⟩ (fun _ _ _ ih => ih) ?_ h
  rintro c u o v c' hc ⟨ihstate, ihdebt⟩ hp
  have hallowed := hp.allowed hprog hc
  obtain ⟨hthread, hperform⟩ := hp
  by_cases hu : u = t
  · subst hu
    rw [localOf_did_self, traceOf_did]
    generalize localOf B.protocol u c.history = g at hallowed ihstate ihdebt ⊢
    obtain ⟨state, debt⟩ := g
    obtain ⟨rest, rfl⟩ : B.paid o <+: debt := hallowed
    simp only [Prod.mk.injEq, and_true] at ihstate
    subst ihstate
    simp only [dues, payments, stateOf, ihdebt, protocol, List.drop_left, List.append_assoc,
      and_self]
  · rw [localOf_did_ne _ hu, traceOf, if_neg hu]
    exact ⟨ihstate, ihdebt⟩

/-- A thread has paid nothing but what had fallen due, in this order; when it returns, it has paid
everything. -/
theorem settled (hprog : ∀ r, B.protocol.Follows (fun _ => B.Clear) (Y.program r) (B.start, []))
    {c : Y.Config} (h : Reachable c) (t : ℕ) :
    B.payments (traceOf t c.history) <+: B.dues (traceOf t c.history) ∧
      ∀ r reply, c.threads[t]? = some (r, .ret reply) →
        B.payments (traceOf t c.history) = B.dues (traceOf t c.history) := by
  have hbalanced := (balanced hprog h t).2
  refine ⟨⟨_, hbalanced.symm⟩, fun r reply hret => ?_⟩
  have hclear : (localOf B.protocol t c.history).2 = [] :=
    h.disciplined (P := fun _ => B.protocol) hprog t r _ hret
  rw [hbalanced, hclear, List.append_nil]

end Runs

end Billing

end Framework
