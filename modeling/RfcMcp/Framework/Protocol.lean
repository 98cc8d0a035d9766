import RfcMcp.Framework.Program

namespace Framework

/-- A discipline on the operations of one thread. `Local` sums up what the thread has done so far
and `allows` says what it may do next. -/
structure Protocol (S : Signature) where
  Local : Type
  start : Local
  allows : S.Op → Local → Prop
  after : (o : S.Op) → S.Res o → Local → Local

namespace Protocol

variable {S : Signature} {ε α β : Type} (P : Protocol S)

/-- Whatever the answers are, `p` performs only allowed operations and returns with `Q`. -/
def Follows (Q : α → P.Local → Prop) : Program S α → P.Local → Prop
  | .ret a, g => Q a g
  | .call o next, g => P.allows o g ∧ ∀ r, Follows Q (next r) (P.after o r g)

/-- `x` keeps to the protocol, returns only with `ok` and raises only with `err`. -/
def Meets (x : Action S ε α) (ok : α → P.Local → Prop) (err : ε → P.Local → Prop)
    (g : P.Local) : Prop :=
  P.Follows (fun r g' => match r with | .ok a => ok a g' | .error e => err e g') x g

variable {P}

theorem follows_bind {Q : β → P.Local → Prop} (p : Program S α) (f : α → Program S β)
    (g : P.Local) :
    P.Follows Q (p.bind f) g ↔ P.Follows (fun a g' => P.Follows Q (f a) g') p g := by
  induction p generalizing g with
  | ret a => rfl
  | call o next ih =>
    simp only [Program.call_bind, Follows]
    exact and_congr_right fun _ => forall_congr' fun r => ih r _

theorem Follows.mono {Q R : α → P.Local → Prop} {p : Program S α} {g : P.Local}
    (hp : P.Follows Q p g) (h : ∀ a g, Q a g → R a g) : P.Follows R p g := by
  induction p generalizing g with
  | ret a => exact h a g hp
  | call o next ih => exact ⟨hp.1, fun r => ih r (hp.2 r)⟩

section Rules

variable {ok : α → P.Local → Prop} {okb : β → P.Local → Prop} {err : ε → P.Local → Prop}
  {g : P.Local}

theorem Meets.mono {ok' : α → P.Local → Prop} {err' : ε → P.Local → Prop} {x : Action S ε α}
    (h : P.Meets x ok err g) (hok : ∀ a g, ok a g → ok' a g)
    (herr : ∀ e g, err e g → err' e g) : P.Meets x ok' err' g := by
  refine Follows.mono h ?_
  rintro (e | a) g' hr
  · exact herr e g' hr
  · exact hok a g' hr

@[simp] theorem meets_pure (a : α) : P.Meets (pure a : Action S ε α) ok err g ↔ ok a g := Iff.rfl

@[simp] theorem meets_raise (e : ε) :
    P.Meets (Action.raise e : Action S ε α) ok err g ↔ err e g := Iff.rfl

@[simp] theorem meets_perform {o : S.Op} {ok : S.Res o → P.Local → Prop} :
    P.Meets (Action.perform o : Action S ε _) ok err g ↔
      P.allows o g ∧ ∀ r, ok r (P.after o r g) := Iff.rfl

@[simp] theorem meets_ofExcept (r : Except ε α) :
    P.Meets (Action.ofExcept r : Action S ε α) ok err g ↔
      (∀ a, r = .ok a → ok a g) ∧ ∀ e, r = .error e → err e g := by
  cases r <;> simp [Meets, Action.ofExcept, Follows]

/-- Sequencing on the outcome of an action; the rules below are its instances. -/
theorem follows_action {Q : β → P.Local → Prop} (x : Action S ε α) (f : Except ε α → Program S β) :
    P.Follows Q (Program.bind x f) g ↔
      P.Meets x (fun a g' => P.Follows Q (f (.ok a)) g')
        (fun e g' => P.Follows Q (f (.error e)) g') g := by
  refine (follows_bind x f g).trans ⟨fun h => h.mono ?_, fun h => Follows.mono h ?_⟩ <;>
    rintro (e | a) g' h <;> exact h

@[simp] theorem meets_bind (x : Action S ε α) (f : α → Action S ε β) :
    P.Meets (x >>= f) okb err g ↔ P.Meets x (fun a g' => P.Meets (f a) okb err g') err g :=
  follows_action x _

@[simp] theorem meets_tryExcept (x : Action S ε α) (handler : ε → Action S ε α) :
    P.Meets (x.tryExcept handler) ok err g ↔
      P.Meets x ok (fun e g' => P.Meets (handler e) ok err g') g :=
  follows_action x _

@[simp] theorem meets_tryFinally (x : Action S ε α) (last : Action S ε Unit) :
    P.Meets (x.tryFinally last) ok err g ↔
      P.Meets x (fun a g' => P.Meets last (fun _ g'' => ok a g'') err g')
        (fun e g' => P.Meets last (fun _ g'' => err e g'') err g') g := by
  refine (follows_action x _).trans ⟨fun h => h.mono (fun a g' ha => ?_) fun e g' he => ?_,
    fun h => h.mono (fun a g' ha => ?_) fun e g' he => ?_⟩
  · exact (follows_action last _).mp ha
  · exact (follows_action last _).mp he
  · exact (follows_action last _).mpr ha
  · exact (follows_action last _).mpr he

/-- The loop rule: `inv` is indexed by the items still to come. -/
theorem meets_forEach (inv : List α → P.Local → Prop) (items : List α)
    (body : α → Action S ε Unit) (hg : inv items g)
    (hstep : ∀ a rest g, inv (a :: rest) g → P.Meets (body a) (fun _ g' => inv rest g') err g) :
    P.Meets (Action.forEach items body) (fun _ g' => inv [] g') err g := by
  induction items generalizing g with
  | nil => exact hg
  | cons a rest ih =>
    simp only [Action.forEach, meets_bind]
    exact (hstep a rest g hg).mono (fun _ g' h => ih h) fun _ _ h => h

/-- The loop rule for an invariant that does not depend on the items. -/
theorem meets_forEach_const (inv : P.Local → Prop) (items : List α) (body : α → Action S ε Unit)
    (hg : inv g) (hstep : ∀ a g, inv g → P.Meets (body a) (fun _ g' => inv g') err g) :
    P.Meets (Action.forEach items body) (fun _ g' => inv g') err g :=
  meets_forEach (fun _ => inv) items body hg fun a _ g hg => hstep a g hg

end Rules

section Keeps

variable (P)

/-- From `I` to `I`, however it ends. -/
structure Keeps (I : P.Local → Prop) (x : Action S ε α) : Prop where
  meets : ∀ g, I g → P.Meets x (fun _ => I) (fun _ => I) g

variable {P} {I : P.Local → Prop}

theorem keeps_pure (a : α) : P.Keeps I (pure a : Action S ε α) := ⟨fun _ hg => hg⟩

theorem keeps_raise (e : ε) : P.Keeps I (Action.raise e : Action S ε α) := ⟨fun _ hg => hg⟩

theorem keeps_ofExcept (r : Except ε α) : P.Keeps I (Action.ofExcept r) := by
  constructor
  intro g hg
  rw [meets_ofExcept]
  exact ⟨fun _ _ => hg, fun _ _ => hg⟩

theorem keeps_perform {o : S.Op} (h : ∀ g, I g → P.allows o g ∧ ∀ r, I (P.after o r g)) :
    P.Keeps I (Action.perform o : Action S ε _) := ⟨h⟩

theorem keeps_bind {x : Action S ε α} {f : α → Action S ε β} (hx : P.Keeps I x)
    (hf : ∀ a, P.Keeps I (f a)) : P.Keeps I (x >>= f) := by
  constructor
  intro g hg
  rw [meets_bind]
  exact (hx.meets g hg).mono (fun a g' hg' => (hf a).meets g' hg') fun _ _ hg' => hg'

theorem keeps_ofExcept_bind {r : Except ε α} {f : α → Action S ε β}
    (hf : ∀ a, r = .ok a → P.Keeps I (f a)) : P.Keeps I (Action.ofExcept r >>= f) := by
  cases r with
  | ok a => exact hf a rfl
  | error e => exact keeps_raise e

theorem keeps_tryExcept {x : Action S ε α} {handler : ε → Action S ε α} (hx : P.Keeps I x)
    (hhandler : ∀ e, P.Keeps I (handler e)) : P.Keeps I (x.tryExcept handler) := by
  constructor
  intro g hg
  rw [meets_tryExcept]
  exact (hx.meets g hg).mono (fun _ _ hg' => hg') fun e g' hg' => (hhandler e).meets g' hg'

theorem keeps_tryFinally {x : Action S ε α} {last : Action S ε Unit} (hx : P.Keeps I x)
    (hlast : P.Keeps I last) : P.Keeps I (x.tryFinally last) := by
  constructor
  intro g hg
  rw [meets_tryFinally]
  exact (hx.meets g hg).mono (fun _ g' hg' => hlast.meets g' hg')
    fun _ g' hg' => hlast.meets g' hg'

theorem keeps_ite {c : Prop} [Decidable c] {x y : Action S ε α} (hx : P.Keeps I x)
    (hy : P.Keeps I y) : P.Keeps I (if c then x else y) := by
  by_cases hc : c
  · rw [if_pos hc]
    exact hx
  · rw [if_neg hc]
    exact hy

theorem keeps_forEach {items : List α} {body : α → Action S ε Unit}
    (hbody : ∀ a ∈ items, P.Keeps I (body a)) : P.Keeps I (Action.forEach items body) := by
  induction items with
  | nil => exact keeps_pure ()
  | cons a rest ih =>
    have hrest := ih fun b hb => hbody b (List.mem_cons_of_mem a hb)
    exact keeps_bind (hbody a List.mem_cons_self) fun _ => hrest

theorem keeps_collect {items : List α} {body : α → Action S ε (List β)}
    (hbody : ∀ a, P.Keeps I (body a)) : P.Keeps I (Action.collect items body) := by
  induction items with
  | nil => exact keeps_pure []
  | cons a rest ih =>
    exact keeps_bind (hbody a) fun _ => keeps_bind ih fun _ => keeps_pure _

end Keeps

end Protocol

end Framework
