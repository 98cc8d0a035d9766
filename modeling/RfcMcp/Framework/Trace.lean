import RfcMcp.Framework.System

namespace Framework

variable {S : Signature} {ε α β : Type}

section Footprint

/-- Every operation that the program can come to is `good`. -/
def Program.Only (good : S.Op → Prop) : Program S α → Prop
  | .ret _ => True
  | .call o next => good o ∧ ∀ v, Only good (next v)

open Program

variable {good good' : S.Op → Prop}

theorem Program.only_any (p : Program S α) : p.Only fun _ => True := by
  induction p with
  | ret a => trivial
  | call o next ih => exact ⟨trivial, ih⟩

theorem only_mono {p : Program S α} (hp : p.Only good) (h : ∀ o, good o → good' o) :
    p.Only good' := by
  induction p with
  | ret a => trivial
  | call o next ih => exact ⟨h o hp.1, fun v => ih v (hp.2 v)⟩

theorem only_program_bind {p : Program S α} {f : α → Program S β} (hp : p.Only good)
    (hf : ∀ a, (f a).Only good) : (p.bind f).Only good := by
  induction p with
  | ret a => exact hf a
  | call o next ih => exact ⟨hp.1, fun v => ih v (hp.2 v)⟩

theorem only_pure (a : α) : Only good (pure a : Action S ε α) := trivial

theorem only_raise (e : ε) : Only good (Action.raise e : Action S ε α) := trivial

theorem only_ofExcept (r : Except ε α) : Only good (Action.ofExcept r : Action S ε α) := trivial

theorem only_perform {o : S.Op} (ho : good o) : Only good (Action.perform o : Action S ε _) :=
  ⟨ho, fun _ => trivial⟩

theorem only_bind {x : Action S ε α} {f : α → Action S ε β} (hx : Only good x)
    (hf : ∀ a, Only good (f a)) : Only good (x >>= f : Action S ε β) := by
  refine only_program_bind hx fun r => ?_
  cases r with
  | ok a => exact hf a
  | error e => trivial

theorem only_tryExcept {x : Action S ε α} {handler : ε → Action S ε α} (hx : Only good x)
    (hhandler : ∀ e, Only good (handler e)) : Only good (x.tryExcept handler) := by
  refine only_program_bind hx fun r => ?_
  cases r with
  | ok a => trivial
  | error e => exact hhandler e

theorem only_tryFinally {x : Action S ε α} {last : Action S ε Unit} (hx : Only good x)
    (hlast : Only good last) : Only good (x.tryFinally last) := by
  refine only_program_bind hx fun r => only_program_bind hlast fun r' => ?_
  cases r' <;> trivial

theorem only_forEach {items : List α} {body : α → Action S ε Unit}
    (hbody : ∀ a, Only good (body a)) : Only good (Action.forEach items body) := by
  induction items with
  | nil => trivial
  | cons a rest ih => exact only_bind (hbody a) fun _ => ih

theorem only_collect {items : List α} {body : α → Action S ε (List β)}
    (hbody : ∀ a, Only good (body a)) : Only good (Action.collect items body) := by
  induction items with
  | nil => trivial
  | cons a rest ih => exact only_bind (hbody a) fun _ => only_bind ih fun _ => only_pure _

/-- The frame rule: what good operations preserve holds throughout. -/
theorem Program.Only.follows {P : Protocol S} {I : P.Local → Prop} {p : Program S α}
    (hp : p.Only good)
    (hstep : ∀ o g, good o → I g → P.allows o g ∧ ∀ v, I (P.after o v g)) {g : P.Local} (hg : I g) :
    P.Follows (fun _ => I) p g := by
  induction p generalizing g with
  | ret a => exact hg
  | call o next ih =>
    obtain ⟨hallowed, hafter⟩ := hstep o g hp.1 hg
    exact ⟨hallowed, fun v => ih v (hp.2 v) (hafter v)⟩

theorem Program.Only.meets {P : Protocol S} {I : P.Local → Prop} {x : Action S ε α}
    (hx : Program.Only good x)
    (hstep : ∀ o g, good o → I g → P.allows o g ∧ ∀ v, I (P.after o v g)) {g : P.Local} (hg : I g) :
    P.Meets x (fun _ => I) (fun _ => I) g := by
  refine Protocol.Follows.mono (hx.follows hstep hg) fun r g' hg' => ?_
  cases r <;> exact hg'

end Footprint

section Trace

/-- What a thread has done so far, the newest first. -/
abbrev Trace (S : Signature) : Type := List (Σ o : S.Op, S.Res o)

/-- The protocol that forgets nothing. -/
@[reducible] def tracing (guard : S.Op → Trace S → Prop) : Protocol S where
  Local := Trace S
  start := []
  allows := guard
  after := fun o v trace => ⟨o, v⟩ :: trace

section Rules

open Protocol

variable {guard guard' : S.Op → Trace S → Prop} {trace : Trace S}

theorem traced_op {o : S.Op} {ok : S.Res o → Trace S → Prop} {err : ε → Trace S → Prop}
    (ho : guard o trace) (hok : ∀ v, ok v (⟨o, v⟩ :: trace)) :
    (tracing guard).Meets (Action.perform o) ok err trace :=
  ⟨ho, hok⟩

/-- What stays true whatever is done, and makes everything allowed, is kept by every program. -/
theorem keeps_tracing {J : Trace S → Prop} (hguard : ∀ o trace, J trace → guard o trace)
    (hcons : ∀ did trace, J trace → J (did :: trace)) (x : Action S ε α) :
    (tracing guard).Keeps J x := by
  constructor
  intro trace htrace
  unfold Meets
  induction x generalizing trace with
  | ret r => cases r <;> exact htrace
  | call o next ih => exact ⟨hguard o trace htrace, fun v => ih v _ (hcons ⟨o, v⟩ trace htrace)⟩

/-- What two tracing protocols show of a program holds together. -/
theorem meets_both {x : Action S ε α} {ok ok' : α → Trace S → Prop} {err err' : ε → Trace S → Prop}
    (h : (tracing guard).Meets x ok err trace) (h' : (tracing guard').Meets x ok' err' trace) :
    (tracing guard').Meets x (fun a trace => ok a trace ∧ ok' a trace)
      (fun e trace => err e trace ∧ err' e trace) trace := by
  unfold Meets at h h' ⊢
  induction x generalizing trace with
  | ret r => cases r <;> exact ⟨h, h'⟩
  | call o next ih => exact ⟨h'.1, fun v => ih v (h.2 v) (h'.2 v)⟩

end Rules

namespace System

variable {Y : System S}

/-- The trace of thread `t`. -/
def traceOf {R : Type} (t : ℕ) : List (Event S R) → Trace S
  | [] => []
  | .start _ _ :: h => traceOf t h
  | .did u o v :: h => if u = t then ⟨o, v⟩ :: traceOf t h else traceOf t h

theorem localOf_tracing (guard : S.Op → Trace S → Prop) (t : ℕ) (h : List (Event S Y.Request)) :
    localOf (tracing guard) t h = traceOf t h := by
  induction h with
  | nil => rfl
  | cons ev h ih =>
    cases ev with
    | start u r => exact ih
    | did u o v => simp only [localOf, traceOf, ih]

theorem traceOf_append {R : Type} (t : ℕ) (h h' : List (Event S R)) :
    traceOf t (h ++ h') = traceOf t h ++ traceOf t h' := by
  induction h with
  | nil => rfl
  | cons ev h ih =>
    cases ev with
    | start u r => exact ih
    | did u o v =>
      simp only [List.cons_append, traceOf, ih]
      split <;> rfl

theorem traceOf_did {R : Type} (t : ℕ) (o : S.Op) (v : S.Res o) (h : List (Event S R)) :
    traceOf t (.did t o v :: h) = ⟨o, v⟩ :: traceOf t h := by
  simp [traceOf]

theorem mem_traceOf {R : Type} {t : ℕ} {o : S.Op} {v : S.Res o} {h : List (Event S R)} :
    ⟨o, v⟩ ∈ traceOf t h ↔ .did t o v ∈ h := by
  induction h with
  | nil => simp [traceOf]
  | cons ev h ih =>
    cases ev with
    | start u r => simpa [traceOf] using ih
    | did u o' v' =>
      by_cases hu : u = t
      · subst hu
        rw [traceOf_did, List.mem_cons, List.mem_cons, ih]
        refine or_congr_left ⟨fun heq => ?_, fun heq => ?_⟩
        · cases heq
          rfl
        · cases heq
          rfl
      · simp only [traceOf, if_neg hu, List.mem_cons, ih]
        refine ⟨.inr, fun hmem => hmem.resolve_left fun heq => ?_⟩
        cases heq
        exact hu rfl

/-- What a trace says is in the history. -/
theorem traceOf_split {R : Type} {t : ℕ} {o : S.Op} {v : S.Res o} {h : List (Event S R)}
    {after before : Trace S} (htrace : traceOf t h = after ++ ⟨o, v⟩ :: before) :
    ∃ later earlier, h = later ++ .did t o v :: earlier ∧ traceOf t later = after ∧
      traceOf t earlier = before := by
  induction h generalizing after with
  | nil => simp [traceOf] at htrace
  | cons ev h ih =>
    have hskip : traceOf t (ev :: h) = traceOf t h → traceOf t [ev] = [] →
        ∃ later earlier, ev :: h = later ++ .did t o v :: earlier ∧ traceOf t later = after ∧
          traceOf t earlier = before := by
      intro hsame hnone
      obtain ⟨later, earlier, rfl, hafter, hbefore⟩ := ih (hsame.symm.trans htrace)
      refine ⟨ev :: later, earlier, rfl, ?_, hbefore⟩
      rw [← List.singleton_append, traceOf_append, hnone, hafter, List.nil_append]
    cases ev with
    | start u r => exact hskip rfl rfl
    | did u o' v' =>
      by_cases hu : u = t
      · subst hu
        rw [traceOf_did] at htrace
        cases after with
        | nil =>
          rw [List.nil_append, List.cons.injEq] at htrace
          obtain ⟨hdid, hbefore⟩ := htrace
          cases hdid
          exact ⟨[], h, rfl, rfl, hbefore⟩
        | cons did after =>
          rw [List.cons_append, List.cons.injEq] at htrace
          obtain ⟨rfl, hrest⟩ := htrace
          obtain ⟨later, earlier, rfl, hafter, hbefore⟩ := ih hrest
          refine ⟨.did u o' v' :: later, earlier, rfl, ?_, hbefore⟩
          rw [traceOf_did, hafter]
      · exact hskip (by simp [traceOf, hu]) (by simp [traceOf, hu])

/-- A program whose operations are all good does nothing else in any run. -/
theorem Reachable.only {good : S.Op → Prop} {c : Y.Config} (h : Reachable c) {t : ℕ}
    {r : Y.Request} {p : Program S Y.Reply} (hget : c.threads[t]? = some (r, p))
    (honly : (Y.program r).Only good) {o : S.Op} {v : S.Res o} (hdid : .did t o v ∈ c.history) :
    good o := by
  obtain ⟨later, earlier, hh⟩ := List.append_of_mem hdid
  have hprog : ∀ r, (tracing fun o _ => (Y.program r).Only good → good o).Follows
      (fun _ _ => True) (Y.program r) [] := by
    intro r
    by_cases hr : (Y.program r).Only good
    · refine hr.follows (fun o trace ho _ => ⟨fun _ => ho, fun _ => trivial⟩) trivial
    · exact (Program.only_any _).follows
        (fun o trace _ _ => ⟨fun h => absurd h hr, fun _ => trivial⟩) trivial
  obtain ⟨r', p', hget', hgood⟩ := h.allowed (P := fun r =>
    tracing fun o _ => (Y.program r).Only good → good o) hprog hh
  rw [hget] at hget'
  cases hget'
  exact hgood honly

end System

end Trace

end Framework
