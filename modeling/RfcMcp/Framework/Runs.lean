import RfcMcp.Framework.Replay
import RfcMcp.Framework.Solo

namespace Framework

open Framework.System

variable {S : Signature} {Y : System S} {t : ℕ} {ε α β : Type} {s s' : Y.Shared} {trace : Trace S}

/-- Thread `t` runs a program from `s` to the end without any interruption, doing what is in the
trace, the first operation first. -/
inductive Runs (Y : System S) (t : ℕ) {α : Type} :
    Y.Shared → Program S α → Trace S → α → Y.Shared → Prop
  | ret (s : Y.Shared) (a : α) : Runs Y t s (.ret a) [] a s
  | call {s s₁ s' : Y.Shared} {o : S.Op} {next : S.Res o → Program S α} {ch : Y.Choice}
      {v : S.Res o} {trace : Trace S} {a : α} (hperform : Y.perform t o ch s = some (v, s₁))
      (h : Runs Y t s₁ (next v) trace a s') : Runs Y t s (.call o next) (⟨o, v⟩ :: trace) a s'

/-- A run is a replay. -/
theorem Runs.replays {p : Program S α} {a : α} (h : Runs Y t s p trace a s') :
    p.Replays trace a := by
  induction h with
  | ret s a => exact .ret a
  | call _ _ ih => exact .call ih

section Inversion

variable {ok : α → Trace S → Y.Shared → Prop}

theorem runs_ret {a b : α} (h : Runs Y t s (.ret a) trace b s') :
    trace = [] ∧ b = a ∧ s' = s := by
  cases h
  exact ⟨rfl, rfl, rfl⟩

theorem runs_bind {p : Program S α} {f : α → Program S β} {b : β}
    (h : Runs Y t s (p.bind f) trace b s') : ∃ first a s₁ second, trace = first ++ second ∧
      Runs Y t s p first a s₁ ∧ Runs Y t s₁ (f a) second b s' := by
  induction p generalizing s trace with
  | ret a => exact ⟨[], a, s, trace, rfl, .ret s a, h⟩
  | call o next ih =>
    cases h with
    | call hperform hrest =>
      obtain ⟨first, a, s₁, second, rfl, hfirst, hsecond⟩ := ih _ hrest
      exact ⟨_ :: first, a, s₁, second, rfl, .call hperform hfirst, hsecond⟩

theorem runs_perform {o : S.Op} {r : Except ε (S.Res o)}
    (h : Runs Y t s (Action.perform o : Action S ε _) trace r s') :
    ∃ v ch, trace = [⟨o, v⟩] ∧ r = .ok v ∧ Y.perform t o ch s = some (v, s') := by
  cases h with
  | call hperform hrest =>
    obtain ⟨rfl, rfl, rfl⟩ := runs_ret hrest
    exact ⟨_, _, rfl, rfl, hperform⟩

theorem runs_next {o : S.Op} {f : S.Res o → Action S ε β} {r : Except ε β}
    (h : Runs Y t s (Action.perform o >>= f : Action S ε β) trace r s') :
    ∃ v ch s₁ rest, trace = ⟨o, v⟩ :: rest ∧ Y.perform t o ch s = some (v, s₁) ∧
      Runs Y t s₁ (f v) rest r s' := by
  cases h with
  | call hperform hrest => exact ⟨_, _, _, _, rfl, hperform, hrest⟩

/-- An action that is followed by another one and returns has gone through both. -/
theorem runs_ok {x : Action S ε α} {f : α → Action S ε β} {b : β}
    (h : Runs Y t s (x >>= f : Action S ε β) trace (.ok b) s') : ∃ first a s₁ second,
      trace = first ++ second ∧ Runs Y t s x first (.ok a) s₁ ∧
        Runs Y t s₁ (f a) second (.ok b) s' := by
  obtain ⟨first, r, s₁, second, htrace, hfirst, hsecond⟩ := runs_bind h
  cases r with
  | ok a => exact ⟨first, a, s₁, second, htrace, hfirst, hsecond⟩
  | error e =>
    obtain ⟨_, hb, _⟩ := runs_ret hsecond
    cases hb

/-- What good operations do not change, a program of good operations does not change. -/
theorem Runs.frame {good : S.Op → Prop} {p : Program S α} {a : α} {R : Y.Shared → Y.Shared → Prop}
    (h : Runs Y t s p trace a s') (hp : p.Only good) (hrefl : ∀ s, R s s)
    (htrans : ∀ {s s₁ s'}, R s s₁ → R s₁ s' → R s s')
    (hstep : ∀ {o ch s v s'}, good o → Y.perform t o ch s = some (v, s') → R s s') : R s s' := by
  induction h with
  | ret s a => exact hrefl s
  | call hperform _ ih => exact htrans (hstep hp.1 hperform) (ih (hp.2 _))

end Inversion

section Outcome

/-- Without any interruption, thread `t` may take a program from `s` to `a` and leave `s'`. -/
def Outcome (Y : System S) (t : ℕ) (s : Y.Shared) (p : Program S α) (a : α) (s' : Y.Shared) :
    Prop :=
  ∃ trace, Runs Y t s p trace a s'

theorem outcome_ret {a b : α} : Outcome Y t s (.ret a) b s' ↔ b = a ∧ s' = s := by
  constructor
  · intro h
    obtain ⟨trace, hrun⟩ := h
    exact (runs_ret hrun).2
  · intro h
    obtain ⟨rfl, rfl⟩ := h
    exact ⟨[], .ret _ _⟩

theorem outcome_call {o : S.Op} {next : S.Res o → Program S α} {a : α} :
    Outcome Y t s (.call o next) a s' ↔
      ∃ ch v s₁, Y.perform t o ch s = some (v, s₁) ∧ Outcome Y t s₁ (next v) a s' := by
  constructor
  · intro h
    obtain ⟨trace, hrun⟩ := h
    cases hrun with
    | call hperform hrest => exact ⟨_, _, _, hperform, _, hrest⟩
  · intro h
    obtain ⟨ch, v, s₁, hperform, trace, hrest⟩ := h
    exact ⟨_, .call hperform hrest⟩

theorem Outcome.bind {p : Program S α} {f : α → Program S β} {a : α} {b : β} {s₁ : Y.Shared}
    (hp : Outcome Y t s p a s₁) (hf : Outcome Y t s₁ (f a) b s') :
    Outcome Y t s (p.bind f) b s' := by
  obtain ⟨trace, hruns⟩ := hp
  induction hruns with
  | ret s a => exact hf
  | call hperform _ ih => exact outcome_call.mpr ⟨_, _, _, hperform, ih hf⟩

end Outcome

section Reaching

/-- Without any interruption, thread `t` may get from `p` in `s` to where `q` is left to do in
`s'`. -/
inductive Reaches (Y : System S) (t : ℕ) {α : Type} :
    Y.Shared → Program S α → Y.Shared → Program S α → Prop
  | here (s : Y.Shared) (p : Program S α) : Reaches Y t s p s p
  | call {s s₁ s' : Y.Shared} {o : S.Op} {next : S.Res o → Program S α} {v : S.Res o}
      {q : Program S α} (ch : Y.Choice) (hperform : Y.perform t o ch s = some (v, s₁))
      (h : Reaches Y t s₁ (next v) s' q) : Reaches Y t s (.call o next) s' q

theorem Runs.reaches {p : Program S α} {a : α} (h : Runs Y t s p trace a s') :
    Reaches Y t s p s' (.ret a) := by
  induction h with
  | ret s a => exact .here s _
  | call hperform _ ih => exact .call _ hperform ih

/-- What comes to its end may be followed by something else. -/
theorem Outcome.reaches_bind {p : Program S α} {f : α → Program S β} {a : α} {s₁ : Y.Shared}
    {q : Program S β} (hp : Outcome Y t s p a s₁) (h : Reaches Y t s₁ (f a) s' q) :
    Reaches Y t s (p.bind f) s' q := by
  obtain ⟨trace, hruns⟩ := hp
  induction hruns with
  | ret s a => exact h
  | call hperform _ ih => exact .call _ hperform (ih h)

theorem Reaches.bind {p q : Program S α} (h : Reaches Y t s p s' q) (f : α → Program S β) :
    Reaches Y t s (p.bind f) s' (q.bind f) := by
  induction h with
  | here s p => exact .here s _
  | call ch hperform _ ih => exact .call ch hperform ih

end Reaching

namespace System

variable {c d : Y.Config} {r : Y.Request} {reply : Y.Reply}

/-- What a thread may get to, it gets to in some run. -/
theorem solo_of_reaches {p q : Program S Y.Reply} (h : Reaches Y t s p s' q)
    (hget : c.threads[t]? = some (r, p)) (hshared : c.shared = s) :
    ∃ d, Solo t c d ∧ d.threads[t]? = some (r, q) ∧ d.shared = s' := by
  induction h generalizing c with
  | here s p => exact ⟨c, .refl, hget, hshared⟩
  | @call s s₁ s' o next v q ch hperform _ ih =>
    subst hshared
    have hlt := (List.getElem?_eq_some_iff.mp hget).1
    have hstep : Performs c t o v ⟨s₁, c.threads.set t (r, next v), .did t o v :: c.history⟩ :=
      .mk hget hperform
    have hnext : (c.threads.set t (r, next v))[t]? = some (r, next v) := List.getElem?_set_self hlt
    obtain ⟨d, hsolo, hleft, hshared⟩ :=
      ih (c := ⟨s₁, c.threads.set t (r, next v), .did t o v :: c.history⟩) hnext rfl
    exact ⟨d, hsolo.head ⟨o, v, hstep⟩, hleft, hshared⟩

theorem solo_of_outcome {p : Program S Y.Reply} {s' : Y.Shared}
    (h : Outcome Y t c.shared p reply s') (hget : c.threads[t]? = some (r, p)) :
    ∃ d, Solo t c d ∧ d.threads[t]? = some (r, .ret reply) ∧ d.shared = s' := by
  obtain ⟨trace, hruns⟩ := h
  exact solo_of_reaches hruns.reaches hget rfl

/-- A request that runs alone from the beginning to the end. -/
theorem Solo.runs (hsolo : Solo t c d) {p : Program S Y.Reply} (hget : c.threads[t]? = some (r, p))
    (hret : d.threads[t]? = some (r, .ret reply)) : ∃ trace,
      traceOf t d.history = trace.reverse ++ traceOf t c.history ∧
        Runs Y t c.shared p trace reply d.shared := by
  induction hsolo using Relation.ReflTransGen.head_induction_on generalizing p with
  | refl =>
    rw [hget] at hret
    cases hret
    exact ⟨[], rfl, .ret _ _⟩
  | head hs _ ih =>
    obtain ⟨o, v, hthread, hperform⟩ := hs
    rw [hget] at hthread
    cases hthread
    have hlt := (List.getElem?_eq_some_iff.mp hget).1
    obtain ⟨trace, htrace, hruns⟩ := ih (List.getElem?_set_self hlt)
    refine ⟨⟨o, v⟩ :: trace, ?_, .call hperform hruns⟩
    rw [htrace, traceOf_did, List.reverse_cons, List.append_assoc]
    rfl

/-- What a request did in a run, the first operation first. -/
def runOf (t : ℕ) (d : Y.Config) : Trace S := (traceOf t d.history).reverse

/-- A request that is over can be replayed, whatever others did meanwhile. -/
theorem Reachable.replays (h : Reachable c) (hret : c.threads[t]? = some (r, .ret reply)) :
    (Y.program r).Replays (runOf t c) reply := by
  have hany : ∀ (_ : S.Op) (_ : Trace S), True → True := fun _ _ h => h
  have hfollows := (Program.only_any (Y.program r)).follows_replays hany []
  obtain ⟨mid, hreplays, htrace⟩ := h.traced hfollows hret
  rw [runOf, htrace, List.append_nil, List.reverse_reverse]
  exact hreplays

theorem Solo.run_of (h : Reachable c) (hsolo : Solo c.threads.length (c.spawn r) d)
    (hret : d.threads[c.threads.length]? = some (r, .ret reply)) :
    Runs Y c.threads.length c.shared (Y.program r) (runOf c.threads.length d) reply d.shared := by
  obtain ⟨trace, htrace, hruns⟩ := hsolo.runs (spawn_new c r) hret
  have hnew : traceOf c.threads.length (c.spawn r).history = [] :=
    h.traced_unborn (Nat.le_refl _)
  rw [hnew, List.append_nil] at htrace
  rw [runOf, htrace, List.reverse_reverse]
  exact hruns

end System

end Framework
