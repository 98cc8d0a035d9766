import RfcMcp.Framework.Solo

namespace Framework

open Framework.System Protocol

variable {S : Signature}

/-- What is known about a thread that runs alone: what it has done, and which shared states are
possible after that. -/
structure View (S : Signature) (σ : Type) where
  trace : Trace S
  possible : σ → Prop

section Alone

variable (Y : System S) (t : ℕ) (s₀ : Y.Shared)

/-- Thread `t` runs alone from the shared state `s₀`: the answers it gets are those of the state. -/
@[reducible] def alone : Protocol S where
  Local := View S Y.Shared
  start := ⟨[], (· = s₀)⟩
  allows := fun _ _ => True
  after := fun o v g => ⟨⟨o, v⟩ :: g.trace, fun s' =>
    ∃ s ch, g.possible s ∧ Y.perform t o ch s = some (v, s')⟩

variable {Y t s₀} {ε α : Type} {Φ : Trace S → Y.Shared → Prop}

/-- `Φ` holds of the trace and the shared state. -/
def Knows (Φ : Trace S → Y.Shared → Prop) (g : View S Y.Shared) : Prop :=
  ∀ s, g.possible s → Φ g.trace s

theorem Knows.mono {Ψ : Trace S → Y.Shared → Prop} {g : View S Y.Shared} (hg : Knows (Y := Y) Φ g)
    (h : ∀ trace s, Φ trace s → Ψ trace s) : Knows (Y := Y) Ψ g :=
  fun s hs => h g.trace s (hg s hs)

theorem knows_start (h : Φ [] s₀) : Knows (Y := Y) Φ (alone Y t s₀).start := by
  rintro s rfl
  exact h

/-- The rule for one operation. -/
theorem knows_perform {o : S.Op} {ok : S.Res o → Trace S → Y.Shared → Prop}
    {err : ε → View S Y.Shared → Prop} {g : View S Y.Shared} (hg : Knows (Y := Y) Φ g)
    (h : ∀ trace s ch v s', Φ trace s → Y.perform t o ch s = some (v, s') →
      ok v (⟨o, v⟩ :: trace) s') :
    (alone Y t s₀).Meets (Action.perform o) (fun v => Knows (Y := Y) (ok v)) err g := by
  rw [meets_perform]
  refine ⟨trivial, fun v s' hs' => ?_⟩
  obtain ⟨s, ch, hs, hperform⟩ := hs'
  exact h g.trace s ch v s' (hg s hs) hperform

/-- What cannot come about has every outcome. -/
theorem meets_impossible {x : Action S ε α} {ok : α → Trace S → Y.Shared → Prop}
    {err : ε → Trace S → Y.Shared → Prop} {g : View S Y.Shared}
    (hg : Knows (Y := Y) (fun _ _ => False) g) :
    (alone Y t s₀).Meets x (fun a => Knows (Y := Y) (ok a)) (fun e => Knows (Y := Y) (err e))
      g := by
  unfold Meets
  induction x generalizing g with
  | ret r => cases r <;> exact fun s hs => (hg s hs).elim
  | call o next ih =>
    refine ⟨trivial, fun v => ih v fun s' hs' => ?_⟩
    obtain ⟨s, _, hs, _⟩ := hs'
    exact hg s hs

end Alone

namespace System

variable {Y : System S} {c d : Y.Config} {r : Y.Request}

/-- The actual state of a thread that runs alone is a possible one. -/
theorem possible_of_solo (h : Reachable c) (hsolo : Solo c.threads.length (c.spawn r) d) :
    (localOf (alone Y c.threads.length c.shared) c.threads.length d.history).possible d.shared ∧
      (localOf (alone Y c.threads.length c.shared) c.threads.length d.history).trace =
        traceOf c.threads.length d.history := by
  induction hsolo with
  | refl =>
    have hnew := h.unborn (P := alone Y c.threads.length c.shared) (Nat.le_refl _)
    have htrace := h.traced_unborn (Nat.le_refl _)
    simp only [Config.spawn, localOf_start, traceOf, hnew, htrace]
    trivial
  | tail _ hs ih =>
    obtain ⟨o, v, hthread, hperform⟩ := hs
    rw [localOf_did_self, traceOf_did]
    exact ⟨⟨_, _, ih.1, hperform⟩, congrArg _ ih.2⟩

/-- What holds wherever a program returns, alone, holds of every run in which it was alone. -/
theorem Solo.knows {ok : Y.Reply → Trace S → Y.Shared → Prop}
    (hr : (alone Y c.threads.length c.shared).Follows (fun a => Knows (Y := Y) (ok a)) (Y.program r)
      (alone Y c.threads.length c.shared).start)
    (h : Reachable c) (hsolo : Solo c.threads.length (c.spawn r) d) {a : Y.Reply}
    (hret : d.threads[c.threads.length]? = some (r, .ret a)) :
    ok a (traceOf c.threads.length d.history) d.shared := by
  have hd : Reachable d := (h.step (.start r)).leads hsolo.leads
  have hknows := hd.follows_of hr hret
  obtain ⟨hpossible, htrace⟩ := possible_of_solo h hsolo
  rw [← htrace]
  exact hknows d.shared hpossible

end System

end Framework
