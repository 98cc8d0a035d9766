import RfcMcp.Framework.Runs

namespace Framework

variable {S : Signature} {Y : System S} {ε α β : Type}

/-- What an environment decides about an operation. It knows what the thread has done so far, the
latest operation first, and the state. -/
abbrev Environment (Y : System S) := Trace S → S.Op → Y.Shared → Y.Choice

/-- Thread `t` runs a program without any interruption. The result is what the program comes to,
what the thread has done by then, and the state; there is none if an operation cannot end. -/
def evaluate (I : Environment Y) (t : ℕ) :
    Program S α → Trace S → Y.Shared → Option (α × Trace S × Y.Shared)
  | .ret a, done, s => some (a, done, s)
  | .call o next, done, s =>
    match Y.perform t o (I done o s) s with
    | some (v, s₁) => evaluate I t (next v) (⟨o, v⟩ :: done) s₁
    | none => none

variable {I : Environment Y} {t : ℕ} {done done' done'' : Trace S} {s s' s'' : Y.Shared}

theorem evaluate_program_bind {p : Program S α} {f : α → Program S β} {a : α}
    (h : evaluate I t p done s = some (a, done', s')) :
    evaluate I t (p.bind f) done s = evaluate I t (f a) done' s' := by
  induction p generalizing done s with
  | ret b =>
    cases h
    rfl
  | call o next ih =>
    simp only [evaluate, Program.call_bind] at h ⊢
    cases hperform : Y.perform t o (I done o s) s with
    | none =>
      rw [hperform] at h
      cases h
    | some r =>
      rw [hperform] at h
      exact ih r.1 h

/-- What a program comes to in an environment, it may come to. -/
theorem runs_of_evaluate {p : Program S α} {a : α}
    (h : evaluate I t p done s = some (a, done', s')) :
    ∃ trace, done' = trace.reverse ++ done ∧ Runs Y t s p trace a s' := by
  induction p generalizing done s with
  | ret b =>
    cases h
    exact ⟨[], rfl, .ret _ _⟩
  | call o next ih =>
    simp only [evaluate] at h
    cases hperform : Y.perform t o (I done o s) s with
    | none =>
      rw [hperform] at h
      cases h
    | some r =>
      rw [hperform] at h
      obtain ⟨trace, rfl, hruns⟩ := ih r.1 h
      refine ⟨⟨o, r.1⟩ :: trace, ?_, .call hperform hruns⟩
      simp

section Actions

variable {x : Action S ε α} {f : α → Action S ε β} {a : α} {e : ε}

theorem evaluate_perform {o : S.Op} {v : S.Res o}
    (h : Y.perform t o (I done o s) s = some (v, s')) :
    evaluate I t (Action.perform o : Action S ε _) done s = some (.ok v, ⟨o, v⟩ :: done, s') := by
  simp [Action.perform, evaluate, h]

theorem evaluate_bind_ok (h : evaluate I t x done s = some (.ok a, done', s')) :
    evaluate I t (x >>= f : Action S ε β) done s = evaluate I t (f a) done' s' :=
  evaluate_program_bind h

theorem evaluate_bind_error (h : evaluate I t x done s = some (.error e, done', s')) :
    evaluate I t (x >>= f : Action S ε β) done s = some (.error e, done', s') :=
  evaluate_program_bind h

theorem evaluate_tryExcept_ok {handler : ε → Action S ε α}
    (h : evaluate I t x done s = some (.ok a, done', s')) :
    evaluate I t (x.tryExcept handler) done s = some (.ok a, done', s') :=
  evaluate_program_bind h

theorem evaluate_tryExcept_error {handler : ε → Action S ε α}
    (h : evaluate I t x done s = some (.error e, done', s')) :
    evaluate I t (x.tryExcept handler) done s = evaluate I t (handler e) done' s' :=
  evaluate_program_bind h

theorem evaluate_tryFinally {last : Action S ε Unit} {r : Except ε α}
    (h : evaluate I t x done s = some (r, done', s'))
    (hlast : evaluate I t last done' s' = some (.ok (), done'', s'')) :
    evaluate I t (x.tryFinally last) done s = some (r, done'', s'') :=
  (evaluate_program_bind h).trans (evaluate_program_bind hlast)

end Actions

end Framework
