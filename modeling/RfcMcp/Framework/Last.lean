import RfcMcp.Framework.System

namespace Framework

namespace System

variable {S : Signature} {Y : System S}

/-- With `o` thread `t` has reached `d`, and this was the last operation of its kind before `c`. -/
structure Last (kind : S.Op → Bool) (t : ℕ) (o : S.Op) (v : S.Res o) (d c : Y.Config) : Prop where
  isKind : kind o = true
  done : ∃ b, Reachable b ∧ Performs b t o v d
  leads : Leads d c
  since : ∃ later, c.history = later ++ d.history ∧
    ∀ u o' v', .did u o' v' ∈ later → kind o' = false

section Runs

variable {kind : S.Op → Bool} {t : ℕ} {o : S.Op} {v : S.Res o} {d c c' : Y.Config}

theorem Last.of_performs (h : Reachable c) (hp : Performs c t o v c') (ho : kind o = true) :
    Last kind t o v c' c' :=
  ⟨ho, ⟨c, h, hp⟩, .refl, [], rfl, nofun⟩

theorem Last.spawn (h : Last kind t o v d c) (r : Y.Request) : Last kind t o v d (c.spawn r) := by
  obtain ⟨later, hlater, hnone⟩ := h.since
  refine ⟨h.isKind, h.done, h.leads.tail (.start r), .start c.threads.length r :: later, ?_, ?_⟩
  · simp only [Config.spawn, hlater, List.cons_append]
  · intro u o' v' hmem
    rcases List.mem_cons.mp hmem with heq | hmem
    · cases heq
    · exact hnone u o' v' hmem

theorem Last.run (h : Last kind t o v d c) {u : ℕ} {o' : S.Op} {v' : S.Res o'}
    (hp : Performs c u o' v' c') (ho' : kind o' = false) : Last kind t o v d c' := by
  obtain ⟨later, hlater, hnone⟩ := h.since
  refine ⟨h.isKind, h.done, h.leads.tail (.run hp), .did u o' v' :: later, ?_, ?_⟩
  · cases hp
    simp only [hlater, List.cons_append]
  · intro w o'' v'' hmem
    rcases List.mem_cons.mp hmem with heq | hmem
    · cases heq
      exact ho'
    · exact hnone w o'' v'' hmem

/-- What all other operations keep holds since the last operation of a kind, or from the start. -/
theorem Reachable.since_last (kind : S.Op → Bool) {R : Y.Shared → Y.Shared → Prop}
    (hrefl : ∀ s, R s s)
    (hstep : ∀ {a s s' t o ch v}, R a s → Y.perform t o ch s = some (v, s') → kind o = false →
      R a s') (h : Reachable c) :
    (R Y.init c.shared ∧ ∀ u o v, .did u o v ∈ c.history → kind o = false) ∨
      ∃ t o v d, Last kind t o v d c ∧ R d.shared c.shared := by
  refine Reachable.induction (I := fun c =>
    (R Y.init c.shared ∧ ∀ u o v, .did u o v ∈ c.history → kind o = false) ∨
      ∃ t o v d, Last kind t o v d c ∧ R d.shared c.shared) ?_ ?_ ?_ h
  · exact .inl ⟨hrefl _, nofun⟩
  · rintro c r _ (⟨hR, hnone⟩ | ⟨t, o, v, d, hlast, hR⟩)
    · refine .inl ⟨hR, fun u o v hmem => ?_⟩
      rcases List.mem_cons.mp hmem with heq | hmem
      · cases heq
      · exact hnone u o v hmem
    · exact .inr ⟨t, o, v, d, hlast.spawn r, hR⟩
  · intro c u o' v' c' hc ih hp
    cases hkind : kind o' with
    | true => exact .inr ⟨u, o', v', c', .of_performs hc hp hkind, hrefl _⟩
    | false =>
      have hp' := hp
      obtain ⟨_, hperform⟩ := hp
      rcases ih with ⟨hR, hnone⟩ | ⟨t, o, v, d, hlast, hR⟩
      · refine .inl ⟨hstep hR hperform hkind, fun w o v hmem => ?_⟩
        rcases List.mem_cons.mp hmem with heq | hmem
        · cases heq
          exact hkind
        · exact hnone w o v hmem
      · exact .inr ⟨t, o, v, d, hlast.run hp' hkind, hstep hR hperform hkind⟩

end Runs

end System

end Framework
