import RfcMcp.Framework.Trace

namespace Framework.System

variable {S : Signature} {Y : System S} {c c' : Y.Config} {t u : ℕ} {r : Y.Request}

/-- Thread `t` goes on alone. -/
abbrev Solo (t : ℕ) : Y.Config → Y.Config → Prop :=
  Relation.ReflTransGen fun c c' => ∃ o v, Performs c t o v c'

/-- Left alone, thread `t` never gets stuck and returns, whatever the answers to its operations are,
and then `Q` holds of its reply and the configuration. -/
inductive Ends (t : ℕ) (Q : Y.Reply → Y.Config → Prop) : Y.Config → Prop
  | returned {c : Y.Config} {r : Y.Request} {a : Y.Reply} (h : c.threads[t]? = some (r, .ret a))
    (hq : Q a c) : Ends t Q c
  | step {c : Y.Config} (hcan : ∃ o v c', Performs c t o v c')
    (hall : ∀ o v c', Performs c t o v c' → Ends t Q c') : Ends t Q c

/-- Running thread `t` on given choices is a run of it alone. -/
theorem solo_of_execute {choices : List Y.Choice}
    (h : execute c (choices.map (.run t)) = some c') : Solo t c c' := by
  induction choices generalizing c with
  | nil => cases h; exact .refl
  | cons ch choices ih =>
    obtain ⟨d, hd, hrest⟩ := Option.bind_eq_some_iff.mp h
    refine (ih hrest).head ?_
    simp only [advance] at hd
    split at hd
    · rename_i req o next hthread
      obtain ⟨⟨v, s⟩, hperform, rfl⟩ := Option.map_eq_some_iff.mp hd
      exact ⟨o, v, .mk hthread hperform⟩
    · cases hd

theorem Solo.leads (h : Solo t c c') : Leads c c' := by
  induction h with
  | refl => exact .refl
  | tail _ hs ih =>
    obtain ⟨o, v, hp⟩ := hs
    exact ih.tail (.run hp)

/-- The thread that performs an operation goes on with the answer. -/
theorem Performs.next {o : S.Op} {v : S.Res o} (h : Performs c t o v c') {p : Program S Y.Reply}
    (hthread : c.threads[t]? = some (r, p)) : ∃ o' next v', p = .call o' next ∧
      c'.threads[t]? = some (r, next v') := by
  obtain ⟨hthread', _⟩ := h
  rw [hthread] at hthread'
  cases hthread'
  have hlt : t < c.threads.length := (List.getElem?_eq_some_iff.mp hthread).1
  exact ⟨_, _, _, rfl, List.getElem?_set_self hlt⟩

theorem Solo.others (h : Solo t c c') (hu : u ≠ t) : c'.threads[u]? = c.threads[u]? := by
  induction h with
  | refl => rfl
  | tail _ hs ih =>
    obtain ⟨o, v, hthread, _⟩ := hs
    rw [List.getElem?_set_ne (Ne.symm hu)]
    exact ih

/-- All that has happened was done by that thread. -/
theorem Solo.later (h : Solo t c c') : ∃ later, c'.history = later ++ c.history ∧
    ∀ ev ∈ later, ∃ o v, ev = .did t o v := by
  induction h with
  | refl => exact ⟨[], rfl, fun _ hmem => absurd hmem List.not_mem_nil⟩
  | tail _ hs ih =>
    obtain ⟨later, hlater, honly⟩ := ih
    obtain ⟨o, v, hthread, _⟩ := hs
    refine ⟨.did t o v :: later, congrArg _ hlater, ?_⟩
    intro ev hev
    cases List.mem_cons.mp hev with
    | inl hnow => exact ⟨o, v, hnow⟩
    | inr hpast => exact honly ev hpast

/-- The rule for total correctness: a program is finite, so it is enough that the thread is never
blocked, and that `Q` holds wherever it returns. -/
theorem ends_of_solo {Q : Y.Reply → Y.Config → Prop} {p : Program S Y.Reply}
    (hthread : c.threads[t]? = some (r, p))
    (hcan : ∀ c' o (next : S.Res o → Program S Y.Reply), Solo t c c' →
      c'.threads[t]? = some (r, .call o next) → ∃ o v c'', Performs c' t o v c'')
    (hq : ∀ c' a, Solo t c c' → c'.threads[t]? = some (r, .ret a) → Q a c') : Ends t Q c := by
  induction p generalizing c with
  | ret a => exact .returned hthread (hq c a .refl hthread)
  | call o next ih =>
    refine .step (hcan c o next .refl hthread) ?_
    intro o' v' c' hp
    obtain ⟨o'', next', v, hcall, hnext⟩ := hp.next hthread
    cases hcall
    have hfirst : Solo t c c' := .single ⟨o', v', hp⟩
    refine ih v hnext ?_ ?_
    · intro d o next hsolo hget
      exact hcan d o next (hfirst.trans hsolo) hget
    · intro d a hsolo hget
      exact hq d a (hfirst.trans hsolo) hget

theorem spawn_new (c : Y.Config) (r : Y.Request) :
    (c.spawn r).threads[c.threads.length]? = some (r, Y.program r) := by
  simp [Config.spawn]

section Traced

/-- The discipline of one request, whatever the others do. -/
theorem Reachable.follows_of {P : Protocol S} {post : Y.Reply → P.Local → Prop}
    (hr : P.Follows post (Y.program r) P.start) (h : Reachable c) {p : Program S Y.Reply}
    (hget : c.threads[t]? = some (r, p)) : P.Follows post p (localOf P t c.history) := by
  refine Reachable.induction (I := fun c => ∀ p, c.threads[t]? = some (r, p) →
    P.Follows post p (localOf P t c.history)) ?_ (fun c r' hc ih => ?_)
    (fun c u o v c' _ ih hp => ?_) h p hget
  · intro p hp
    simp [initial] at hp
  · intro p hp
    simp only [Config.spawn, List.getElem?_append] at hp
    split at hp
    · exact ih p hp
    · rename_i ht
      obtain ⟨_, he⟩ := List.getElem?_eq_some_iff.mp hp
      simp only [List.getElem_singleton, Prod.mk.injEq] at he
      obtain ⟨rfl, rfl⟩ := he
      simp only [Config.spawn, localOf_start, hc.unborn (Nat.le_of_not_lt ht)]
      exact hr
  · obtain ⟨hthread, hperform⟩ := hp
    intro p hp
    by_cases hu : u = t
    · subst hu
      rw [List.getElem?_set_self (List.getElem?_eq_some_iff.mp hthread).1] at hp
      cases hp
      rw [localOf_did_self]
      exact (ih _ hthread).2 v
    · rw [List.getElem?_set_ne hu] at hp
      rw [localOf_did_ne _ hu]
      exact ih p hp

variable {guard : S.Op → Trace S → Prop} {post : Y.Reply → Trace S → Prop}

/-- What a program does according to a tracing protocol, its thread does in any run. -/
theorem Reachable.traced (hr : (tracing guard).Follows post (Y.program r) []) (h : Reachable c)
    {p : Program S Y.Reply} (hget : c.threads[t]? = some (r, p)) :
    (tracing guard).Follows post p (traceOf t c.history) := by
  have hfollows := h.follows_of hr hget
  rw [localOf_tracing] at hfollows
  exact hfollows

theorem Reachable.traced_unborn (h : Reachable c) (ht : c.threads.length ≤ t) :
    traceOf t c.history = [] := by
  rw [← localOf_tracing fun _ _ => True]
  exact h.unborn ht

theorem Reachable.traced_new (h : Reachable c) (r : Y.Request) :
    traceOf c.threads.length (c.spawn r).history = [] :=
  h.traced_unborn (Nat.le_refl _)

/-- What a new thread has done in a run, its tracing protocol allowed at that point. -/
theorem Leads.guarded {d : Y.Config} (h : Leads (c.spawn r) d) (hc : Reachable c)
    (hr : (tracing guard).Follows post (Y.program r) []) {o : S.Op} {v : S.Res o}
    {after before : Trace S} (htrace : traceOf c.threads.length d.history =
      after ++ ⟨o, v⟩ :: before) : guard o before := by
  obtain ⟨past, hpast⟩ := history_suffix h
  have hsplit := htrace
  rw [← hpast, traceOf_append, hc.traced_new, List.append_nil] at hsplit
  obtain ⟨later, earlier, rfl, _, hbefore⟩ := traceOf_split hsplit
  rw [List.append_assoc] at hpast
  obtain ⟨b, b', hb, ⟨hthread, _⟩, _, hhistory⟩ := h.performed hpast.symm
  obtain ⟨p, hp⟩ := Leads.request hb (spawn_new c r)
  rw [hp] at hthread
  cases hthread
  have hspawn : Reachable (c.spawn r) := hc.step (.start r)
  have hguard := ((hspawn.leads hb).traced hr hp).1
  rw [hhistory, traceOf_append, hc.traced_new, List.append_nil, hbefore] at hguard
  exact hguard

end Traced

end Framework.System
