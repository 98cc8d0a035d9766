import RfcMcp.Framework.Crew

namespace Framework

open Framework.System

variable {S : Signature}

section Record

variable {R α : Type} (pick : (o : S.Op) → S.Res o → List α)

/-- What `pick` finds in the events of a history, the newest first. -/
def record : List (Event S R) → List α
  | [] => []
  | .start _ _ :: h => record h
  | .did _ o v :: h => pick o v ++ record h

/-- What `pick` finds in the events of thread `t`. -/
def recordOf (t : ℕ) : List (Event S R) → List α
  | [] => []
  | .start _ _ :: h => recordOf t h
  | .did u o v :: h => if u = t then pick o v ++ recordOf t h else recordOf t h

variable {pick}

@[simp] theorem record_start (t : ℕ) (r : R) (h : List (Event S R)) :
    record pick (.start t r :: h) = record pick h := rfl

@[simp] theorem recordOf_start (t u : ℕ) (r : R) (h : List (Event S R)) :
    recordOf pick t (.start u r :: h) = recordOf pick t h := rfl

@[simp] theorem recordOf_did_self (t : ℕ) (o : S.Op) (v : S.Res o) (h : List (Event S R)) :
    recordOf pick t (.did t o v :: h) = pick o v ++ recordOf pick t h := by
  simp [recordOf]

theorem recordOf_did_ne {t u : ℕ} (hu : u ≠ t) (o : S.Op) (v : S.Res o) (h : List (Event S R)) :
    recordOf pick t (.did u o v :: h) = recordOf pick t h := by
  simp [recordOf, hu]

theorem record_append (h h' : List (Event S R)) :
    record pick (h ++ h') = record pick h ++ record pick h' := by
  induction h with
  | nil => rfl
  | cons ev h ih =>
    cases ev with
    | start u r => exact ih
    | did u o v => simp [record, ih]

theorem recordOf_append (t : ℕ) (h h' : List (Event S R)) :
    recordOf pick t (h ++ h') = recordOf pick t h ++ recordOf pick t h' := by
  induction h with
  | nil => rfl
  | cons ev h ih =>
    cases ev with
    | start u r => exact ih
    | did u o v =>
      by_cases hu : u = t
      · subst hu
        simp [ih]
      · rw [List.cons_append, recordOf_did_ne hu, recordOf_did_ne hu, ih]

theorem mem_record {a : α} {h : List (Event S R)} :
    a ∈ record pick h ↔ ∃ t o v, .did t o v ∈ h ∧ a ∈ pick o v := by
  induction h with
  | nil => simp [record]
  | cons ev h ih =>
    cases ev with
    | start u r => simp [ih]
    | did u o v =>
      simp only [record, List.mem_append, ih, List.mem_cons]
      constructor
      · rintro (ha | ⟨t, o', v', hmem, ha⟩)
        · exact ⟨u, o, v, .inl rfl, ha⟩
        · exact ⟨t, o', v', .inr hmem, ha⟩
      · rintro ⟨t, o', v', heq | hmem, ha⟩
        · cases heq
          exact .inl ha
        · exact .inr ⟨t, o', v', hmem, ha⟩

theorem mem_recordOf {t : ℕ} {a : α} {h : List (Event S R)} :
    a ∈ recordOf pick t h ↔ ∃ o v, .did t o v ∈ h ∧ a ∈ pick o v := by
  induction h with
  | nil => simp [recordOf]
  | cons ev h ih =>
    cases ev with
    | start u r => simp [ih]
    | did u o v =>
      by_cases hu : u = t
      · subst hu
        simp only [recordOf_did_self, List.mem_append, ih, List.mem_cons]
        constructor
        · rintro (ha | ⟨o', v', hmem, ha⟩)
          · exact ⟨o, v, .inl rfl, ha⟩
          · exact ⟨o', v', .inr hmem, ha⟩
        · rintro ⟨o', v', heq | hmem, ha⟩
          · cases heq
            exact .inl ha
          · exact .inr ⟨o', v', hmem, ha⟩
      · rw [recordOf_did_ne hu, ih]
        constructor
        · rintro ⟨o', v', hmem, ha⟩
          exact ⟨o', v', List.mem_cons_of_mem _ hmem, ha⟩
        · rintro ⟨o', v', hmem, ha⟩
          rcases List.mem_cons.mp hmem with heq | hmem
          · cases heq
            exact absurd rfl hu
          · exact ⟨o', v', hmem, ha⟩

theorem exists_recordOf {a : α} {h : List (Event S R)} (ha : a ∈ record pick h) :
    ∃ t, a ∈ recordOf pick t h := by
  obtain ⟨t, o, v, hmem, ha⟩ := mem_record.mp ha
  exact ⟨t, mem_recordOf.mpr ⟨o, v, hmem, ha⟩⟩

end Record

namespace Crew

variable {Y : System S} {P : Protocol S} {post : Y.Request → Y.Reply → P.Local → Prop} {α : Type}
  {pick : (o : S.Op) → S.Res o → List α} {p : α → Bool} {f : P.Local → ℕ}

/-- `f` counts what `pick` finds: every allowed step adds to `f` what it adds to the record. -/
def Counts (Y : System S) (P : Protocol S) (f : P.Local → ℕ)
    (pick : (o : S.Op) → S.Res o → List α) (p : α → Bool) : Prop :=
  ∀ (w : Crew Y P) (t : ℕ) (o : S.Op) (ch : Y.Choice) (v : S.Res o) (s : Y.Shared), w.Reachable →
    t < w.size → P.allows o (w.locals t) → Y.perform t o ch w.shared = some (v, s) →
    f (P.after o v (w.locals t)) = f (w.locals t) + (pick o v).countP p

/-- A counter of one thread agrees with the record of its events. -/
theorem Counts.recordOf_eq (hcounts : Counts Y P f pick p)
    (hprog : ∀ r, P.Follows (post r) (Y.program r) P.start) (hstart : f P.start = 0)
    {c : Y.Config} (h : System.Reachable c) (t : ℕ) :
    (recordOf pick t c.history).countP p = f (localOf P t c.history) := by
  refine System.Reachable.induction
    (I := fun c => (recordOf pick t c.history).countP p = f (localOf P t c.history))
    hstart.symm (fun _ _ _ ih => ih) (fun c u o v c' hc ih hp => ?_) h
  have hallowed := hp.allowed hprog hc
  have hlt := hp.lt
  obtain ⟨_, hperform⟩ := hp
  by_cases hu : u = t
  · subst hu
    have hstep := hcounts (of P c) u o _ v _ (of_reachable hprog hc) hlt hallowed hperform
    change f (P.after o v (localOf P u c.history)) = f (localOf P u c.history) + _ at hstep
    rw [recordOf_did_self, localOf_did_self, List.countP_append, hstep, ih, Nat.add_comm]
  · rw [recordOf_did_ne hu, localOf_did_ne P hu]
    exact ih

/-- The counters of all threads together agree with the record of all events. -/
theorem Counts.record_eq (hcounts : Counts Y P f pick p)
    (hprog : ∀ r, P.Follows (post r) (Y.program r) P.start) (hstart : f P.start = 0)
    {c : Y.Config} (h : System.Reachable c) :
    (record pick c.history).countP p = total f (of P c) := by
  refine System.Reachable.induction
    (I := fun c => (record pick c.history).countP p = total f (of P c))
    rfl (fun c r hc ih => ?_) (fun c u o v c' hc ih hp => ?_) h
  · have hunborn := (of_reachable hprog hc).unborn (Nat.le_refl _)
    rw [of_spawn, total_start, hunborn, hstart]
    exact ih
  · have hallowed := hp.allowed hprog hc
    have hlt := hp.lt
    have hof := of_performs (P := P) hp
    have htotal := total_advance f (of P c) hlt o v c'.shared
    obtain ⟨_, hperform⟩ := hp
    have hstep := hcounts (of P c) u o _ v _ (of_reachable hprog hc) hlt hallowed hperform
    rw [hof]
    simp only [record, List.countP_append]
    dsimp only at htotal
    omega

end Crew

end Framework
