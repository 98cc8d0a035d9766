import RfcMcp.Custody.Conservation

namespace RfcMcp

open Framework

variable {cfg : AppSettings} {Request Reply : Type} {program : Request → Program Effects Reply}

section Frames

def Op.movesLocks : Op → Bool
  | .acquire _ => true
  | .tryAcquire _ => true
  | .release _ => true
  | _ => false

theorem after_locks (limits : ResultLimitPolicy) (g : Custody) {o : Op} (v : o.Res)
    (ho : o.movesLocks = false) : (g.after limits o v).locks = g.locks := by
  cases o with
  | acquire _ | tryAcquire _ | release _ => cases ho
  | semAcquire | scanIdle | openConnection | lookup _ | removeIfExpired _ _ _ => cases v <;> rfl
  | closeConnection conn =>
    simp only [Custody.after]
    split <;> rfl
  | rfcBegin conn p => cases p <;> rfl
  | poolRelease conn reusable luw => cases luw <;> rfl
  | removeIfCurrent id a =>
    cases v <;> cases hs : g.stage <;> simp only [Custody.after, Custody.afterRemove, hs] <;> rfl
  | _ => rfl

theorem does_holder {t : ℕ} {s s' : Shared} {o : Op} {v : o.Res} (hdoes : Does cfg t s o v s')
    (ho : o.movesLocks = false) : s'.holder = s.holder := by
  cases hdoes <;> first | rfl | cases ho

end Frames

/-- The locks are held by the threads that have them in their hands. -/
def Hands.LocksHeld (w : Hands cfg program) : Prop :=
  ∀ t, (w.locals t).locks.Nodup ∧ ∀ l, l ∈ (w.locals t).locks ↔ w.shared.holder l = some t

/-- Taking a lock that is free. -/
theorem Hands.LocksHeld.take {w : Hands cfg program} (h : w.LocksHeld) {t : ℕ} {l : LockId}
    {o : Op} {v : o.Res} {s : Shared} (hfree : w.shared.holder l = none)
    (hholder : s.holder = Function.update w.shared.holder l (some t))
    (hlocks : ((w.locals t).after cfg.limits o v).locks = l :: (w.locals t).locks) :
    Hands.LocksHeld (w.advance t o v s) := by
  intro u
  obtain ⟨hnodup, hmem⟩ := h u
  have hout : ∀ u, l ∉ (w.locals u).locks := by
    intro u hl
    have hu := ((h u).2 l).mp hl
    rw [hfree] at hu
    cases hu
  by_cases hu : u = t
  · subst hu
    rw [Crew.advance_self]
    refine ⟨?_, fun l' => ?_⟩
    · rw [hlocks]
      exact List.nodup_cons.mpr ⟨hout u, hnodup⟩
    · show l' ∈ ((w.locals u).after cfg.limits o v).locks ↔ s.holder l' = some u
      rw [hlocks, hholder, List.mem_cons, hmem]
      by_cases hl : l' = l
      · subst hl
        simp
      · simp [hl]
  · rw [Crew.advance_ne w hu]
    refine ⟨hnodup, fun l' => ?_⟩
    show l' ∈ (w.locals u).locks ↔ s.holder l' = some u
    rw [hholder, hmem]
    by_cases hl : l' = l
    · subst hl
      simp [hfree, Ne.symm hu]
    · simp [hl]

/-- Letting go of a lock that the thread has. -/
theorem Hands.LocksHeld.drop {w : Hands cfg program} (h : w.LocksHeld) {t : ℕ} {l : LockId}
    {o : Op} {v : o.Res} {s : Shared} (hhas : l ∈ (w.locals t).locks)
    (hholder : s.holder = Function.update w.shared.holder l none)
    (hlocks : ((w.locals t).after cfg.limits o v).locks = (w.locals t).locks.erase l) :
    Hands.LocksHeld (w.advance t o v s) := by
  intro u
  obtain ⟨hnodup, hmem⟩ := h u
  have hmine : w.shared.holder l = some t := ((h t).2 l).mp hhas
  by_cases hu : u = t
  · subst hu
    rw [Crew.advance_self]
    refine ⟨?_, fun l' => ?_⟩
    · rw [hlocks]
      exact hnodup.erase l
    · show l' ∈ ((w.locals u).after cfg.limits o v).locks ↔ s.holder l' = some u
      rw [hlocks, hholder, hnodup.mem_erase_iff, hmem]
      by_cases hl : l' = l
      · subst hl
        simp
      · simp [hl]
  · rw [Crew.advance_ne w hu]
    refine ⟨hnodup, fun l' => ?_⟩
    show l' ∈ (w.locals u).locks ↔ s.holder l' = some u
    rw [hholder, hmem]
    by_cases hl : l' = l
    · subst hl
      simp [hmine, Ne.symm hu]
    · simp [hl]

theorem Hands.LocksHeld.keep {w : Hands cfg program} (h : w.LocksHeld) {t : ℕ} {o : Op}
    {v : o.Res} {s : Shared} (hholder : s.holder = w.shared.holder)
    (hlocks : ((w.locals t).after cfg.limits o v).locks = (w.locals t).locks) :
    Hands.LocksHeld (w.advance t o v s) := by
  intro u
  obtain ⟨hnodup, hmem⟩ := h u
  have hsame : (Crew.locals (w.advance t o v s) u).locks = (w.locals u).locks := by
    by_cases hu : u = t
    · subst hu
      rw [Crew.advance_self]
      exact hlocks
    · rw [Crew.advance_ne w hu]
  rw [hsame]
  refine ⟨hnodup, fun l => ?_⟩
  show _ ↔ s.holder l = some u
  rw [hholder]
  exact hmem l

theorem Hands.locksHeld {w : Hands cfg program} (h : w.Reachable) : w.LocksHeld := by
  refine induction (J := Hands.LocksHeld) h ?_ (fun _ _ ih => ih) ?_
  · intro t
    exact ⟨List.nodup_nil, fun l => by simp [Shared.initial]⟩
  · intro w t o v s _ ht hallowed hdoes ih
    cases hmoves : o.movesLocks with
    | false => exact ih.keep (does_holder hdoes hmoves) (after_locks cfg.limits _ v hmoves)
    | true =>
      cases hdoes
      case acquire l hfree => exact ih.take hfree rfl rfl
      case tryAcquired l hfree => exact ih.take hfree rfl rfl
      case tryFailed => exact ih.keep rfl rfl
      case release l => exact ih.drop hallowed.2.1 rfl rfl
      all_goals cases hmoves

/-- A lock is in the hands of at most one thread. -/
theorem Hands.lock_unique {w : Hands cfg program} (h : w.Reachable) {t u : ℕ} {l : LockId}
    (ht : l ∈ (w.locals t).locks) (hu : l ∈ (w.locals u).locks) : t = u := by
  have hheld := Hands.locksHeld h
  have hholder := ((hheld t).2 l).mp ht
  rw [((hheld u).2 l).mp hu] at hholder
  exact (Option.some.inj hholder).symm

end RfcMcp
