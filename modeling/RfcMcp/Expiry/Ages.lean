import RfcMcp.Custody.Shutdown
import RfcMcp.Expiry.Programs

namespace RfcMcp

open Framework Framework.System

variable {cfg : AppSettings} {c d : Run cfg} {t : ℕ} {e : Entry}

/-- When a transaction object was made, or a write to it recorded. -/
def Op.uses : (o : Op) → o.Res → List (ℕ × Time)
  | .newTransaction _ now, ref => [(ref, now)]
  | .setLastUsed a now, _ => [(a.ref, now)]
  | _, _ => []

/-- The time of the last write to `e`, or of its creation. -/
def lastUse (h : History Request) (e : Entry) : Option Time := (record Op.uses h).lookup e.2.ref

theorem nextRef_mono {s s' : Shared} {o : Op} {v : o.Res} (hdoes : Does cfg t s o v s') :
    s.nextRef ≤ s'.nextRef := by
  cases hdoes with
  | newTransaction => exact Nat.le_succ _
  | _ => exact Nat.le_refl _

/-- A recorded use is the last one. -/
theorem uses_step {s s' : Shared} {o : Op} {v : o.Res} (hdoes : Does cfg t s o v s')
    {h : History Request}
    (ih : ∀ ref < s.nextRef, (record Op.uses h).lookup ref = some (s.lastUsed ref)) {ref : ℕ}
    (href : ref < s'.nextRef) :
    (record Op.uses (.did t o v :: h : History Request)).lookup ref = some (s'.lastUsed ref) := by
  cases hdoes with
  | @newTransaction conn now =>
    change List.lookup ref ((s.nextRef, now) :: record Op.uses h) = _
    by_cases hnew : ref = s.nextRef
    · subst hnew
      simp
    · have hold : ref < s.nextRef := by
        have hlt : ref < s.nextRef + 1 := href
        omega
      have hne : (ref == s.nextRef) = false := beq_false_of_ne hnew
      rw [List.lookup_cons, hne]
      simpa [hnew] using ih ref hold
  | @setLastUsed a now =>
    change List.lookup ref ((a.ref, now) :: record Op.uses h) = _
    by_cases hsame : ref = a.ref
    · subst hsame
      simp
    · have hne : (ref == a.ref) = false := beq_false_of_ne hsame
      rw [List.lookup_cons, hne]
      simpa [hsame] using ih ref href
  | _ => exact ih ref href

/-- `last_used` is what the history says. -/
theorem lookup_uses (h : Reachable c) {ref : ℕ} (href : ref < c.shared.nextRef) :
    (record Op.uses c.history).lookup ref = some (c.shared.lastUsed ref) := by
  refine Reachable.induction (I := fun c : Run cfg => ∀ ref < c.shared.nextRef,
    (record Op.uses c.history).lookup ref = some (c.shared.lastUsed ref)) ?_ ?_ ?_ h ref href
  · intro ref href
    cases href
  · intro c request _ ih
    exact ih
  · intro c t o v c' _ ih hp ref href
    obtain ⟨hthread, hperform⟩ := hp
    exact uses_step (Shared.perform_does hperform) ih href

theorem lastUse_eq (h : Reachable c) (href : e.2.ref < c.shared.nextRef) :
    lastUse c.history e = some (c.shared.lastUsed e.2.ref) :=
  lookup_uses h href

/-- What a sweep has found in the table is known since then. -/
theorem candidate_ref_lt (h : Reachable c) {candidates : List Entry}
    (hsnapshot : .did t .snapshot candidates ∈ c.history) (he : e ∈ candidates) :
    e.2.ref < c.shared.nextRef := by
  obtain ⟨later, earlier, hh⟩ := List.append_of_mem hsnapshot
  obtain ⟨b, d, hb, hp, hlead, _, _⟩ := h.performed hh
  have hmono : ∀ {d : Run cfg}, Leads b d → b.shared.nextRef ≤ d.shared.nextRef := by
    intro d hlead
    induction hlead with
    | refl => exact Nat.le_refl _
    | tail _ hs ih =>
      refine ih.trans ?_
      cases hs with
      | start r => exact Nat.le_refl _
      | run hp =>
        obtain ⟨_, hperform⟩ := hp
        exact nextRef_mono (Shared.perform_does hperform)
  have htable : e ∈ b.shared.table := by
    obtain ⟨_, hperform⟩ := hp
    cases Shared.perform_does hperform with
    | snapshot => exact he
  exact (ref_lt hb htable).trans_le (hmono ((Relation.ReflTransGen.single (.run hp)).trans hlead))

end RfcMcp
