import RfcMcp.Custody.Locks

namespace RfcMcp

open Framework

variable {cfg : AppSettings} {Request Reply : Type} {program : Request → Program Effects Reply}

section Frames

def Op.movesStage : Op → Bool
  | .acquire _ => true
  | .release _ => true
  | .lookup _ => true
  | .isCurrent _ _ => true
  | .removeIfCurrent _ _ => true
  | .rfcBegin _ _ _ _ => true
  | .rfcEnd _ _ _ => true
  | .setLastUsed _ _ => true
  | _ => false

theorem after_stage (limits : ResultLimitPolicy) (g : Custody) {o : Op} (v : o.Res)
    (ho : o.movesStage = false) : (g.after limits o v).stage = g.stage := by
  cases o with
  | acquire _ | release _ | lookup _ | isCurrent _ _ | removeIfCurrent _ _ | rfcBegin _ _ _ _
  | rfcEnd _ _ _ | setLastUsed _ _ => cases ho
  | tryAcquire _ | semAcquire | scanIdle | openConnection | removeIfExpired _ _ _ =>
    cases v <;> rfl
  | closeConnection conn =>
    simp only [Custody.after]
    split <;> rfl
  | poolRelease conn reusable luw => cases luw <;> rfl
  | _ => rfl

def Op.isRfc : Op → Bool
  | .rfcBegin _ _ _ _ => true
  | .rfcEnd _ _ _ => true
  | _ => false

structure Custody.SameRfcs (g g' : Custody) : Prop where
  busy : g'.busy = g.busy
  started : g'.started = g.started
  controlled : g'.controlled = g.controlled

theorem after_sameRfcs (limits : ResultLimitPolicy) (g : Custody) {o : Op} (v : o.Res)
    (ho : o.isRfc = false) : g.SameRfcs (g.after limits o v) := by
  cases o with
  | rfcBegin _ _ _ _ | rfcEnd _ _ _ => cases ho
  | poolRelease conn reusable luw => cases luw <;> exact ⟨rfl, rfl, rfl⟩
  | removeIfCurrent id a =>
    cases v <;> cases hs : g.stage <;> simp only [Custody.after, Custody.afterRemove, hs] <;>
      exact ⟨rfl, rfl, rfl⟩
  | closeConnection conn =>
    simp only [Custody.after]
    split <;> exact ⟨rfl, rfl, rfl⟩
  | tryAcquire _ | semAcquire | scanIdle | openConnection | lookup _ | removeIfExpired _ _ _ =>
    cases v <;> exact ⟨rfl, rfl, rfl⟩
  | _ => exact ⟨rfl, rfl, rfl⟩

theorem after_locks_subset (limits : ResultLimitPolicy) (g : Custody) {o : Op} (v : o.Res)
    (ho : ∀ l, o ≠ .release l) : g.locks ⊆ (g.after limits o v).locks := by
  cases hmoves : o.movesLocks with
  | false =>
    rw [after_locks limits g v hmoves]
    exact List.Subset.refl _
  | true =>
    cases o with
    | acquire l => exact List.subset_cons_self _ _
    | tryAcquire l =>
      cases v
      · exact List.Subset.refl _
      · exact List.subset_cons_self _ _
    | release l => exact absurd rfl (ho l)
    | _ => cases hmoves

end Frames

section Transitions

/-- What one step can do to the stage of the thread that makes it. -/
inductive Custody.Moves (limits : ResultLimitPolicy) (g : Custody) : (o : Op) → o.Res → Stage → Prop
  | same {o v} (h : ∀ ref, o = .release (.active ref) → g.stage = .idle) :
      g.Moves limits o v g.stage
  | locked {ref} (h : g.stage = .idle) : g.Moves limits (.acquire (.active ref)) () (.locked ref)
  | current {id a} (h : g.stage = .locked a.ref) (hfound : g.found = some (id, a)) :
      g.Moves limits (.isCurrent id a) true (.current (id, a))
  | stale {id a} (h : g.stage = .locked a.ref) (hfound : g.found = some (id, a)) :
      g.Moves limits (.isCurrent id a) false (.refused id)
  | unknown {id} (h : g.stage = .idle) : g.Moves limits (.lookup id) none (.doomed id)
  | ended {id a} (h : g.stage = .locked a.ref) (hfound : g.found = some (id, a)) :
      g.Moves limits (.removeIfCurrent id a) true (.ended (id, a))
  | late {id a} (h : g.stage = .locked a.ref) (hfound : g.found = some (id, a)) :
      g.Moves limits (.removeIfCurrent id a) false (.refused id)
  | gaveUp {id a v} (h : (∃ raw, g.stage = .wrote (id, a) raw) ∨ g.stage = .failed (id, a)) :
      g.Moves limits (.removeIfCurrent id a) v .idle
  | writing {e f kwargs} (h : g.stage = .current e) :
      g.Moves limits (.rfcBegin e.2.connection (.write e) f kwargs) () (.writing e)
  | wrote {e conn f kwargs raw} (h : g.stage = .writing e) :
      g.Moves limits (.rfcEnd conn f kwargs) (.ok raw) (.wrote e raw)
  | failed {e conn f kwargs exc} (h : g.stage = .writing e) :
      g.Moves limits (.rfcEnd conn f kwargs) (.error exc) (.failed e)
  | accepted {e raw value now} (h : g.stage = .wrote e raw)
      (hvalue : limits.apply (.dict raw) = .ok value) :
      g.Moves limits (.setLastUsed e.2 now) () (.accepted e value)
  | written {ref e value} (h : g.stage = .accepted e value) :
      g.Moves limits (.release (.active ref)) () (.written e value)
  | finished {ref e} (h : g.stage = .ended e) : g.Moves limits (.release (.active ref)) () .idle
  | refused {ref id} (h : g.stage = .refused id) :
      g.Moves limits (.release (.active ref)) () (.doomed id)

theorem Custody.Moves.keep {limits : ResultLimitPolicy} {g : Custody} {o : Op} {v : o.Res}
    (ho : ∀ ref, o ≠ .release (.active ref)) : g.Moves limits o v g.stage :=
  .same fun ref h => absurd h (ho ref)

theorem moves_unlock {limits : ResultLimitPolicy} {g : Custody} {ref : Nat}
    (hnext : g.stage.afterUnlock ≠ none) :
    g.Moves limits (.release (.active ref)) () (g.afterUnlock (.active ref)).stage := by
  cases hs : g.stage <;> rw [hs] at hnext <;>
    simp only [Custody.afterUnlock, LockId.isActive, if_true, hs, Stage.afterUnlock,
      Option.getD_some] <;>
    first
    | exact absurd rfl hnext
    | (rw [← hs]; exact .same fun _ _ => hs)
    | exact .written hs
    | exact .finished hs
    | exact .refused hs

theorem moves_remove {limits : ResultLimitPolicy} {g : Custody} {id : TxId} {a : ActiveTransaction}
    (hmay : g.MayRemove (id, a)) (removed : Bool) :
    g.Moves limits (.removeIfCurrent id a) removed (g.afterRemove (id, a) removed).stage := by
  obtain ⟨_, ⟨hlocked, hfound⟩ | ⟨raw, hwrote⟩ | hfailed⟩ := hmay
  · cases removed <;> simp only [Custody.afterRemove, hlocked]
    · exact .late hlocked hfound
    · exact .ended hlocked hfound
  · simp only [Custody.afterRemove, hwrote]
    exact .gaveUp (.inl ⟨raw, hwrote⟩)
  · simp only [Custody.afterRemove, hfailed]
    exact .gaveUp (.inr hfailed)

theorem moves_begin {limits : ResultLimitPolicy} {g : Custody} {conn : Conn} {p : Purpose}
    {f : String} {kwargs : PyDict} (hmay : g.MayCall conn p) :
    g.Moves limits (.rfcBegin conn p f kwargs) () (g.afterBegin conn p).stage := by
  cases p with
  | write e =>
    obtain ⟨rfl, hcurrent⟩ := hmay
    exact .writing hcurrent
  | _ => exact .keep (by simp)

theorem moves_end {limits : ResultLimitPolicy} {g : Custody} {conn : Conn} {f : String}
    {kwargs : PyDict} (r : Except PyExc PyDict) :
    g.Moves limits (.rfcEnd conn f kwargs) r (g.afterEnd r).stage := by
  cases hs : g.stage <;> cases r <;> simp only [Custody.afterEnd, hs] <;>
    first
    | exact .wrote hs
    | exact .failed hs
    | (rw [← hs]; exact .keep (by simp))

theorem moves_of_allows {limits : ResultLimitPolicy} {g : Custody} {o : Op}
    (hallowed : g.allows limits o) (v : o.Res) : g.Moves limits o v (g.after limits o v).stage := by
  cases hmoves : o.movesStage with
  | false =>
    rw [after_stage limits g v hmoves]
    refine .same ?_
    rintro ref rfl
    cases hmoves
  | true =>
    obtain ⟨_, hmay⟩ := hallowed
    cases o with
    | acquire l =>
      cases l with
      | active ref =>
        have hidle : g.stage = .idle := hmay.2.2.2
        simp only [Custody.after, Custody.afterLock]
        split
        · exact .keep (by simp)
        · exact .locked hidle
      | transactions | pool | cache _ => exact .keep (by simp)
    | release l =>
      cases l with
      | active ref => exact moves_unlock (hmay.2 rfl).2
      | transactions | pool | cache _ => exact .keep (by simp)
    | lookup id =>
      cases v with
      | none => exact .unknown hmay
      | some a => exact .keep (by simp)
    | isCurrent id a =>
      cases v with
      | false => exact .stale hmay.1 hmay.2
      | true => exact .current hmay.1 hmay.2
    | removeIfCurrent id a => exact moves_remove hmay v
    | rfcBegin conn p f kwargs => exact moves_begin hmay.2
    | rfcEnd conn f kwargs => exact moves_end v
    | setLastUsed a now =>
      obtain ⟨e, raw, value, hwrote, rfl, hvalue⟩ := hmay
      simp only [Custody.after, Custody.afterAccept, hwrote, hvalue]
      exact .accepted hwrote hvalue
    | _ => cases hmoves

end Transitions

/-- What holds of one thread alone, whatever the others do. -/
theorem Hands.local_invariant {I : Custody → Prop} (hstart : I {})
    (hstep : ∀ (g : Custody) (o : Op) (v : o.Res), I g → g.allows cfg.limits o →
      I (g.after cfg.limits o v))
    {w : Hands cfg program} (h : w.Reachable) (t : ℕ) : I (w.locals t) := by
  refine induction (J := fun w => ∀ t, I (w.locals t)) h (fun _ => hstart) (fun _ _ ih => ih) ?_ t
  intro w t o v s _ _ hallowed _ ih u
  by_cases hu : u = t
  · subst hu
    rw [Crew.advance_self]
    exact hstep _ o v (ih u) hallowed
  · rw [Crew.advance_ne w hu]
    exact ih u

section Guard

/-- The lock that a stage relies on is in the thread's hands. -/
def Custody.Guarded (g : Custody) : Prop :=
  ∀ ref, g.stage.guarded = some ref → .active ref ∈ g.locks

theorem guarded_step (limits : ResultLimitPolicy) (g : Custody) (o : Op) (v : o.Res)
    (hg : g.Guarded) (hallowed : g.allows limits o) : (g.after limits o v).Guarded := by
  intro ref href
  have hkeep := after_locks_subset limits g v
  have hmoves := moves_of_allows hallowed v
  generalize (g.after limits o v).stage = stage at href hmoves
  cases hmoves with
  | same hidle =>
    have hlock := hg ref href
    by_cases hrelease : ∃ l, o = .release l
    · obtain ⟨l, rfl⟩ := hrelease
      refine (List.mem_erase_of_ne ?_).mpr hlock
      rintro rfl
      rw [hidle ref rfl] at href
      cases href
    · exact hkeep (fun l hl => hrelease ⟨l, hl⟩) hlock
  | locked => cases href; exact List.mem_cons_self
  | current h | ended h | writing h | wrote h | failed h | accepted h _ =>
    cases href
    exact hkeep (fun _ => nofun) (hg _ (by rw [h]; rfl))
  | _ => cases href

theorem Hands.guarded {w : Hands cfg program} (h : w.Reachable) (t : ℕ) : (w.locals t).Guarded :=
  local_invariant (fun _ href => by cases href)
    (fun g o v hg hallowed => guarded_step cfg.limits g o v hg hallowed) h t

/-- Two threads in stages that rely on one lock are the same. -/
theorem Hands.guard_unique {w : Hands cfg program} (h : w.Reachable) {t u : ℕ} {ref : Nat}
    (ht : LockId.active ref ∈ (w.locals t).locks) (hu : (w.locals u).stage.guarded = some ref) :
    t = u :=
  Hands.lock_unique h ht (Hands.guarded h u ref hu)

theorem Stage.guarded_of_live {stage : Stage} {e : Entry} (h : stage.live = some e) :
    stage.guarded = some e.2.ref := by
  cases stage <;> cases h <;> rfl

end Guard

end RfcMcp
