import RfcMcp.Custody.History
import RfcMcp.Custody.Invoker
import RfcMcp.Framework.Finish
import Mathlib.Data.Fintype.EquivFin

namespace RfcMcp

open Framework Framework.System

section Blocking

variable (cfg : AppSettings) (t : ℕ) (s : Shared)

/-- The generator never runs out of IDs. -/
theorem exists_fresh (tokens : List TxId) : ∃ id, id ∉ tokens := by
  have hinjective : Function.Injective fun n : ℕ => String.ofList (List.replicate n 'a') := by
    intro m n hmn
    have hlist := congrArg String.toList hmn
    simpa using congrArg List.length hlist
  have hinfinite : Infinite TxId := Infinite.of_injective _ hinjective
  obtain ⟨id, hid⟩ := Infinite.exists_notMem_finset tokens.toFinset
  exact ⟨id, fun hmem => hid (List.mem_toFinset.mpr hmem)⟩

/-- Only a wait for a lock that somebody holds has no outcome. -/
theorem perform_of_free {o : Op} (ho : ∀ l, o = .acquire l → s.holder l = none) :
    ∃ ch v s', Shared.perform cfg t o ch s = some (v, s') := by
  cases o with
  | acquire l =>
    have hl := ho l rfl
    exact ⟨.go, (), _, if_pos hl⟩
  | tryAcquire l =>
    by_cases hl : s.holder l = none
    · exact ⟨.go, true, _, if_pos hl⟩
    · exact ⟨.go, false, _, if_neg hl⟩
  | semAcquire =>
    by_cases hpermits : 0 < s.permits
    · exact ⟨.go, true, _, if_pos hpermits⟩
    · exact ⟨.timeout, false, s, if_pos (Nat.eq_zero_of_not_pos hpermits)⟩
  | scanIdle => exact ⟨.liveness fun _ => .alive, _, _, rfl⟩
  | openConnection => exact ⟨.opened (.ok ()), _, _, rfl⟩
  | rfcEnd conn f kwargs =>
    cases hbackend : cfg.backend with
    | none => exact ⟨.answer (.ok []), .ok [], s, by simp [Shared.perform, hbackend]⟩
    | some answer =>
      exact ⟨.answer (.ok []), answer f kwargs, s, by simp [Shared.perform, hbackend]⟩
  | tokenUrlsafe =>
    obtain ⟨id, hid⟩ := exists_fresh s.tokens
    exact ⟨.token id, id, _, if_neg hid⟩
  | removeIfCurrent id a =>
    by_cases ha : s.active id = some a
    · exact ⟨.go, true, _, if_pos ha⟩
    · exact ⟨.go, false, _, if_neg ha⟩
  | removeIfExpired id a cutoff =>
    by_cases ha : s.active id ≠ some a ∨ cutoff ≤ s.lastUsed a.ref
    · exact ⟨.go, false, _, if_pos ha⟩
    · exact ⟨.go, true, _, if_neg ha⟩
  | monotonic => exact ⟨.time s.clock, s.clock, _, if_pos (Int.le_refl _)⟩
  | cacheGet id key => exact ⟨.time s.clock, _, _, if_pos (Int.le_refl _)⟩
  | cacheSet id key value => exact ⟨.time s.clock, (), _, if_pos (Int.le_refl _)⟩
  | _ => exact ⟨.go, _, _, rfl⟩

end Blocking

section Order

variable {cfg : AppSettings} {Request Reply : Type} {program : Request → Program Effects Reply}
  {w : Hands cfg program} {t u : ℕ} {l l' : LockId}

/-- A thread that waits for a lock does not have it. -/
theorem Custody.MayLock.notMem {g : Custody} (h : g.MayLock l) : l ∉ g.locks := by
  unfold Custody.MayLock at h
  intro hl
  split at h
  · rw [h.1] at hl
    cases hl
  · rename_i hactive
    exact hactive (h l hl)

/-- The order of the locks: first one transaction's, then one other. -/
theorem Custody.MayLock.order {g : Custody} (h : g.MayLock l) (hl' : l' ∈ g.locks) :
    l'.isActive = true ∧ l.isActive = false := by
  unfold Custody.MayLock at h
  split at h
  · rw [h.1] at hl'
    cases hl'
  · rename_i hactive
    exact ⟨h l' hl', Bool.eq_false_of_not_eq_true hactive⟩

def Custody.OneTransaction (g : Custody) : Prop := g.locks.countP LockId.isActive ≤ 1

theorem oneTransaction_step (limits : ResultLimitPolicy) (g : Custody) (o : Op) (v : o.Res)
    (hg : g.OneTransaction) (hallowed : g.allows limits o) :
    (g.after limits o v).OneTransaction := by
  have htake : ∀ l, g.MayLock l → (l :: g.locks).countP LockId.isActive ≤ 1 := by
    intro l hmay
    rw [List.countP_cons]
    unfold Custody.MayLock at hmay
    split at hmay
    · rw [hmay.1, List.countP_nil]
      split <;> omega
    · rename_i hactive
      rw [if_neg hactive]
      exact hg
  unfold Custody.OneTransaction
  cases hmoves : o.movesLocks with
  | false =>
    rw [after_locks limits g v hmoves]
    exact hg
  | true =>
    cases o with
    | acquire l => exact htake l hallowed.2.2
    | tryAcquire l =>
      cases v with
      | false => exact hg
      | true => exact htake l hallowed.2.2.2
    | release l =>
      have hsub : (g.locks.erase l).Sublist g.locks := List.erase_sublist
      exact Nat.le_trans (hsub.countP_le) hg
    | _ => cases hmoves

theorem Hands.oneTransaction (h : w.Reachable) (t : ℕ) : (w.locals t).OneTransaction :=
  local_invariant (Nat.zero_le _) (fun g o v hg hallowed =>
    oneTransaction_step cfg.limits g o v hg hallowed) h t

theorem Custody.OneTransaction.eq {g : Custody} (hg : g.OneTransaction) {ref ref' : ℕ}
    (h : .active ref ∈ g.locks) (h' : .active ref' ∈ g.locks) :
    LockId.active ref = .active ref' := by
  unfold Custody.OneTransaction at hg
  rw [List.countP_eq_length_filter] at hg
  have hmem : LockId.active ref ∈ g.locks.filter LockId.isActive := List.mem_filter.mpr ⟨h, rfl⟩
  have hmem' : LockId.active ref' ∈ g.locks.filter LockId.isActive := List.mem_filter.mpr ⟨h', rfl⟩
  cases hfilter : g.locks.filter LockId.isActive with
  | nil => rw [hfilter] at hmem; cases hmem
  | cons l ls =>
    rw [hfilter] at hg hmem hmem'
    have hnil : ls = [] := List.eq_nil_of_length_eq_zero (by simpa using hg)
    subst hnil
    rw [List.mem_singleton.mp hmem, List.mem_singleton.mp hmem']

end Order

section Deadlock

variable {cfg : AppSettings} {c : Run cfg} {t : ℕ}

/-- Nothing hangs, in any state of any run. -/
structure DeadlockFree (c : Run cfg) : Prop where
  /-- While a request is unfinished, some thread can go on. -/
  progress : ∀ (t : ℕ) (request : Request) (o : Op)
    (next : o.Res → Program Effects (Except PyExc Answer)),
    c.threads[t]? = some (request, .call o next) → ∃ u o v c', Performs c u o v c'
  /-- A thread never waits for a lock that it holds itself. -/
  not_own : ∀ (t : ℕ) (request : Request) (l : LockId)
    (next : Unit → Program Effects (Except PyExc Answer)),
    c.threads[t]? = some (request, .call (.acquire l) next) → c.shared.holder l ≠ some t
  /-- It never holds the locks of two transactions. -/
  one_transaction : ∀ (t ref ref' : ℕ), c.shared.holder (.active ref) = some t →
    c.shared.holder (.active ref') = some t → ref = ref'
  /-- It waits for the lock of a transaction without any other. -/
  transaction_first : ∀ (t : ℕ) (request : Request) (ref : ℕ)
    (next : Unit → Program Effects (Except PyExc Answer)),
    c.threads[t]? = some (request, .call (.acquire (.active ref)) next) →
    ∀ l, c.shared.holder l ≠ some t
  /-- It waits for a permit without any lock. -/
  permit_first : ∀ (t : ℕ) (request : Request)
    (next : Bool → Program Effects (Except PyExc Answer)),
    c.threads[t]? = some (request, .call .semAcquire next) → ∀ l, c.shared.holder l ≠ some t

theorem allowed_of_call (h : Reachable c) {request : Request} {o : Op}
    {next : o.Res → Program Effects (Except PyExc Answer)}
    (hthread : c.threads[t]? = some (request, .call o next)) :
    ((hands c).locals t).allows cfg.limits o :=
  (h.disciplined (P := fun _ => custody cfg.limits) (@program_follows cfg) t request _ hthread).1

theorem mem_locks_iff (h : Reachable c) (l : LockId) :
    l ∈ ((hands c).locals t).locks ↔ c.shared.holder l = some t :=
  (Hands.locksHeld (hands_reachable (@program_follows cfg) h) t).2 l

/-- A thread that holds a lock has not returned. -/
theorem unfinished_of_holder (h : Reachable c) {l : LockId} (hl : c.shared.holder l = some t) :
    ∃ request o next, c.threads[t]? = some (request, .call o next) := by
  have hmem := (mem_locks_iff h l).mpr hl
  have hlt : t < c.threads.length := by
    by_contra hle
    rw [(hands_reachable (@program_follows cfg) h).unborn (Nat.le_of_not_lt hle)] at hmem
    cases hmem
  obtain ⟨⟨request, p⟩, hthread⟩ : ∃ thread, c.threads[t]? = some thread :=
    ⟨_, List.getElem?_eq_getElem hlt⟩
  cases p with
  | call o next => exact ⟨request, o, next, hthread⟩
  | ret reply =>
    have hfollows := h.disciplined (P := fun _ => custody cfg.limits) (@program_follows cfg) t
      request _ hthread
    have houtcome : ((hands c).locals t).Outcome cfg reply := hfollows
    rw [houtcome.2.1] at hmem
    cases hmem

/-- A thread that cannot go on waits for a lock that another thread holds. -/
theorem waits_of_stuck (hstuck : ∀ u o v c', ¬ Performs c u o v c') {request : Request} {o : Op}
    {next : o.Res → Program Effects (Except PyExc Answer)}
    (hthread : c.threads[t]? = some (request, .call o next)) :
    ∃ l u, o = .acquire l ∧ c.shared.holder l = some u := by
  by_contra hfree
  have ho : ∀ l, o = .acquire l → c.shared.holder l = none := by
    intro l hl
    cases hholder : c.shared.holder l with
    | none => rfl
    | some u => exact absurd ⟨l, u, hl, hholder⟩ hfree
  obtain ⟨ch, v, s, hperform⟩ := perform_of_free cfg t c.shared ho
  exact hstuck t o v _ (.mk hthread hperform)

/-- Who holds a lock that is not a transaction's can go on: it waits for no other lock. -/
theorem active_of_stuck (h : Reachable c) (hstuck : ∀ u o v c', ¬ Performs c u o v c') {l : LockId}
    (hl : c.shared.holder l = some t) : l.isActive = true ∧
      ∃ l' u, l'.isActive = false ∧ c.shared.holder l' = some u := by
  obtain ⟨request, o, next, hthread⟩ := unfinished_of_holder h hl
  obtain ⟨l', u, rfl, hholder⟩ := waits_of_stuck hstuck hthread
  obtain ⟨_, _, hmay⟩ := allowed_of_call h hthread
  obtain ⟨hactive, hplain⟩ := hmay.order ((mem_locks_iff h l).mpr hl)
  exact ⟨hactive, l', u, hplain, hholder⟩

/-- While a request is unfinished, some thread can go on. -/
theorem exists_performs (h : Reachable c) {request : Request} {o : Op}
    {next : o.Res → Program Effects (Except PyExc Answer)}
    (hthread : c.threads[t]? = some (request, .call o next)) : ∃ u o v c', Performs c u o v c' := by
  by_contra hnone
  have hstuck : ∀ u o v c', ¬ Performs c u o v c' := fun u o v c' hp => hnone ⟨u, o, v, c', hp⟩
  -- the holder of the lock waits for a plain one, and the holder of that for nothing
  obtain ⟨l, u, rfl, hholder⟩ := waits_of_stuck hstuck hthread
  obtain ⟨_, l', u', hplain, hholder'⟩ := active_of_stuck h hstuck hholder
  obtain ⟨hactive, _⟩ := active_of_stuck h hstuck hholder'
  rw [hplain] at hactive
  cases hactive

/-- However the requests interleave, they all return. -/
theorem finishes_of_reachable {Q : Run cfg → Prop} (h : Reachable c)
    (hq : ∀ d, Leads c d → d.Returned → Q d) : Finishes Q c := by
  apply finishes_of_progress
  · intro d hworks hunfinished
    obtain ⟨t, ht⟩ := not_forall.mp hunfinished
    obtain ⟨request, hrequest⟩ := not_forall.mp ht
    obtain ⟨p, hp⟩ := not_forall.mp hrequest
    obtain ⟨hthread, hopen⟩ := Classical.not_imp.mp hp
    cases p with
    | ret reply => exact absurd ⟨reply, rfl⟩ hopen
    | call o next => exact exists_performs (h.leads hworks.leads) hthread
  · intro d hworks hreturned
    exact hq d hworks.leads hreturned

theorem deadlock_free (h : Reachable c) : DeadlockFree c := by
  constructor
  · intro t request o next hthread
    exact exists_performs h hthread
  · intro t request l next hthread hholder
    obtain ⟨_, _, hmay⟩ := allowed_of_call h hthread
    exact hmay.notMem ((mem_locks_iff h l).mpr hholder)
  · intro t ref ref' href href'
    have hone := Hands.oneTransaction (hands_reachable (@program_follows cfg) h) t
    have hsame := hone.eq ((mem_locks_iff h _).mpr href) ((mem_locks_iff h _).mpr href')
    cases hsame
    rfl
  · intro t request ref next hthread l hholder
    obtain ⟨_, _, hmay⟩ := allowed_of_call h hthread
    have hactive := (hmay.order ((mem_locks_iff h l).mpr hholder)).2
    cases hactive
  · intro t request next hthread l hholder
    obtain ⟨_, _, hlocks, _⟩ := allowed_of_call h hthread
    have hmem := (mem_locks_iff h l).mpr hholder
    rw [hlocks] at hmem
    cases hmem

theorem deadlock_free_commit :
    ∃ c, execute (server sampleSettings).initial
        (sampleWrite 0 ++ script 1 (.commit "T" true) (commitAnswers.take 9)) = some c ∧
      DeadlockFree c := by
  have hrun : (execute (server sampleSettings).initial
      (sampleWrite 0 ++ script 1 (.commit "T" true) (commitAnswers.take 9))).isSome = true := by
    decide +kernel
  obtain ⟨c, hc⟩ := Option.isSome_iff_exists.mp hrun
  exact ⟨c, hc, deadlock_free (execute_reachable hc)⟩

end Deadlock

end RfcMcp
