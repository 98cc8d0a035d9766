import RfcMcp.Expiry.Programs
import RfcMcp.Mediation.Protocol
import RfcMcp.Writes.State

namespace RfcMcp

open Framework Framework.Protocol

/-- What a sweep does to an expired transaction, the newest step first: out of the table, rolled
back, its connection back to the pool or closed, its permit returned. `r` is the answer to the
ROLLBACK. -/
def reclaimSteps (e : Entry) (cutoff : Time) (r : Except PyExc PyDict) : Trace Effects :=
  let removal : Trace Effects :=
    [⟨.rfcEnd e.2.connection "BAPI_TRANSACTION_ROLLBACK" [], r⟩,
      ⟨.rfcBegin e.2.connection (.expire e) "BAPI_TRANSACTION_ROLLBACK" [], ()⟩,
      ⟨.release .transactions, ()⟩, ⟨.removeIfExpired e.1 e.2 cutoff, true⟩]
  match r with
  | .ok _ =>
    [⟨.semRelease, ()⟩, ⟨.release .pool, ()⟩, ⟨.appendIdle e.2.connection, ()⟩,
      ⟨.acquire .pool, ()⟩, ⟨.poolRelease e.2.connection true (some e), ()⟩] ++ removal
  | .error exc =>
    [⟨.semRelease, ()⟩, ⟨.closeConnection e.2.connection, ()⟩,
      ⟨.poolRelease e.2.connection false (some e), ()⟩,
      ⟨.log (ExecutionInvoker.warning "ROLLBACK FAILED transaction_id=%s reason=expired" [e.1]
        (some exc)), ()⟩] ++ removal

/-- The thread has reclaimed `e`. -/
def Reclaimed (trace : Trace Effects) (e : Entry) : Prop :=
  ∃ cutoff r, reclaimSteps e cutoff r <:+: trace

def AllReclaimed (trace : Trace Effects) : Prop := ∀ e, Expired trace e → Reclaimed trace e

def reclaimAreas : List Area := [.lock, .clock, .expiry, .rfc, .giveBack, .log]

/-- A sweep from its beginning to its end, and what precedes it in a request. -/
structure Swept (ttl : Time) (trace : Trace Effects) : Prop where
  areas : ∀ did ∈ trace, did.1.area ∈ reclaimAreas
  dealt : AllDealt ttl trace
  reclaimed : AllReclaimed trace
  begun : ∃ now candidates, Sweep trace now candidates

/-- The thread began with a sweep. -/
def SweptFirst (ttl : Time) (trace : Trace Effects) : Prop :=
  ∃ sweep, Swept ttl sweep ∧ sweep <:+ trace

section Traces

variable {trace : Trace Effects} {e : Entry} {did : Σ o : Op, o.Res} {ttl : Time}

theorem Reclaimed.append (h : Reclaimed trace e) (later : Trace Effects) :
    Reclaimed (later ++ trace) e := by
  obtain ⟨cutoff, r, hsteps⟩ := h
  exact ⟨cutoff, r, hsteps.trans (List.suffix_append later trace).isInfix⟩

theorem AllReclaimed.cons (h : AllReclaimed trace) (hdid : did.1.expires did.2 = []) :
    AllReclaimed (did :: trace) := by
  intro e he
  obtain ⟨cutoff, hremoved⟩ := he
  cases List.mem_cons.mp hremoved with
  | inl hnow =>
    rw [← hnow] at hdid
    cases hdid
  | inr hpast => exact (h e ⟨cutoff, hpast⟩).append [did]

/-- Only `e` itself is taken out of the table in these steps. -/
theorem removed_of_reclaimSteps {cutoff cutoff' : Time} {r : Except PyExc PyDict} {e' : Entry}
    (h : ⟨.removeIfExpired e'.1 e'.2 cutoff', true⟩ ∈ reclaimSteps e cutoff r) : e' = e := by
  have hsame : e'.1 = e.1 ∧ e'.2 = e.2 := by
    cases r <;> simp [reclaimSteps] at h <;> exact ⟨h.1, h.2.1⟩
  exact Prod.ext hsame.1 hsame.2

theorem AllReclaimed.reclaim (h : AllReclaimed trace) (cutoff : Time) (r : Except PyExc PyDict) :
    AllReclaimed (reclaimSteps e cutoff r ++ trace) := by
  intro e' he
  obtain ⟨cutoff', hremoved⟩ := he
  cases List.mem_append.mp hremoved with
  | inl hnow =>
    rw [removed_of_reclaimSteps hnow]
    exact ⟨cutoff, r, (List.prefix_append _ trace).isInfix⟩
  | inr hpast => exact (h e' ⟨cutoff', hpast⟩).append _

theorem SweptFirst.cons (h : SweptFirst ttl trace) : SweptFirst ttl (did :: trace) := by
  obtain ⟨sweep, hswept, hsuffix⟩ := h
  exact ⟨sweep, hswept, hsuffix.trans (List.suffix_cons did trace)⟩

end Traces

section Programs

variable {α : Type} {cfg : AppSettings} {trace : Trace Effects} {e : Entry} {cutoff : Time}

/-- Within a sweep. -/
@[reducible] def insideSweep : Protocol Effects := tracing fun o _ => o.area ∈ reclaimAreas

theorem reclaims_op {o : Op} {ok : o.Res → Trace Effects → Prop}
    {err : PyExc → Trace Effects → Prop}
    (ho : reclaimAreas.contains o.area = true) (hok : ∀ v, ok v (⟨o, v⟩ :: trace)) :
    insideSweep.Meets (perform o) ok err trace :=
  traced_op (List.contains_iff_mem.mp ho) hok

/-- What follows the removal, up to the note in the log. -/
theorem reclaims_removed (h : AllReclaimed trace) : insideSweep.Meets
    (do
      let reusable ← Action.tryExcept
        (do
          let _ ← Transaction.rollback e.2.connection (.expire e)
          pure true)
        fun exc => do
          log (ExecutionInvoker.warning "ROLLBACK FAILED transaction_id=%s reason=expired" [e.1]
            (some exc))
          pure false
      (connectionPool cfg).release e.2.connection reusable (some e)
      log (ExecutionInvoker.warning "TRANSACTION EXPIRED transaction_id=%s" [e.1]) : Act Unit)
    (fun _ => AllReclaimed) (fun _ _ => False)
    (⟨.release .transactions, ()⟩ :: ⟨.removeIfExpired e.1 e.2 cutoff, true⟩ :: trace) := by
  have hdone : ∀ r, AllReclaimed
      (⟨.log (ExecutionInvoker.warning "TRANSACTION EXPIRED transaction_id=%s" [e.1]), ()⟩ ::
        (reclaimSteps e cutoff r ++ trace)) := by
    intro r
    exact (h.reclaim cutoff r).cons rfl
  rw [meets_bind, meets_tryExcept, meets_bind]
  unfold Transaction.rollback Conn.call
  rw [meets_bind]
  refine reclaims_op rfl fun _ => ?_
  rw [meets_bind]
  refine reclaims_op rfl fun r => ?_
  rw [meets_ofExcept]
  constructor
  · intro raw hraw
    subst hraw
    rw [meets_pure, meets_bind]
    change insideSweep.Meets (ConnectionPool.release e.2.connection true (some e)) _ _ _
    unfold ConnectionPool.release withLock
    rw [meets_bind]
    refine reclaims_op rfl fun _ => ?_
    rw [meets_tryFinally, if_pos rfl, meets_bind]
    refine reclaims_op rfl fun _ => ?_
    rw [meets_tryFinally]
    refine reclaims_op rfl fun _ => reclaims_op rfl fun _ => reclaims_op rfl fun _ => ?_
    refine reclaims_op (o := .log _) rfl fun _ => ?_
    exact hdone (.ok raw)
  · intro exc hexc
    subst hexc
    rw [meets_bind]
    refine reclaims_op (o := .log _) rfl fun _ => ?_
    rw [meets_pure, meets_bind]
    change insideSweep.Meets (ConnectionPool.release e.2.connection false (some e)) _ _ _
    unfold ConnectionPool.release
    rw [meets_bind]
    refine reclaims_op rfl fun _ => ?_
    rw [meets_tryFinally, if_neg Bool.false_ne_true]
    refine reclaims_op (o := .closeConnection _) rfl fun _ => reclaims_op rfl fun _ => ?_
    refine reclaims_op (o := .log _) rfl fun _ => ?_
    exact hdone (.error exc)

theorem reclaims_expireLocked (h : AllReclaimed trace) : insideSweep.Meets
    (ExecutionInvoker.expireLocked (connectionPool cfg) cutoff e) (fun _ => AllReclaimed)
    (fun _ _ => False) trace := by
  unfold ExecutionInvoker.expireLocked withLock
  rw [meets_bind, meets_bind]
  refine reclaims_op rfl fun _ => ?_
  have hlocked : AllReclaimed (⟨.acquire .transactions, ()⟩ :: trace) :=
    h.cons rfl
  rw [meets_tryFinally]
  refine reclaims_op rfl fun removed => reclaims_op rfl fun _ => ?_
  cases removed with
  | true =>
    rw [if_pos rfl]
    exact reclaims_removed hlocked
  | false =>
    rw [if_neg Bool.false_ne_true, meets_pure]
    have hkept : AllReclaimed (⟨.removeIfExpired e.1 e.2 cutoff, false⟩ ::
        ⟨.acquire .transactions, ()⟩ :: trace) := hlocked.cons rfl
    exact hkept.cons rfl

theorem reclaims_expireCandidate (h : AllReclaimed trace) : insideSweep.Meets
    (ExecutionInvoker.expireCandidate (connectionPool cfg) cutoff e) (fun _ => AllReclaimed)
    (fun _ _ => False) trace := by
  unfold ExecutionInvoker.expireCandidate
  rw [meets_bind]
  refine reclaims_op rfl fun last => ?_
  have hread : AllReclaimed (⟨.readLastUsed e.2, last⟩ :: trace) :=
    h.cons rfl
  by_cases hused : cutoff ≤ last
  · rw [if_pos hused]
    exact hread
  · rw [if_neg hused, meets_bind]
    refine reclaims_op rfl fun locked => ?_
    have htried : AllReclaimed (⟨.tryAcquire (.active e.2.ref), locked⟩ ::
        ⟨.readLastUsed e.2, last⟩ :: trace) := hread.cons rfl
    cases locked with
    | false => exact htried
    | true =>
      rw [if_pos rfl, meets_tryFinally]
      refine (reclaims_expireLocked htried).mono (fun _ trace hdone => ?_)
        fun _ _ hfalse => hfalse.elim
      exact reclaims_op rfl fun _ => hdone.cons rfl

/-- A sweep reclaims whatever it takes out of the table. -/
theorem reclaims_expireTransactions (h : AllReclaimed trace) : insideSweep.Meets
    (ExecutionInvoker.expireTransactions cfg (connectionPool cfg))
    (fun _ trace => AllReclaimed trace ∧ ∃ now candidates, Sweep trace now candidates)
    (fun _ _ => False) trace := by
  unfold ExecutionInvoker.expireTransactions withLock
  rw [meets_bind]
  refine reclaims_op rfl fun now => ?_
  rw [meets_bind, meets_bind]
  refine reclaims_op rfl fun _ => ?_
  rw [meets_tryFinally]
  refine reclaims_op rfl fun candidates => reclaims_op rfl fun _ => ?_
  have hbegun : AllReclaimed (⟨.release .transactions, ()⟩ :: ⟨.snapshot, candidates⟩ ::
      ⟨.acquire .transactions, ()⟩ :: ⟨.monotonic, now⟩ :: trace) := by
    have hclock : AllReclaimed (⟨.monotonic, now⟩ :: trace) := h.cons rfl
    have hlock : AllReclaimed (⟨.acquire .transactions, ()⟩ :: ⟨.monotonic, now⟩ :: trace) :=
      hclock.cons rfl
    have hlook : AllReclaimed (⟨.snapshot, candidates⟩ :: ⟨.acquire .transactions, ()⟩ ::
        ⟨.monotonic, now⟩ :: trace) := hlock.cons rfl
    exact hlook.cons rfl
  have hsweep : Sweep (⟨.release .transactions, ()⟩ :: ⟨.snapshot, candidates⟩ ::
      ⟨.acquire .transactions, ()⟩ :: ⟨.monotonic, now⟩ :: trace) now candidates :=
    Sweep.cons ⟨[], trace, rfl⟩
  have hstep : ∀ (e : Entry) (rest : List Entry) (trace : Trace Effects),
      AllReclaimed trace ∧ Sweep trace now candidates → insideSweep.Meets
        (ExecutionInvoker.expireCandidate (connectionPool cfg) (now - cfg.transactionTtl) e)
        (fun _ trace => AllReclaimed trace ∧ Sweep trace now candidates) (fun _ _ => False)
        trace := by
    intro e rest trace htrace
    have hkept : (tracing fun _ _ => True).Keeps (fun trace => Sweep trace now candidates)
        (ExecutionInvoker.expireCandidate (connectionPool cfg) (now - cfg.transactionTtl) e) :=
      keeps_tracing (fun _ _ _ => trivial) (fun _ _ h => h.cons) _
    refine (meets_both (hkept.meets trace htrace.2) (reclaims_expireCandidate htrace.1)).mono
      (fun _ _ hdone => hdone.symm) fun _ _ hdone => hdone.2
  refine (meets_forEach (fun _ trace => AllReclaimed trace ∧ Sweep trace now candidates) candidates
    _ ⟨hbegun, hsweep⟩ hstep).mono (fun _ _ hdone => ?_) fun _ _ hfalse => hfalse
  exact ⟨hdone.1, now, candidates, hdone.2⟩

end Programs

section Requests

variable {cfg : AppSettings} {trace : Trace Effects}

/-- Nothing is borrowed from the pool before a sweep is over. -/
@[reducible] def sweepFirst (cfg : AppSettings) : Protocol Effects :=
  tracing fun o trace => o = Op.semAcquire → SweptFirst cfg.transactionTtl trace

theorem keeps_sweptFirst {α : Type} (x : Act α) :
    (sweepFirst cfg).Keeps (SweptFirst cfg.transactionTtl) x := by
  apply keeps_tracing
  · intro o trace h _
    exact h
  · intro did trace h
    exact h.cons

theorem sweepFirst_expireTransactions (hlog : ∀ did ∈ trace, did.1.area = .log) :
    (sweepFirst cfg).Meets (ExecutionInvoker.expireTransactions cfg (connectionPool cfg))
      (fun _ => SweptFirst cfg.transactionTtl) (fun _ _ => False) trace := by
  have hdealt : AllDealt cfg.transactionTtl trace := by
    intro now candidates hsweep
    have hsnapshot : (⟨.snapshot, candidates⟩ : Σ o : Op, o.Res) ∈ trace :=
      hsweep.subset List.mem_cons_self
    cases hlog _ hsnapshot
  have hreclaimed : AllReclaimed trace := by
    intro e he
    obtain ⟨cutoff, hremoved⟩ := he
    cases hlog _ hremoved
  have hareas : ∀ did ∈ trace, did.1.area ∈ reclaimAreas := by
    intro did hdid
    rw [hlog did hdid]
    decide
  have hwithin : Within reclaimAreas
      (ExecutionInvoker.expireTransactions cfg (connectionPool cfg)) :=
    within_expireTransactions cfg
  have hkept : (sweepFirst cfg).Keeps (fun trace => ∀ did ∈ trace, did.1.area ∈ reclaimAreas)
      (ExecutionInvoker.expireTransactions cfg (connectionPool cfg)) := by
    refine hwithin.keeps fun o ho => ⟨fun trace htrace => ⟨fun heq => ?_, fun v did hdid => ?_⟩⟩
    · rw [heq] at ho
      exact absurd ho (by decide)
    · cases List.mem_cons.mp hdid with
      | inl hnow => rw [hnow]; exact ho
      | inr hpast => exact htrace did hpast
  have hboth := meets_both (sweeping_expireTransactions hdealt)
    (reclaims_expireTransactions hreclaimed)
  refine (meets_both hboth (hkept.meets trace hareas)).mono (fun _ trace hdone => ?_)
    fun _ _ hdone => hdone.1.1
  obtain ⟨⟨halldealt, hallreclaimed, hbegun⟩, hall⟩ := hdone
  exact ⟨trace, ⟨hall, halldealt, hallreclaimed, hbegun⟩, List.suffix_rfl⟩

/-- What goes on after the sweep, ends after it. -/
theorem sweepFirst_bind {α : Type} {f : Unit → Act α} (hlog : ∀ did ∈ trace, did.1.area = .log) :
    (sweepFirst cfg).Meets
      (ExecutionInvoker.expireTransactions cfg (connectionPool cfg) >>= f)
      (fun _ => SweptFirst cfg.transactionTtl) (fun _ => SweptFirst cfg.transactionTtl) trace := by
  rw [meets_bind]
  refine (sweepFirst_expireTransactions hlog).mono (fun a trace hdone => ?_)
    fun _ _ hfalse => hfalse.elim
  exact (keeps_sweptFirst (f a)).meets trace hdone

theorem sweepFirst_finishTransaction (hmode : cfg.policy.mode = .readWrite) (id : TxId)
    (action : ExecutionInvoker.ControlAction) : (sweepFirst cfg).Meets
      (do
        ExecutionPolicy.authorizeTransactionControl cfg.policy
        ExecutionInvoker.finishTransaction cfg (connectionPool cfg) id action : Act PyValue)
      (fun _ => SweptFirst cfg.transactionTtl) (fun _ => SweptFirst cfg.transactionTtl) [] := by
  unfold ExecutionPolicy.authorizeTransactionControl
  rw [meets_bind, if_neg (not_not.mpr hmode)]
  have hallowed : (Op.log ExecutionPolicy.controlAllowedRecord) = .semAcquire →
      SweptFirst cfg.transactionTtl [] := fun heq => by cases heq
  refine And.intro hallowed fun _ => ?_
  refine sweepFirst_bind fun did hdid => ?_
  rw [List.mem_singleton.mp hdid]
  rfl

/-- A request that sweeps does so before anything else that counts. -/
theorem sweepFirst_program (hmode : cfg.policy.mode = .readWrite) {request : Request}
    (hsweeps : request.sweeps = true) : (sweepFirst cfg).Follows
      (fun _ => SweptFirst cfg.transactionTtl) (request.program cfg (connectionPool cfg)) [] := by
  have hbind : ∀ {α β : Type} {x : Act α} {f : α → Act β}, (sweepFirst cfg).Meets x
      (fun _ => SweptFirst cfg.transactionTtl) (fun _ => SweptFirst cfg.transactionTtl) [] →
      (sweepFirst cfg).Follows (fun _ => SweptFirst cfg.transactionTtl) (x >>= f : Act β) [] := by
    intro α β x f hx
    have hmeets : (sweepFirst cfg).Meets (x >>= f : Act β) (fun _ => SweptFirst cfg.transactionTtl)
        (fun _ => SweptFirst cfg.transactionTtl) [] := by
      rw [meets_bind]
      exact hx.mono (fun a trace hdone => (keeps_sweptFirst (f a)).meets trace hdone)
        fun _ _ hdone => hdone
    refine Follows.mono hmeets fun r trace hdone => ?_
    cases r <;> exact hdone
  cases request with
  | callTransactional f parameters mode id => exact hbind (sweepFirst_bind (by simp))
  | commit id wait => exact hbind (sweepFirst_finishTransaction hmode id (.commit wait))
  | rollback id => exact hbind (sweepFirst_finishTransaction hmode id .rollback)
  | expireTransactions =>
    refine hbind ((sweepFirst_expireTransactions (by simp)).mono (fun _ _ hdone => hdone)
      fun _ _ hfalse => hfalse.elim)
  | _ => cases hsweeps

end Requests

end RfcMcp
