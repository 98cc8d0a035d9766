import RfcMcp.Footprint.Programs
import RfcMcp.Framework.Replay
import RfcMcp.Mcp.Server

namespace RfcMcp

open Framework Framework.Protocol Framework.System Framework.Program

section Protocol

variable (cfg : AppSettings)

/-- The lookups over the pool. -/
abbrev catalogCall : String → PyDict → Act PyDict := PooledCaller.call cfg (connectionPool cfg)

/-- `value` is what a lookup under this key has come to, with the answers in `mid`. -/
def LookedUp : (id : CacheId) → String → id.Value → Trace Effects → Prop
  | .search, key, value, mid => ∃ pattern group limit,
    FunctionCatalog.searchKey cfg.text pattern group limit = key ∧
    (FunctionCatalog.doSearch cfg (catalogCall cfg) pattern group limit).Replays mid (.ok value)
  | .interface, key, value, mid => ∃ name, cfg.text.upper name = key ∧
    (FunctionCatalog.doGetInterface cfg (catalogCall cfg) name).Replays mid (.ok value)

/-- Nothing is stored but what the thread has looked up. -/
def storeGuard (o : Op) (trace : Trace Effects) : Prop :=
  match o with
  | .cacheSet id key value => ∃ after mid before, LookedUp cfg id key value mid ∧
    trace = after ++ (mid.reverse ++ before)
  | _ => True

/-- Whatever has happened. -/
abbrev Anything (_ : Trace Effects) : Prop := True

end Protocol

section Programs

variable {cfg : AppSettings} {α : Type}

theorem storing_op {o : Op} (ho : o.area ≠ .cache) :
    (tracing (storeGuard cfg)).Keeps Anything (perform o) := by
  refine keeps_perform fun trace _ => ⟨?_, fun _ => trivial⟩
  cases o <;> first | exact trivial | exact absurd rfl ho

theorem storing_get (id : CacheId) (key : String) :
    (tracing (storeGuard cfg)).Keeps Anything (perform (.cacheGet id key)) :=
  keeps_perform fun _ _ => ⟨trivial, fun _ => trivial⟩

/-- Programs that have nothing to do with the caches. -/
theorem storing_within {areas : List Area} {x : Act α} (hx : Within areas x)
    (hareas : areas.contains .cache = false) : (tracing (storeGuard cfg)).Keeps Anything x := by
  refine hx.keeps fun o ho => storing_op fun h => ?_
  rw [h, ← List.contains_iff_mem, hareas] at ho
  cases ho

theorem storing_withLock {l : LockId} {x : Act α}
    (hx : (tracing (storeGuard cfg)).Keeps Anything x) :
    (tracing (storeGuard cfg)).Keeps Anything (withLock l x) :=
  keeps_bind (storing_op (by simp [Op.area])) fun _ =>
    keeps_tryFinally hx (storing_op (by simp [Op.area]))

/-- What is stored has been looked up right before. -/
theorem storing_getOrSet {id : CacheId} {key : String} {factory : Act id.Value}
    {areas : List Area} (hfactory : Within areas factory) (hareas : areas.contains .cache = false)
    (hlooked : ∀ mid value, factory.Replays mid (.ok value) → LookedUp cfg id key value mid) :
    (tracing (storeGuard cfg)).Keeps Anything (TTLCache.getOrSet id key factory) := by
  refine keeps_bind (storing_withLock (storing_get id key)) fun cached => ?_
  cases cached with
  | some value => exact keeps_pure value
  | none =>
    constructor
    intro trace _
    have hallowed : ∀ o trace, o.area ∈ areas → storeGuard cfg o trace := by
      intro o trace ho
      cases o <;> first | exact trivial | skip
      rw [← List.contains_iff_mem] at ho
      exact absurd (ho.symm.trans hareas) (by simp)
    rw [meets_bind]
    refine (meets_replays hfactory.area hallowed trace).mono ?_ fun _ _ _ => trivial
    rintro value _ ⟨mid, hreplays, rfl⟩
    have hset : (tracing (storeGuard cfg)).Meets (TTLCache.set id key value)
        (fun _ => Anything) (fun _ => Anything) (mid.reverse ++ trace) := by
      unfold TTLCache.set withLock
      rw [meets_bind]
      refine traced_op trivial fun _ => ?_
      rw [meets_tryFinally]
      refine traced_op ⟨[_], mid, trace, hlooked mid value hreplays, rfl⟩ fun _ => ?_
      exact traced_op trivial fun _ => trivial
    rw [meets_bind]
    exact hset.mono (fun _ _ _ => trivial) fun _ _ _ => trivial

theorem storing_search (pattern : String) (group : Option String) (limit : Int) :
    (tracing (storeGuard cfg)).Keeps Anything
      (FunctionCatalog.search cfg (catalogCall cfg) pattern group limit) := by
  have hwithin : Within [.lock, .borrow, .giveBack, .rfc]
      (FunctionCatalog.doSearch cfg (catalogCall cfg) pattern group limit) :=
    within_bind (within_pooledCall cfg _ _) fun _ => within_ofExcept _
  exact storing_getOrSet hwithin rfl fun _ _ h => ⟨pattern, group, limit, rfl, h⟩

theorem storing_getInterface (f : String) : (tracing (storeGuard cfg)).Keeps Anything
    (ExecutionInvoker.getInterface cfg (connectionPool cfg) f) :=
  storing_getOrSet (within_doGetInterface cfg (within_pooledCall cfg) f) rfl
    fun _ _ h => ⟨f, rfl, h⟩

theorem storing_invokerCall (f : String) (parameters : PyDict) (mode : String) :
    (tracing (storeGuard cfg)).Keeps Anything
      (ExecutionInvoker.call cfg (connectionPool cfg) f parameters mode) := by
  refine keeps_ite (keeps_raise _) ?_
  refine keeps_bind (storing_within (within_authorize cfg _ _ _) rfl) fun _ => ?_
  refine keeps_bind (storing_getInterface f) fun interface => ?_
  refine keeps_bind (keeps_ofExcept _) fun kwargs => ?_
  have hread : Within [.lock, .borrow, .giveBack, .rfc, .log]
      (ConnectionPool.acquire cfg fun conn =>
        ExecutionInvoker.callOnConnection cfg conn .read f kwargs mode none) :=
    within_acquire cfg rfl fun conn => (within_callOnConnection cfg rfl).mono rfl
  refine keeps_bind (storing_within hread rfl) fun raw => ?_
  exact storing_within (within_applyResultLimits cfg f mode raw) rfl

theorem storing_readInclude (className : String) (includeName : PyValue) :
    (tracing (storeGuard cfg)).Keeps Anything
      (SourceReader.readInclude cfg (connectionPool cfg) className includeName) := by
  have hread : (tracing (storeGuard cfg)).Keeps Anything (ExecutionInvoker.call cfg
    (connectionPool cfg) "RPY_PROGRAM_READ" [("PROGRAM_NAME", includeName)] "read") :=
    storing_invokerCall _ _ _
  refine keeps_bind (keeps_tryExcept (keeps_bind hread fun _ => keeps_pure _) fun exc => ?_) ?_
  · refine keeps_ite (keeps_bind (storing_op ?_) fun _ => keeps_pure _) (keeps_raise _)
    simp [Op.area]
  · intro outcome
    cases outcome with
    | error exc => exact keeps_pure _
    | ok result => exact keeps_bind (keeps_ofExcept _) fun _ => keeps_pure _

theorem storing_readViaRfc (objectType : ObjectType) (objectName : String) :
    (tracing (storeGuard cfg)).Keeps Anything
      (readViaRfc cfg (connectionPool cfg) objectType objectName) := by
  cases objectType with
  | program => exact keeps_bind (storing_invokerCall _ _ _) fun _ => keeps_ofExcept _
  | functionModule => exact keeps_bind (storing_invokerCall _ _ _) fun _ => keeps_ofExcept _
  | class_ =>
    refine keeps_bind (storing_invokerCall _ _ _) fun cpResult => ?_
    refine keeps_bind (keeps_ofExcept _) fun row => ?_
    refine keeps_bind (keeps_ofExcept _) fun rows => ?_
    refine keeps_bind (keeps_ofExcept _) fun names => ?_
    refine keeps_ite (keeps_ofExcept _) ?_
    exact keeps_bind (keeps_collect (storing_readInclude objectName)) fun _ => keeps_pure _

theorem storing_write (f : String) (parameters : PyDict) (id : Option TxId) :
    (tracing (storeGuard cfg)).Keeps Anything
      (ExecutionInvoker.write cfg (connectionPool cfg) f parameters id) := by
  refine keeps_bind (storing_within (within_authorize cfg _ _ _) rfl) fun _ => ?_
  refine keeps_bind (storing_getInterface f) fun interface => ?_
  refine keeps_bind (keeps_ofExcept _) fun kwargs => ?_
  refine keeps_bind (storing_within (within_getOrCreateTransaction cfg id) rfl) fun e => ?_
  have hlocked : Within [.lock, .find, .rfc, .log, .remove, .giveBack, .clock, .use]
      (ExecutionInvoker.writeLocked cfg (connectionPool cfg) f kwargs "write" e) := by
    refine within_bind (within_withLock rfl (within_op rfl)) fun current => ?_
    refine within_ite (within_raise _) (within_bind (within_tryExcept ?_ fun exc => ?_) ?_)
    · refine within_bind ((within_callOnConnection cfg rfl).mono rfl) fun raw => ?_
      exact (within_applyResultLimits cfg f "write" raw).mono rfl
    · exact within_bind ((within_discardTransaction cfg e).mono rfl) fun _ => within_raise exc
    · intro value
      refine within_bind (within_op rfl) fun now => ?_
      exact within_bind (within_op rfl) fun _ => within_pure value
  exact keeps_bind (storing_withLock (storing_within hlocked rfl)) fun _ => keeps_pure _

theorem storing_answer {x : Act α} (answer : α → Answer)
    (hx : (tracing (storeGuard cfg)).Keeps Anything x) :
    (tracing (storeGuard cfg)).Follows (fun (_ : Except PyExc Answer) _ => True)
      (x >>= fun a => pure (answer a) : Act Answer) [] := by
  have hmeets := (keeps_bind hx fun a => keeps_pure (answer a)).meets [] trivial
  exact Follows.mono hmeets fun _ _ _ => trivial

theorem program_stores (request : Request) :
    (tracing (storeGuard cfg)).Follows (fun (_ : Except PyExc Answer) _ => True)
      (request.program cfg (connectionPool cfg)) [] := by
  have hexpire := @storing_within cfg _ _ _ (within_expireTransactions cfg) rfl
  have hcontrol := @storing_within cfg _ _ _ (within_authorizeTransactionControl cfg) rfl
  cases request with
  | call f parameters mode => exact storing_answer _ (storing_invokerCall f parameters mode)
  | callTransactional f parameters mode id =>
    refine storing_answer (fun answer : PyValue × Option TxId => .written answer.1 answer.2) ?_
    refine keeps_bind hexpire fun _ => keeps_ite (keeps_ite (keeps_raise _) ?_) ?_
    · exact keeps_bind (storing_invokerCall f parameters mode) fun _ => keeps_pure _
    · exact keeps_ite (keeps_raise _) (storing_write f parameters id)
  | commit id wait =>
    exact storing_answer _ (keeps_bind hcontrol fun _ =>
      storing_within (within_finishTransaction cfg id _) rfl)
  | rollback id =>
    exact storing_answer _ (keeps_bind hcontrol fun _ =>
      storing_within (within_finishTransaction cfg id _) rfl)
  | search pattern group limit => exact storing_answer _ (storing_search pattern group limit)
  | getInterface f => exact storing_answer _ (storing_getInterface f)
  | readSource objectType name => exact storing_answer _ (storing_readViaRfc objectType name)
  | expireTransactions => exact storing_answer (fun _ => .done) hexpire
  | close => exact storing_answer (fun _ => .done) (storing_within (within_close cfg) rfl)
  | closeAll => exact storing_answer (fun _ => .done) (storing_within within_closeAll rfl)

end Programs

end RfcMcp
