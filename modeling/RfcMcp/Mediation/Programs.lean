import RfcMcp.Mediation.Protocol

namespace RfcMcp

open Framework Framework.Protocol

section Programs

variable {cfg : AppSettings} {request : Request} {g : Clearance} {α : Type}

theorem mediated_connCall {conn : Conn} {p : Purpose} {f : String} {kwargs : PyDict}
    (hmay : request.MayIssue cfg g f kwargs p) :
    Mediated cfg request (conn.call p f kwargs) g := by
  refine mediated_bind (mediated_begin hmay) fun _ _ _ => ?_
  exact mediated_bind (mediated_op rfl) fun _ _ _ => mediated_ofExcept _

section Pool

theorem mediated_createConnection :
    Mediated cfg request (ConnectionPool.createConnection cfg) g := by
  refine mediated_ite ?_ (mediated_raise _)
  refine mediated_bind (mediated_ofExcept _) fun _ _ _ => ?_
  refine mediated_bind (mediated_op rfl) fun opened _ _ => ?_
  cases opened with
  | ok conn => exact mediated_pure _
  | error exc => exact mediated_raise _

theorem mediated_openAttempts (attempt retries : Nat) :
    Mediated cfg request (ConnectionPool.openAttempts cfg attempt retries) g := by
  induction retries generalizing attempt g with
  | zero => exact mediated_createConnection
  | succ retries ih =>
    refine mediated_tryExcept mediated_createConnection fun exc _ _ => ?_
    refine mediated_ite ?_ (mediated_raise _)
    exact mediated_bind (mediated_op rfl) fun _ _ _ => ih _

theorem mediated_checkout : Mediated cfg request (ConnectionPool.checkout cfg) g := by
  unfold ConnectionPool.checkout
  refine mediated_bind (mediated_op rfl) fun acquired _ _ => ?_
  refine mediated_ite (mediated_tryExcept ?_ fun exc _ _ => ?_) (mediated_raise _)
  · refine mediated_bind (mediated_section rfl) fun candidate _ _ => ?_
    cases candidate with
    | some conn => exact mediated_pure _
    | none => exact mediated_openAttempts 0 _
  · exact mediated_bind (mediated_op rfl) fun _ _ _ => mediated_raise _

theorem mediated_release (conn : Conn) (reusable : Bool) (luw : Option Entry) :
    Mediated cfg request (ConnectionPool.release conn reusable luw) g := by
  unfold ConnectionPool.release
  refine mediated_bind (mediated_op rfl) fun _ _ _ => ?_
  refine mediated_tryFinally ?_ fun _ _ => mediated_op rfl
  exact mediated_ite (mediated_section rfl) (mediated_op rfl)

theorem mediated_acquire {body : Conn → Act α}
    (hbody : ∀ conn g', g.Extends g' → Mediated cfg request (body conn) g') :
    Mediated cfg request (ConnectionPool.acquire cfg body) g := by
  unfold ConnectionPool.acquire
  refine mediated_bind mediated_checkout fun conn g' hg => ?_
  refine mediated_bind (mediated_tryExcept (hbody conn g' hg) fun exc _ _ => ?_) fun _ _ _ => ?_
  · exact mediated_bind (mediated_release _ _ _) fun _ _ _ => mediated_raise _
  · exact mediated_bind (mediated_release _ _ _) fun _ _ _ => mediated_pure _

theorem mediated_pooledCall {f : String} {params : PyDict} (hf : f ∈ discoveryFunctions) :
    Mediated cfg request (PooledCaller.call cfg (connectionPool cfg) f params) g := by
  refine mediated_acquire fun conn _ _ => ?_
  exact mediated_tryExcept (mediated_connCall hf) fun _ _ _ => mediated_raise _

end Pool

section Discovery

theorem mediated_getOrSet {id : CacheId} {key : String} {factory : Act id.Value}
    (hfactory : ∀ g', g.Extends g' → Mediated cfg request factory g') :
    Mediated cfg request (TTLCache.getOrSet id key factory) g := by
  unfold TTLCache.getOrSet
  refine mediated_bind (mediated_section rfl) fun cached g' hg => ?_
  cases cached with
  | some value => exact mediated_pure _
  | none =>
    refine mediated_bind (hfactory g' hg) fun _ _ _ => ?_
    exact mediated_bind (mediated_section rfl) fun _ _ _ => mediated_pure _

variable {call : String → PyDict → Act PyDict}
  (hcall : ∀ f params g', f ∈ discoveryFunctions → Mediated cfg request (call f params) g')

include hcall

theorem mediated_resolve (maxDepth : Nat) (tabname : String) (seen : List String) :
    Mediated cfg request (resolve cfg.text call maxDepth tabname seen) g := by
  induction maxDepth generalizing tabname seen g with
  | zero => exact mediated_pure []
  | succ depth ih =>
    unfold resolve
    refine mediated_ite (mediated_pure []) ?_
    refine mediated_bind (hcall _ _ _ (by simp [discoveryFunctions])) fun result _ _ => ?_
    refine mediated_bind (mediated_ofExcept _) fun rawFields _ _ => ?_
    refine mediated_collect fun row _ _ => ?_
    refine mediated_bind (mediated_ofExcept _) fun row _ _ => ?_
    refine mediated_ite (mediated_pure []) (mediated_ite ?_ (mediated_pure _))
    exact mediated_bind (ih _ _) fun _ _ _ => mediated_pure _

theorem mediated_search (pattern : String) (group : Option String) (limit : Int) :
    Mediated cfg request (FunctionCatalog.search cfg call pattern group limit) g := by
  refine mediated_getOrSet fun _ _ => ?_
  refine mediated_bind (hcall _ _ _ (by simp [discoveryFunctions])) fun _ _ _ => ?_
  exact mediated_ofExcept _

theorem mediated_interfaceParameter (row : PyValue) :
    Mediated cfg request (FunctionCatalog.interfaceParameter cfg call row) g := by
  unfold FunctionCatalog.interfaceParameter
  refine mediated_bind (mediated_ofExcept _) fun row _ _ => ?_
  refine mediated_ite (mediated_pure []) ?_
  cases paramclassFromCode cfg.text (row.text cfg.text "PARAMCLASS") with
  | error exc => exact mediated_pure []
  | ok paramClass =>
    refine mediated_ite (mediated_pure _) ?_
    refine mediated_bind ?_ fun _ _ _ => mediated_pure _
    exact mediated_ite (mediated_pure []) (mediated_resolve hcall _ _ _)

theorem mediated_catalogInterface (functionName : String) :
    Mediated cfg request (FunctionCatalog.getInterface cfg call functionName) g := by
  refine mediated_getOrSet fun _ _ => ?_
  refine mediated_bind (hcall _ _ _ (by simp [discoveryFunctions])) fun result _ _ => ?_
  refine mediated_bind (mediated_ofExcept _) fun params _ _ => ?_
  refine mediated_bind (mediated_collect fun _ _ _ => mediated_interfaceParameter hcall _)
    fun _ _ _ => ?_
  refine mediated_bind (mediated_ofExcept _) fun rows _ _ => ?_
  exact mediated_bind (mediated_ofExcept _) fun _ _ _ => mediated_pure _

end Discovery

section Invoker

theorem meets_authorize (f mode : String) (parameters : PyDict) :
    (mediation cfg request).Meets (ExecutionPolicy.authorize cfg.text cfg.policy f mode parameters)
      (fun _ g' => g.Extends g' ∧ Authorized cfg g' f mode parameters) (fun _ g' => g.Extends g')
      g := by
  unfold ExecutionPolicy.authorize
  dsimp only
  split
  · rename_i hallowed
    exact ⟨trivial, fun _ => ⟨⟨List.subset_cons_self _ _, rfl⟩, hallowed, List.mem_cons_self⟩⟩
  · exact ⟨trivial, fun _ => ⟨List.subset_cons_self _ _, rfl⟩⟩
  · exact .refl g

theorem mediated_applyResultLimits (f mode : String) (result : PyDict) :
    Mediated cfg request (ExecutionInvoker.applyResultLimits cfg f mode result) g := by
  unfold ExecutionInvoker.applyResultLimits
  split
  · exact mediated_pure _
  · exact mediated_bind (mediated_log _) fun _ _ _ => mediated_raise _
  · exact mediated_raise _

theorem mediated_callOnConnection {conn : Conn} {p : Purpose} {f mode : String}
    {callKwargs : PyDict} {id : Option TxId} (hmay : request.MayIssue cfg g f callKwargs p) :
    Mediated cfg request
      (ExecutionInvoker.callOnConnection cfg conn p f callKwargs mode id) g := by
  refine mediated_bind (mediated_tryExcept (mediated_connCall hmay) fun exc _ _ => ?_)
    fun _ _ _ => ?_
  · exact mediated_bind (mediated_log _) fun _ _ _ => mediated_raise _
  · exact mediated_bind (mediated_log _) fun _ _ _ => mediated_pure _

theorem mediated_getInterface (f : String) :
    Mediated cfg request (ExecutionInvoker.getInterface cfg (connectionPool cfg) f) g :=
  mediated_catalogInterface (fun _ _ _ hf => mediated_pooledCall hf) f

/-- What follows an authorization keeps it. -/
theorem mediated_authorized {f mode : String} {parameters : PyDict} {x : Unit → Act α}
    (hx : ∀ g', g.Extends g' → Authorized cfg g' f mode parameters →
      Mediated cfg request (x ()) g') :
    Mediated cfg request
      (ExecutionPolicy.authorize cfg.text cfg.policy f mode parameters >>= x) g := by
  rw [mediated_iff, meets_bind]
  refine (meets_authorize f mode parameters).mono (fun _ g' hg => ?_) fun _ _ hg => hg
  refine ((mediated_iff _).mp (hx g' hg.1 hg.2)).mono ?_ ?_ <;>
    exact fun _ _ h => hg.1.trans h

theorem mediated_call (f : String) (parameters : PyDict) (mode : String) :
    Mediated cfg request (ExecutionInvoker.call cfg (connectionPool cfg) f parameters mode) g := by
  unfold ExecutionInvoker.call
  split
  · exact mediated_raise _
  rename_i hmode
  obtain rfl : mode = "read" := not_not.mp hmode
  refine mediated_authorized fun g' _ hauthorized => ?_
  refine mediated_bind (mediated_getInterface f) fun interface g'' hg => ?_
  refine mediated_ofExcept_bind fun callKwargs hkwargs => ?_
  have hcleared : Cleared cfg g'' f "read" callKwargs parameters :=
    ⟨hauthorized.mono hg, interface, hkwargs⟩
  refine mediated_bind (mediated_acquire fun conn _ hg' => ?_) fun result _ _ => ?_
  · exact mediated_callOnConnection ⟨parameters, hcleared.mono hg'⟩
  · exact mediated_applyResultLimits _ _ _

/-- A lookup finds the transaction of its ID. -/
theorem mediated_find_bind {id : TxId} {f : Entry → Act α}
    (hf : ∀ a, Mediated cfg request (f (id, a)) g) :
    Mediated cfg request (ExecutionInvoker.findTransaction cfg id >>= f) g := by
  unfold ExecutionInvoker.findTransaction
  rw [mediated_iff, meets_bind, meets_bind]
  refine meets_locked trivial fun found => ?_
  cases found with
  | none => exact .refl g
  | some a => exact (mediated_iff _).mp (hf a)

theorem mediated_removeIfCurrent (e : Entry) :
    Mediated cfg request (ExecutionInvoker.removeIfCurrent e) g := mediated_section rfl

theorem mediated_discardTransaction (e : Entry) :
    Mediated cfg request (ExecutionInvoker.discardTransaction (connectionPool cfg) e) g := by
  refine mediated_bind (mediated_removeIfCurrent e) fun removed _ _ => ?_
  refine mediated_ite ?_ (mediated_pure _)
  exact mediated_bind (mediated_release _ _ _) fun _ _ _ => mediated_log _

/-- A follow-up write, or the write that opens the transaction. -/
theorem mediated_writeLocked {f mode : String} {callKwargs : PyDict} {e : Entry}
    (hmay : ∀ g', g.Extends g' → request.MayIssue cfg g' f callKwargs (.write e)) :
    Mediated cfg request
      (ExecutionInvoker.writeLocked cfg (connectionPool cfg) f callKwargs mode e) g := by
  unfold ExecutionInvoker.writeLocked ExecutionInvoker.isCurrentTransaction
  refine mediated_bind (mediated_section rfl) fun current g' hg => ?_
  refine mediated_ite (mediated_raise _) ?_
  refine mediated_bind (mediated_tryExcept ?_ fun exc _ _ => ?_) fun _ _ _ => ?_
  · refine mediated_bind (mediated_callOnConnection (hmay g' hg)) fun _ _ _ => ?_
    exact mediated_applyResultLimits _ _ _
  · exact mediated_bind (mediated_discardTransaction e) fun _ _ _ => mediated_raise _
  · refine mediated_bind (mediated_op rfl) fun _ _ _ => ?_
    exact mediated_bind (mediated_op rfl) fun _ _ _ => mediated_pure _

theorem mediated_expireTransactions (hsweeps : request.sweeps = true) :
    Mediated cfg request (ExecutionInvoker.expireTransactions cfg (connectionPool cfg)) g := by
  refine mediated_bind (mediated_op rfl) fun now _ _ => ?_
  refine mediated_bind (mediated_section rfl) fun candidates _ _ => ?_
  refine mediated_forEach fun e _ _ _ => ?_
  refine mediated_bind (mediated_op rfl) fun lastUsed _ _ => ?_
  refine mediated_ite (mediated_pure _) ?_
  refine mediated_bind (mediated_op rfl) fun locked _ _ => ?_
  refine mediated_ite (mediated_tryFinally ?_ fun _ _ => mediated_op rfl) (mediated_pure _)
  refine mediated_bind (mediated_section rfl) fun removed _ _ => ?_
  refine mediated_ite ?_ (mediated_pure _)
  refine mediated_bind (mediated_tryExcept ?_ fun exc _ _ => ?_) fun reusable _ _ => ?_
  · exact mediated_bind (mediated_connCall ⟨hsweeps, rfl⟩) fun _ _ _ => mediated_pure _
  · exact mediated_bind (mediated_log _) fun _ _ _ => mediated_pure _
  · exact mediated_bind (mediated_release _ _ _) fun _ _ _ => mediated_log _

/-- The transaction that a write is on: the one it names, or the one it opens. -/
theorem meets_getOrCreate {f : String} {parameters : PyDict} {id id' : Option TxId}
    (hrequest : request = .callTransactional f parameters "write" id')
    (hauthorized : Authorized cfg g f "write" parameters) :
    (mediation cfg request).Meets
      (ExecutionInvoker.getOrCreateTransaction cfg (connectionPool cfg) id)
      (fun e g' => g.granted ⊆ g'.granted ∧ (id = some e.1 ∨ id = none ∧ g'.created = some e))
      (fun _ _ => True) g := by
  cases id with
  | some id =>
    unfold ExecutionInvoker.getOrCreateTransaction ExecutionInvoker.findTransaction
    rw [meets_bind]
    refine meets_locked trivial fun found => ?_
    cases found with
    | none => trivial
    | some a => exact ⟨List.Subset.refl _, .inl rfl⟩
  | none =>
    unfold ExecutionInvoker.getOrCreateTransaction ExecutionInvoker.createTransaction
    rw [meets_bind]
    refine ((mediated_iff _).mp mediated_checkout).mono (fun conn g' hg => ?_) fun _ _ _ => trivial
    rw [meets_bind]
    refine mediation_step trivial fun id => ?_
    rw [meets_bind]
    refine mediation_step trivial fun now => ?_
    rw [meets_bind]
    refine mediation_step trivial fun ref => ?_
    rw [meets_bind]
    refine meets_locked ⟨f, parameters, id', hrequest, hauthorized.mono hg⟩ fun _ => ?_
    exact ⟨trivial, fun _ => ⟨List.subset_cons_of_subset _ hg.granted, .inr ⟨rfl, rfl⟩⟩⟩

/-- Whatever happens to the clearance, the discipline is kept. -/
def Kept (cfg : AppSettings) (request : Request) (x : Act α) (g : Clearance) : Prop :=
  (mediation cfg request).Meets x (fun _ _ => True) (fun _ _ => True) g

theorem Mediated.kept {x : Act α} (hx : Mediated cfg request x g) : Kept cfg request x g :=
  ((mediated_iff x).mp hx).mono (fun _ _ _ => trivial) fun _ _ _ => trivial

theorem Mediated.kept_bind {β : Type} {x : Act α} {f : α → Act β} (hx : Mediated cfg request x g)
    (hf : ∀ a g', g.Extends g' → Kept cfg request (f a) g') : Kept cfg request (x >>= f) g := by
  unfold Kept
  rw [meets_bind]
  exact ((mediated_iff x).mp hx).mono hf fun _ _ _ => trivial

theorem kept_write {f : String} {parameters : PyDict} {id : Option TxId}
    (hrequest : request = .callTransactional f parameters "write" id) :
    Kept cfg request (ExecutionInvoker.write cfg (connectionPool cfg) f parameters id) g := by
  unfold Kept ExecutionInvoker.write
  rw [meets_bind]
  refine (meets_authorize f "write" parameters).mono ?_ fun _ _ _ => trivial
  rintro _ g₁ ⟨_, hauthorized⟩
  refine (mediated_getInterface f).kept_bind fun interface g₂ hg₂ => ?_
  unfold Kept
  rw [meets_bind, meets_ofExcept]
  refine ⟨fun callKwargs hkwargs => ?_, fun _ _ => trivial⟩
  have hcleared : Cleared cfg g₂ f "write" callKwargs parameters :=
    ⟨hauthorized.mono hg₂, interface, hkwargs⟩
  rw [meets_bind]
  refine (meets_getOrCreate hrequest hcleared.1).mono ?_ fun _ _ _ => trivial
  rintro e g₃ ⟨hgranted, hopened⟩
  refine (mediated_bind (mediated_withLock fun g₄ hg₄ => mediated_writeLocked fun g₅ hg₅ => ?_)
    fun _ _ _ => mediated_pure _).kept
  refine ⟨parameters, id, hrequest, ?_, ⟨hauthorized.allowed, ?_⟩, hcleared.2⟩
  · rw [hg₅.created, hg₄.created]
    exact hopened
  · exact hg₅.granted (hg₄.granted (hgranted hcleared.1.logged))

theorem mediated_finishTransaction {id : TxId} {action : ExecutionInvoker.ControlAction}
    (hsweeps : request.sweeps = true)
    (hcontrol : ∀ a g', g.Extends g' →
      Mediated cfg request (ExecutionInvoker.control action (id, a)) g') :
    Mediated cfg request
      (ExecutionInvoker.finishTransaction cfg (connectionPool cfg) id action) g := by
  refine mediated_bind (mediated_expireTransactions hsweeps) fun _ g₁ hg₁ => ?_
  refine mediated_find_bind fun a => ?_
  refine mediated_bind (mediated_withLock fun g₂ hg₂ => ?_) fun _ _ _ => ?_
  · refine mediated_bind (mediated_removeIfCurrent _) fun removed g₃ hg₃ => ?_
    refine mediated_ite (mediated_raise _) ?_
    have hg := hg₁.trans (hg₂.trans hg₃)
    refine mediated_bind (mediated_tryExcept (hcontrol a g₃ hg) fun exc _ _ => ?_) fun _ _ _ => ?_
    · refine mediated_bind (mediated_log _) fun _ _ _ => ?_
      exact mediated_bind (mediated_release _ _ _) fun _ _ _ => mediated_raise _
    · exact mediated_bind (mediated_release _ _ _) fun _ _ _ => mediated_pure _
  · exact mediated_bind (mediated_log _) fun _ _ _ => mediated_ofExcept _

/-- What follows a passed transaction control has been cleared for it. -/
theorem mediated_controlAuthorized {x : Unit → Act α}
    (hx : ∀ g', g.Extends g' → ExecutionPolicy.controlAllowedRecord ∈ g'.granted →
      cfg.policy.mode = .readWrite → Mediated cfg request (x ()) g') :
    Mediated cfg request
      (ExecutionPolicy.authorizeTransactionControl cfg.policy >>= x) g := by
  unfold ExecutionPolicy.authorizeTransactionControl
  by_cases hmode : cfg.policy.mode = .readWrite
  · rw [if_neg (not_not.mpr hmode), mediated_iff, meets_bind]
    refine mediation_step trivial fun _ => ?_
    have hext : g.Extends { g with
        granted := ExecutionPolicy.controlAllowedRecord :: g.granted } :=
      ⟨List.subset_cons_self _ _, rfl⟩
    have hrest := (mediated_iff _).mp (hx _ hext List.mem_cons_self hmode)
    exact hrest.mono (fun _ _ h => hext.trans h) fun _ _ h => hext.trans h
  · rw [if_pos hmode, mediated_iff, meets_bind, meets_bind]
    exact mediation_step trivial fun _ => ⟨List.subset_cons_self _ _, rfl⟩

theorem mediated_commit (id : TxId) (wait : Bool) (hrequest : request = .commit id wait) :
    Mediated cfg request (ExecutionInvoker.commit cfg (connectionPool cfg) id wait) g := by
  have hsweeps : request.sweeps = true := by rw [hrequest]; rfl
  refine mediated_controlAuthorized fun g₁ _ hgranted hmode => ?_
  refine mediated_finishTransaction hsweeps fun a g₂ hg₂ => mediated_connCall ?_
  exact ⟨⟨wait, hrequest⟩, rfl, hg₂.granted hgranted, hmode⟩

theorem mediated_rollback (id : TxId) (hrequest : request = .rollback id) :
    Mediated cfg request (ExecutionInvoker.rollback cfg (connectionPool cfg) id) g := by
  have hsweeps : request.sweeps = true := by rw [hrequest]; rfl
  refine mediated_controlAuthorized fun g₁ _ hgranted hmode => ?_
  refine mediated_finishTransaction hsweeps fun a g₂ hg₂ => mediated_connCall ?_
  exact ⟨hrequest, rfl, hg₂.granted hgranted, hmode⟩

theorem mediated_close (hrequest : request = .close) :
    Mediated cfg request (ExecutionInvoker.close (connectionPool cfg)) g := by
  refine mediated_bind (mediated_section rfl) fun pending _ _ => ?_
  refine mediated_forEach fun e _ _ _ => mediated_withLock fun _ _ => ?_
  refine mediated_bind (mediated_tryExcept ?_ fun exc _ _ => ?_) fun reusable _ _ => ?_
  · refine mediated_bind (mediated_connCall ⟨hrequest, rfl⟩) fun _ _ _ => ?_
    exact mediated_bind (mediated_log _) fun _ _ _ => mediated_pure _
  · exact mediated_bind (mediated_log _) fun _ _ _ => mediated_pure _
  · exact mediated_release _ _ _

theorem kept_callTransactional {f : String} {parameters : PyDict} {mode : String}
    {id : Option TxId} (hrequest : request = .callTransactional f parameters mode id) :
    Kept cfg request
      (ExecutionInvoker.callTransactional cfg (connectionPool cfg) f parameters mode id) g := by
  have hsweeps : request.sweeps = true := by rw [hrequest]; rfl
  refine (mediated_expireTransactions hsweeps).kept_bind fun _ g' _ => ?_
  by_cases hread : mode = "read"
  · rw [if_pos hread]
    refine Mediated.kept (mediated_ite (mediated_raise _) ?_)
    exact mediated_bind (mediated_call _ _ _) fun _ _ _ => mediated_pure _
  · rw [if_neg hread]
    by_cases hwrite : mode = "write"
    · rw [if_neg (not_not.mpr hwrite)]
      subst hwrite
      exact kept_write hrequest
    · rw [if_pos hwrite]
      exact (mediated_raise _).kept

end Invoker

section SourceReader

theorem mediated_readInclude (className : String) (includeName : PyValue) :
    Mediated cfg request
      (SourceReader.readInclude cfg (connectionPool cfg) className includeName) g := by
  unfold SourceReader.readInclude
  refine mediated_bind (mediated_tryExcept ?_ fun exc _ _ => ?_) fun read _ _ => ?_
  · exact mediated_bind (mediated_call _ _ _) fun _ _ _ => mediated_pure _
  · refine mediated_ite ?_ (mediated_raise _)
    exact mediated_bind (mediated_log _) fun _ _ _ => mediated_pure _
  · cases read with
    | error exc => exact mediated_pure _
    | ok result => exact mediated_bind (mediated_ofExcept _) fun _ _ _ => mediated_pure _

theorem mediated_readViaRfc (objectType : ObjectType) (objectName : String) :
    Mediated cfg request (readViaRfc cfg (connectionPool cfg) objectType objectName) g := by
  cases objectType with
  | program => exact mediated_bind (mediated_call _ _ _) fun _ _ _ => mediated_ofExcept _
  | functionModule => exact mediated_bind (mediated_call _ _ _) fun _ _ _ => mediated_ofExcept _
  | class_ =>
    refine mediated_bind (mediated_call _ _ _) fun cpResult _ _ => ?_
    refine mediated_bind (mediated_ofExcept _) fun row _ _ => ?_
    refine mediated_bind (mediated_ofExcept _) fun rows _ _ => ?_
    refine mediated_bind (mediated_ofExcept _) fun names _ _ => ?_
    refine mediated_ite (mediated_ofExcept _) ?_
    refine mediated_bind (mediated_collect fun _ _ _ => mediated_readInclude _ _) fun _ _ _ => ?_
    exact mediated_pure _

end SourceReader

/-- Every request of the server keeps to the discipline. -/
theorem program_kept (request : Request) :
    Kept cfg request (request.program cfg (connectionPool cfg)) {} := by
  cases request with
  | call f parameters mode =>
    exact (mediated_call f parameters mode).kept_bind fun _ _ _ => (mediated_pure _).kept
  | callTransactional f parameters mode id =>
    unfold Kept Request.program
    rw [meets_bind]
    exact (kept_callTransactional rfl).mono (fun _ _ _ => trivial) fun _ _ _ => trivial
  | commit id wait =>
    exact (mediated_commit id wait rfl).kept_bind fun _ _ _ => (mediated_pure _).kept
  | rollback id => exact (mediated_rollback id rfl).kept_bind fun _ _ _ => (mediated_pure _).kept
  | search pattern group limit =>
    refine Mediated.kept_bind ?_ fun _ _ _ => (mediated_pure _).kept
    exact mediated_search (fun _ _ _ hf => mediated_pooledCall hf) pattern group limit
  | getInterface f =>
    exact (mediated_getInterface f).kept_bind fun _ _ _ => (mediated_pure _).kept
  | readSource objectType objectName =>
    exact (mediated_readViaRfc objectType objectName).kept_bind fun _ _ _ => (mediated_pure _).kept
  | expireTransactions =>
    exact (mediated_expireTransactions rfl).kept_bind fun _ _ _ => (mediated_pure _).kept
  | close => exact (mediated_close rfl).kept_bind fun _ _ _ => (mediated_pure _).kept
  | closeAll =>
    refine Mediated.kept_bind ?_ fun _ _ _ => (mediated_pure _).kept
    refine mediated_bind (mediated_section rfl) fun idle _ _ => ?_
    exact mediated_forEach fun conn _ _ _ => mediated_op rfl

end Programs

end RfcMcp
