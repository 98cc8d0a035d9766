import RfcMcp.Footprint.Programs

namespace RfcMcp

open Framework Framework.Protocol

/-- `I` survives what surrounds a business RFC: a request uses the caches, logs, and looks up
interfaces on connections that it borrows for one RFC. -/
structure Lookups (cfg : AppSettings) (P : Protocol Effects) (I : P.Local → Prop) : Prop where
  cacheGet : ∀ id key, P.Keeps I (TTLCache.get id key)
  cacheSet : ∀ id key value, P.Keeps I (TTLCache.set id key value)
  log : ∀ record : LogRecord, record.logger ≠ SourceReader.logger → P.Keeps I (log record)
  pooledCall : ∀ f params, P.Keeps I (PooledCaller.call cfg (connectionPool cfg) f params)

/-- `I` survives a read as well, and the note of the source reader that one has failed. -/
structure Routine (cfg : AppSettings) (P : Protocol Effects) (I : P.Local → Prop) : Prop
    extends Lookups cfg P I where
  note : ∀ record : LogRecord, record.logger = SourceReader.logger → P.Keeps I (RfcMcp.log record)
  read : ∀ f kwargs mode, P.Keeps I ((connectionPool cfg).acquire fun conn =>
    ExecutionInvoker.callOnConnection cfg conn .read f kwargs mode none)

theorem policy_logger_ne : ExecutionPolicy.logger ≠ SourceReader.logger := by decide

theorem invoker_logger_ne : ExecutionInvoker.logger ≠ SourceReader.logger := by decide

variable {cfg : AppSettings} {P : Protocol Effects} {I : P.Local → Prop}

section Areas

variable {α : Type}

theorem keeps_withLock_of {l : LockId} {x : Act α}
    (hop : ∀ o : Op, o.area = .lock → P.Keeps I (perform o)) (hx : P.Keeps I x) :
    P.Keeps I (withLock l x) :=
  keeps_bind (hop _ rfl) fun _ => keeps_tryFinally hx (hop _ rfl)

/-- What a connection is borrowed with. -/
def Op.isBorrowing : Op → Bool
  | .acquire _ | .release _ | .semAcquire | .semRelease | .scanIdle | .openConnection => true
  | .sleep _ => true
  | _ => false

theorem keeps_checkout_of (hop : ∀ o : Op, o.isBorrowing = true → P.Keeps I (perform o)) :
    P.Keeps I (ConnectionPool.checkout cfg) := by
  have hcreate : P.Keeps I (ConnectionPool.createConnection cfg) := by
    refine keeps_ite (keeps_bind (keeps_ofExcept _) fun _ => ?_) (keeps_raise _)
    refine keeps_bind (hop .openConnection rfl) fun opened => ?_
    cases opened with
    | ok conn => exact keeps_pure conn
    | error exc => exact keeps_raise _
  have hopen : ∀ retries attempt, P.Keeps I (ConnectionPool.openAttempts cfg attempt retries) := by
    intro retries
    induction retries with
    | zero => exact fun _ => hcreate
    | succ retries ih =>
      intro attempt
      refine keeps_tryExcept hcreate fun exc => keeps_ite ?_ (keeps_raise exc)
      exact keeps_bind (hop (.sleep attempt) rfl) fun _ => ih _
  have hscan : P.Keeps I (withLock .pool (perform .scanIdle)) :=
    keeps_bind (hop _ rfl) fun _ => keeps_tryFinally (hop .scanIdle rfl) (hop _ rfl)
  refine keeps_bind (hop .semAcquire rfl) fun acquired => keeps_ite ?_ (keeps_raise _)
  refine keeps_tryExcept (keeps_bind hscan fun candidate => ?_) fun exc => ?_
  · cases candidate with
    | some conn => exact keeps_pure conn
    | none => exact hopen _ _
  · exact keeps_bind (hop .semRelease rfl) fun _ => keeps_raise exc

/-- An RFC on a borrowed connection, where the pool's own operations are of no concern. -/
theorem keeps_acquire_of {body : Conn → Act α}
    (hop : ∀ o : Op, o.area ∈ [Area.lock, .borrow, .giveBack] → P.Keeps I (perform o))
    (hbody : ∀ conn, P.Keeps I (body conn)) : P.Keeps I (ConnectionPool.acquire cfg body) := by
  have hrelease : ∀ conn reusable, P.Keeps I (ConnectionPool.release conn reusable none) := by
    intro conn reusable
    exact (within_release conn reusable none).keeps fun o ho => hop o (mem_of_covers rfl ho)
  refine keeps_bind ((within_checkout cfg).keeps hop) fun conn => ?_
  refine keeps_bind (keeps_tryExcept (hbody conn) fun exc => ?_) fun result => ?_
  · exact keeps_bind (hrelease conn false) fun _ => keeps_raise exc
  · exact keeps_bind (hrelease conn true) fun _ => keeps_pure result

/-- Where only the discovery RFCs themselves are left to look at. -/
theorem lookups_of_areas
    (hop : ∀ o : Op, o.area ∈ [Area.lock, .borrow, .giveBack, .cache] → P.Keeps I (perform o))
    (hlog : ∀ record : LogRecord, record.logger ≠ SourceReader.logger →
      P.Keeps I (RfcMcp.log record))
    (hcall : ∀ (conn : Conn) f params, P.Keeps I (conn.call .discovery f params)) :
    Lookups cfg P I where
  cacheGet _ _ := keeps_withLock_of (fun o ho => hop o (by simp [ho])) (hop _ (by simp [Op.area]))
  cacheSet _ _ _ := keeps_withLock_of (fun o ho => hop o (by simp [ho])) (hop _ (by simp [Op.area]))
  log record h := hlog record h
  pooledCall f params := by
    refine keeps_acquire_of (fun o ho => hop o (mem_of_covers rfl ho)) fun conn => ?_
    exact keeps_tryExcept (hcall conn f params) fun _ => keeps_raise _

/-- The sweep, where its RFCs and what it does to the table are left to look at. -/
theorem keeps_expireTransactions_of
    (hop : ∀ o : Op, o.area ∈ [Area.lock, .giveBack, .clock, .expiry] → P.Keeps I (perform o))
    (hlog : ∀ record : LogRecord, record.logger ≠ SourceReader.logger →
      P.Keeps I (RfcMcp.log record))
    (hcall : ∀ e : Entry, P.Keeps I (Transaction.rollback e.2.connection (.expire e))) :
    P.Keeps I (ExecutionInvoker.expireTransactions cfg (connectionPool cfg)) := by
  have hlock : ∀ o : Op, o.area = .lock → P.Keeps I (perform o) :=
    fun o ho => hop o (by simp [ho])
  have hrelease : ∀ (e : Entry) reusable,
      P.Keeps I (ConnectionPool.release e.2.connection reusable (some e)) := by
    intro e reusable
    exact (within_release _ reusable _).keeps fun o ho => hop o (mem_of_covers rfl ho)
  refine keeps_bind (hop _ (by simp [Op.area])) fun now => ?_
  refine keeps_bind (keeps_withLock_of hlock (hop _ (by simp [Op.area]))) fun candidates => ?_
  refine keeps_forEach fun e _ => keeps_bind (hop _ (by simp [Op.area])) fun lastUsed => ?_
  refine keeps_ite (keeps_pure ()) (keeps_bind (hop _ (by simp [Op.area])) fun locked => ?_)
  refine keeps_ite (keeps_tryFinally ?_ (hlock _ rfl)) (keeps_pure ())
  refine keeps_bind (keeps_withLock_of hlock (hop _ (by simp [Op.area]))) fun removed => ?_
  refine keeps_ite (keeps_bind (keeps_tryExcept ?_ fun exc => ?_) fun reusable => ?_)
    (keeps_pure ())
  · exact keeps_bind (hcall e) fun _ => keeps_pure true
  · exact keeps_bind (hlog _ invoker_logger_ne) fun _ => keeps_pure false
  · exact keeps_bind (hrelease e reusable) fun _ => hlog _ invoker_logger_ne

end Areas

section Discovery

-- the discovery does nothing but to ask its caller
variable {call : String → PyDict → Act PyDict} (hcall : ∀ f params, P.Keeps I (call f params))
include hcall

omit hcall in
theorem keeps_resolveRow (T : PyText) (upperName : String) {nested : String → Act (List FieldInfo)}
    (hnested : ∀ name, P.Keeps I (nested name)) (row : PyValue) :
    P.Keeps I (resolveRow T upperName nested row) := by
  unfold resolveRow
  refine keeps_bind (keeps_ofExcept _) fun row => ?_
  dsimp only
  refine keeps_ite (keeps_pure []) (keeps_ite ?_ (keeps_pure _))
  exact keeps_bind (hnested _) fun fields => keeps_pure _

theorem keeps_resolve (T : PyText) (maxDepth : Nat) (tabname : String) (seen : List String) :
    P.Keeps I (resolve T call maxDepth tabname seen) := by
  induction maxDepth generalizing tabname seen with
  | zero => exact keeps_pure []
  | succ depth ih =>
    unfold resolve
    dsimp only
    refine keeps_ite (keeps_pure []) ?_
    refine keeps_bind (hcall _ _) fun result => ?_
    refine keeps_bind (keeps_ofExcept _) fun rawFields => ?_
    exact keeps_collect fun row => keeps_resolveRow T _ (fun name => ih name _) row

theorem keeps_interfaceParameter (row : PyValue) :
    P.Keeps I (FunctionCatalog.interfaceParameter cfg call row) := by
  refine keeps_bind (keeps_ofExcept _) fun row => ?_
  refine keeps_ite (keeps_pure []) ?_
  cases paramclassFromCode cfg.text (row.text cfg.text "PARAMCLASS") with
  | error exc => exact keeps_pure []
  | ok paramClass =>
    refine keeps_ite (keeps_pure _) ?_
    refine keeps_bind ?_ fun fields => keeps_pure _
    exact keeps_ite (keeps_pure []) (keeps_resolve hcall _ _ _ _)

/-- What is made of the answer about an interface. -/
theorem keeps_interfaceOf (f : String) (result : PyDict) : P.Keeps I
    (do
      let params ← Action.ofExcept (result.getD "PARAMS" (.list [])).iterate
      let parameters ← Action.collect params (FunctionCatalog.interfaceParameter cfg call)
      let rows ← Action.ofExcept (result.getD "EXCEPTIONS" (.list [])).iterate
      let exceptions ← Action.ofExcept (FunctionCatalog.interfaceExceptions cfg.text rows)
      pure { name := f, parameters := parameters, exceptions := exceptions } :
        Act FunctionInterface) := by
  refine keeps_bind (keeps_ofExcept _) fun params => ?_
  refine keeps_bind (keeps_collect (keeps_interfaceParameter hcall)) fun parameters => ?_
  refine keeps_bind (keeps_ofExcept _) fun rows => ?_
  exact keeps_bind (keeps_ofExcept _) fun exceptions => keeps_pure _

end Discovery

namespace Lookups

variable (h : Lookups cfg P I)
include h

theorem getOrSet {id : CacheId} {key : String} {factory : Act id.Value}
    (hfactory : P.Keeps I factory) : P.Keeps I (TTLCache.getOrSet id key factory) := by
  refine keeps_bind (h.cacheGet id key) fun cached => ?_
  cases cached with
  | some value => exact keeps_pure value
  | none =>
    refine keeps_bind hfactory fun value => ?_
    exact keeps_bind (h.cacheSet id key value) fun _ => keeps_pure value

theorem search (pattern : String) (group : Option String) (limit : Int) :
    P.Keeps I (FunctionCatalog.search cfg (PooledCaller.call cfg (connectionPool cfg)) pattern group
      limit) :=
  h.getOrSet (keeps_bind (h.pooledCall _ _) fun _ => keeps_ofExcept _)

theorem getInterface (f : String) :
    P.Keeps I (ExecutionInvoker.getInterface cfg (connectionPool cfg) f) :=
  h.getOrSet (keeps_bind (h.pooledCall _ _) fun result => keeps_interfaceOf h.pooledCall f result)

theorem authorize (T : PyText) (settings : PolicySettings) (f mode : String)
    (parameters : PyDict) : P.Keeps I (ExecutionPolicy.authorize T settings f mode parameters) := by
  unfold ExecutionPolicy.authorize
  dsimp only
  split
  · exact h.log _ policy_logger_ne
  · exact keeps_bind (h.log _ policy_logger_ne) fun _ => keeps_raise _
  · exact keeps_raise _

theorem authorizeTransactionControl (settings : PolicySettings) :
    P.Keeps I (ExecutionPolicy.authorizeTransactionControl settings) :=
  keeps_ite (keeps_bind (h.log _ policy_logger_ne) fun _ => keeps_raise _)
    (h.log _ policy_logger_ne)

theorem applyResultLimits (f mode : String) (result : PyDict) :
    P.Keeps I (ExecutionInvoker.applyResultLimits cfg f mode result) := by
  unfold ExecutionInvoker.applyResultLimits
  split
  · exact keeps_pure _
  · exact keeps_bind (h.log _ invoker_logger_ne) fun _ => keeps_raise _
  · exact keeps_raise _

end Lookups

namespace Routine

variable (h : Routine cfg P I)
include h

theorem call (f : String) (parameters : PyDict) (mode : String) :
    P.Keeps I (ExecutionInvoker.call cfg (connectionPool cfg) f parameters mode) := by
  refine keeps_ite (keeps_raise _) ?_
  refine keeps_bind (h.authorize _ _ _ _ _) fun _ => ?_
  refine keeps_bind (h.getInterface f) fun interface => ?_
  refine keeps_bind (keeps_ofExcept _) fun callKwargs => ?_
  exact keeps_bind (h.read f callKwargs mode) fun result => h.applyResultLimits f mode result

theorem readInclude (className : String) (includeName : PyValue) :
    P.Keeps I (SourceReader.readInclude cfg (connectionPool cfg) className includeName) := by
  have hread := h.call "RPY_PROGRAM_READ" [("PROGRAM_NAME", includeName)] "read"
  refine keeps_bind (keeps_tryExcept (keeps_bind hread fun _ => keeps_pure _) fun exc => ?_) ?_
  · exact keeps_ite (keeps_bind (h.note _ rfl) fun _ => keeps_pure _) (keeps_raise _)
  · intro outcome
    cases outcome with
    | error exc => exact keeps_pure _
    | ok result => exact keeps_bind (keeps_ofExcept _) fun _ => keeps_pure _

theorem readViaRfc (objectType : ObjectType) (objectName : String) :
    P.Keeps I (readViaRfc cfg (connectionPool cfg) objectType objectName) := by
  cases objectType with
  | program => exact keeps_bind (h.call _ _ _) fun _ => keeps_ofExcept _
  | functionModule => exact keeps_bind (h.call _ _ _) fun _ => keeps_ofExcept _
  | class_ =>
    refine keeps_bind (h.call _ _ _) fun cpResult => ?_
    refine keeps_bind (keeps_ofExcept _) fun row => ?_
    refine keeps_bind (keeps_ofExcept _) fun rows => ?_
    refine keeps_bind (keeps_ofExcept _) fun names => ?_
    refine keeps_ite (keeps_ofExcept _) ?_
    exact keeps_bind (keeps_collect (h.readInclude objectName)) fun _ => keeps_pure _

end Routine

end RfcMcp
