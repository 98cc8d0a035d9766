import RfcMcp.Caching.Lookups
import RfcMcp.Execution.Routine

namespace RfcMcp

open Framework Framework.Protocol Framework.System SourceReader

section Protocol

variable (cfg : AppSettings)

/-- With `o` a thread gets `value` for its lookup: out of the cache, or from SAP. -/
inductive Gives (id : CacheId) (key : String) (value : id.Value) : (o : Op) → o.Res → Prop
  | get : Gives id key value (.cacheGet id key) (some value)
  | set : Gives id key value (.cacheSet id key value) ()

def Provided (id : CacheId) (key : String) (value : id.Value) (trace : Trace Effects) : Prop :=
  ∃ o v, Gives id key value o v ∧ ⟨o, v⟩ ∈ trace

/-- The functions that a request is for, with the client's parameters. -/
def Request.AsksFor (T : PyText) : Request → String → PyDict → Prop
  | .call f parameters _, f', parameters' => f' = f ∧ parameters' = parameters
  | .callTransactional f parameters _ _, f', parameters' => f' = f ∧ parameters' = parameters
  | .readSource .program name, f, parameters =>
    f = "RPY_PROGRAM_READ" ∧ parameters = [("PROGRAM_NAME", .str name)]
  | .readSource .functionModule name, f, parameters =>
    f = "RPY_FUNCTIONMODULE_READ" ∧ parameters = [("FUNCTIONNAME", .str name)]
  | .readSource .class_ name, f, parameters => f = "RPY_PROGRAM_READ" ∧
    (parameters = [("PROGRAM_NAME", .str (classPoolProgramName T name)),
        ("WITH_INCLUDELIST", .str "X")] ∨
      ∃ includeName, parameters = [("PROGRAM_NAME", includeName)])
  | _, _, _ => False

/-- What a request is for, as opposed to what the server does on the way. -/
def Purpose.isBusiness : Purpose → Bool
  | .read | .write _ => true
  | _ => false

/-- A business RFC is sent with what the client asks for, and fits an interface that the thread has
been given. -/
def askGuard (request : Request) (o : Op) (trace : Trace Effects) : Prop :=
  match o with
  | .rfcBegin _ p f kwargs => p.isBusiness = true → ∃ parameters interface,
    request.AsksFor cfg.text f parameters ∧
    Provided .interface (cfg.text.upper f) interface trace ∧
    buildCallKwargs cfg.text interface parameters = .ok kwargs
  | _ => True

@[reducible] def asking (request : Request) : Protocol Effects := tracing (askGuard cfg request)

/-- What the discovery tools reply has been given to the thread. -/
def Request.Told (T : PyText) : Request → Except PyExc Answer → Trace Effects → Prop
  | .search pattern group limit, .ok (.summaries found) =>
    Provided .search (FunctionCatalog.searchKey T pattern group limit) found
  | .getInterface f, .ok (.interface found) => Provided .interface (T.upper f) found
  | _, _ => fun _ => True

end Protocol

section Rules

variable {cfg : AppSettings} {request : Request} {α β : Type} {J : Trace Effects → Prop}
  {id : CacheId} {key : String} {value : id.Value}

theorem Provided.cons (h : Provided id key value trace) (did : Σ o : Op, o.Res) :
    Provided id key value (did :: trace) := by
  obtain ⟨o, v, hgives, hmem⟩ := h
  exact ⟨o, v, hgives, List.mem_cons_of_mem _ hmem⟩

/-- What more is done takes nothing away from `J`. -/
abbrev Persistent (J : Trace Effects → Prop) : Prop := ∀ did trace, J trace → J (did :: trace)

theorem asking_op (hJ : Persistent J) {o : Op} (ho : ∀ trace, askGuard cfg request o trace) :
    (asking cfg request).Keeps J (perform o) :=
  keeps_perform fun trace htrace => ⟨ho trace, fun v => hJ ⟨o, v⟩ trace htrace⟩

theorem asking_area (hJ : Persistent J) {o : Op} (ho : o.area ≠ .rfc) :
    (asking cfg request).Keeps J (perform o) := by
  refine asking_op hJ fun trace => ?_
  cases o with
  | rfcBegin conn p f kwargs =>
    cases p with
    | expire e => exact nofun
    | _ => exact absurd rfl ho
  | _ => trivial

theorem asking_within (hJ : Persistent J) {areas : List Area} {x : Act α} (hx : Within areas x)
    (hareas : areas.contains .rfc = false) : (asking cfg request).Keeps J x := by
  refine hx.keeps fun o ho => asking_area hJ fun h => ?_
  rw [h, ← List.contains_iff_mem, hareas] at ho
  cases ho

/-- An RFC that no client has asked for. -/
theorem asking_own (hJ : Persistent J) {conn : Conn} {p : Purpose} {f : String} {kwargs : PyDict}
    (hp : p.isBusiness = false) : (asking cfg request).Keeps J (conn.call p f kwargs) := by
  refine keeps_bind (asking_op hJ fun trace h => ?_) fun _ => ?_
  · rw [hp] at h
    cases h
  · exact keeps_bind (asking_op hJ fun _ => trivial) fun r => keeps_ofExcept r

theorem asking_lookups (hJ : Persistent J) : Lookups cfg (asking cfg request) J := by
  refine lookups_of_areas (fun o ho => asking_area hJ ?_)
    (fun record _ => asking_area (o := .log record) hJ (by simp [Op.area]))
    fun conn f params => asking_own hJ rfl
  rintro h
  simp [h] at ho

theorem asking_expireTransactions (hJ : Persistent J) : (asking cfg request).Keeps J
    (ExecutionInvoker.expireTransactions cfg (connectionPool cfg)) := by
  refine keeps_expireTransactions_of (fun o ho => asking_area hJ ?_)
    (fun record _ => asking_area (o := .log record) hJ (by simp [Op.area]))
    fun e => asking_own hJ rfl
  rintro h
  simp [h] at ho

theorem asking_withLock (hJ : Persistent J) {l : LockId} {x : Act α}
    (hx : (asking cfg request).Keeps J x) : (asking cfg request).Keeps J (withLock l x) :=
  keeps_withLock_of (fun o ho => asking_area hJ (by simp [ho])) hx

/-- What a lookup through the cache returns has been given to the thread. -/
theorem provided_getOrSet {factory : Act id.Value}
    (hfactory : (asking cfg request).Keeps Anything factory) (trace : Trace Effects) :
    (asking cfg request).Meets (TTLCache.getOrSet id key factory)
      (fun value trace' => Provided id key value trace') (fun _ => Anything) trace := by
  unfold TTLCache.getOrSet TTLCache.get withLock
  rw [meets_bind, meets_bind]
  refine traced_op trivial fun _ => ?_
  rw [meets_tryFinally]
  refine traced_op trivial fun cached => traced_op trivial fun _ => ?_
  cases cached with
  | some value => exact ⟨_, _, .get, by simp⟩
  | none =>
    rw [meets_bind]
    refine (hfactory.meets _ trivial).mono (fun value trace' _ => ?_) fun _ _ _ => trivial
    unfold TTLCache.set withLock
    rw [meets_bind, meets_bind]
    refine traced_op trivial fun _ => ?_
    rw [meets_tryFinally]
    refine traced_op trivial fun _ => traced_op trivial fun _ => ?_
    exact ⟨_, _, .set, by simp⟩

theorem persistent_anything : Persistent Anything := fun _ _ _ => trivial

theorem provided_search (pattern : String) (group : Option String) (limit : Int)
    (trace : Trace Effects) :
    (asking cfg request).Meets
      (FunctionCatalog.search cfg (PooledCaller.call cfg (connectionPool cfg)) pattern group limit)
      (fun found trace' =>
        Provided .search (FunctionCatalog.searchKey cfg.text pattern group limit) found trace')
      (fun _ => Anything) trace := by
  have hlookups : Lookups cfg (asking cfg request) Anything := asking_lookups persistent_anything
  exact provided_getOrSet (keeps_bind (hlookups.pooledCall _ _) fun _ => keeps_ofExcept _) trace

theorem provided_getInterface (f : String) (trace : Trace Effects) :
    (asking cfg request).Meets (ExecutionInvoker.getInterface cfg (connectionPool cfg) f)
      (fun found trace' => Provided .interface (cfg.text.upper f) found trace')
      (fun _ => Anything) trace := by
  have hlookups : Lookups cfg (asking cfg request) Anything := asking_lookups persistent_anything
  exact provided_getOrSet (keeps_bind (hlookups.pooledCall _ _) fun result =>
    keeps_interfaceOf hlookups.pooledCall f result) trace

/-- With the interface at hand a request goes on to its RFC. -/
theorem asking_interface_bind {f : String} {next : FunctionInterface → Act α}
    (hnext : ∀ interface, (asking cfg request).Keeps
      (Provided .interface (cfg.text.upper f) interface) (next interface)) :
    (asking cfg request).Keeps Anything
      (ExecutionInvoker.getInterface cfg (connectionPool cfg) f >>= next) := by
  constructor
  intro trace _
  rw [meets_bind]
  refine (provided_getInterface f trace).mono (fun interface trace' hprovided => ?_)
    fun _ _ _ => trivial
  exact ((hnext interface).meets trace' hprovided).mono (fun _ _ _ => trivial) fun _ _ _ => trivial

end Rules

section Invoker

variable {cfg : AppSettings} {request : Request} {f : String} {parameters kwargs : PyDict}
  {interface : FunctionInterface}

/-- The business RFC itself. -/
theorem asking_callOnConnection {conn : Conn} {p : Purpose} {mode : String} {id : Option TxId}
    (hasks : request.AsksFor cfg.text f parameters)
    (hbuilt : buildCallKwargs cfg.text interface parameters = .ok kwargs) :
    (asking cfg request).Keeps (Provided .interface (cfg.text.upper f) interface)
      (ExecutionInvoker.callOnConnection cfg conn p f kwargs mode id) := by
  have hpersistent : Persistent (Provided .interface (cfg.text.upper f) interface) :=
    fun did _ h => h.cons did
  have hlookups : Lookups cfg (asking cfg request)
      (Provided .interface (cfg.text.upper f) interface) := asking_lookups hpersistent
  refine keeps_bind (keeps_tryExcept ?_ fun exc => ?_) fun raw => ?_
  · refine keeps_bind ?_ fun _ =>
      keeps_bind (asking_op hpersistent fun _ => trivial) fun r => keeps_ofExcept r
    refine keeps_perform fun trace hprovided => ⟨fun _ => ?_, fun _ => hprovided.cons _⟩
    exact ⟨parameters, interface, hasks, hprovided, hbuilt⟩
  · exact keeps_bind (hlookups.log _ invoker_logger_ne) fun _ => keeps_raise _
  · exact keeps_bind (hlookups.log _ invoker_logger_ne) fun _ => keeps_pure raw

theorem asking_invokerCall (mode : String) (hasks : request.AsksFor cfg.text f parameters) :
    (asking cfg request).Keeps Anything
      (ExecutionInvoker.call cfg (connectionPool cfg) f parameters mode) := by
  have hlookups : Lookups cfg (asking cfg request) Anything := asking_lookups persistent_anything
  refine keeps_ite (keeps_raise _) (keeps_bind (hlookups.authorize _ _ _ _ _) fun _ => ?_)
  refine asking_interface_bind fun interface => ?_
  have hpersistent : Persistent (Provided .interface (cfg.text.upper f) interface) :=
    fun did _ h => h.cons did
  have hlookups : Lookups cfg (asking cfg request)
      (Provided .interface (cfg.text.upper f) interface) := asking_lookups hpersistent
  refine keeps_ofExcept_bind fun kwargs hbuilt => ?_
  refine keeps_bind (keeps_acquire_of (fun o ho => ?_) fun conn => ?_) fun raw =>
    hlookups.applyResultLimits f mode raw
  · exact asking_area hpersistent (by rintro h; simp [h] at ho)
  · exact asking_callOnConnection hasks hbuilt

theorem asking_writeLocked {e : Entry} (hasks : request.AsksFor cfg.text f parameters)
    (hbuilt : buildCallKwargs cfg.text interface parameters = .ok kwargs) :
    (asking cfg request).Keeps (Provided .interface (cfg.text.upper f) interface)
      (ExecutionInvoker.writeLocked cfg (connectionPool cfg) f kwargs "write" e) := by
  have hpersistent : Persistent (Provided .interface (cfg.text.upper f) interface) :=
    fun did _ h => h.cons did
  have hlookups : Lookups cfg (asking cfg request)
      (Provided .interface (cfg.text.upper f) interface) := asking_lookups hpersistent
  refine keeps_bind (asking_withLock hpersistent (asking_area hpersistent nofun)) fun current => ?_
  refine keeps_ite (keeps_raise _) (keeps_bind (keeps_tryExcept ?_ fun exc => ?_) fun value => ?_)
  · exact keeps_bind (asking_callOnConnection hasks hbuilt) fun raw =>
      hlookups.applyResultLimits f "write" raw
  · exact keeps_bind (asking_within hpersistent (within_discardTransaction cfg e) rfl) fun _ =>
      keeps_raise exc
  · refine keeps_bind (asking_area hpersistent nofun) fun now => ?_
    exact keeps_bind (asking_area hpersistent nofun) fun _ => keeps_pure value

theorem asking_write (id : Option TxId) (hasks : request.AsksFor cfg.text f parameters) :
    (asking cfg request).Keeps Anything
      (ExecutionInvoker.write cfg (connectionPool cfg) f parameters id) := by
  have hlookups : Lookups cfg (asking cfg request) Anything := asking_lookups persistent_anything
  refine keeps_bind (hlookups.authorize _ _ _ _ _) fun _ => ?_
  refine asking_interface_bind fun interface => ?_
  have hpersistent : Persistent (Provided .interface (cfg.text.upper f) interface) :=
    fun did _ h => h.cons did
  refine keeps_ofExcept_bind fun kwargs hbuilt => ?_
  refine keeps_bind (asking_within hpersistent (within_getOrCreateTransaction cfg id) rfl)
    fun e => ?_
  exact keeps_bind (asking_withLock hpersistent (asking_writeLocked hasks hbuilt)) fun _ =>
    keeps_pure _

theorem asking_readInclude {name className : String} (includeName : PyValue) :
    (asking cfg (.readSource .class_ name)).Keeps Anything
      (readInclude cfg (connectionPool cfg) className includeName) := by
  have hread : (asking cfg (.readSource .class_ name)).Keeps Anything
      (ExecutionInvoker.call cfg (connectionPool cfg) "RPY_PROGRAM_READ"
        [("PROGRAM_NAME", includeName)] "read") :=
    asking_invokerCall "read" ⟨rfl, .inr ⟨includeName, rfl⟩⟩
  refine keeps_bind (keeps_tryExcept (keeps_bind hread fun _ => keeps_pure _) fun exc => ?_)
    fun outcome => ?_
  · exact keeps_ite (keeps_bind (asking_area persistent_anything nofun) fun _ => keeps_pure _)
      (keeps_raise _)
  · cases outcome with
    | error exc => exact keeps_pure _
    | ok result => exact keeps_bind (keeps_ofExcept _) fun _ => keeps_pure _

theorem asking_readViaRfc (objectType : ObjectType) (name : String) :
    (asking cfg (.readSource objectType name)).Keeps Anything
      (readViaRfc cfg (connectionPool cfg) objectType name) := by
  cases objectType with
  | program =>
    exact keeps_bind (asking_invokerCall "read" ⟨rfl, rfl⟩) fun _ => keeps_ofExcept _
  | functionModule =>
    exact keeps_bind (asking_invokerCall "read" ⟨rfl, rfl⟩) fun _ => keeps_ofExcept _
  | class_ =>
    refine keeps_bind (asking_invokerCall "read" ⟨rfl, .inl rfl⟩) fun cpResult => ?_
    refine keeps_bind (keeps_ofExcept _) fun row => ?_
    refine keeps_bind (keeps_ofExcept _) fun rows => ?_
    refine keeps_bind (keeps_ofExcept _) fun names => ?_
    refine keeps_ite (keeps_ofExcept _) ?_
    exact keeps_bind (keeps_collect fun includeName => asking_readInclude includeName) fun _ =>
      keeps_pure _

/-- Ending a transaction is nobody's business RFC. -/
theorem asking_finishTransaction (id : TxId) (action : ExecutionInvoker.ControlAction) :
    (asking cfg request).Keeps Anything
      (ExecutionInvoker.finishTransaction cfg (connectionPool cfg) id action) := by
  have hlog : ∀ record : LogRecord, (asking cfg request).Keeps Anything (log record) :=
    fun record => asking_area (o := .log record) persistent_anything nofun
  have hrelease : ∀ (e : Entry) reusable, (asking cfg request).Keeps Anything
      (ConnectionPool.release e.2.connection reusable (some e)) :=
    fun e reusable => asking_within persistent_anything (within_release _ reusable _) rfl
  refine keeps_bind (asking_expireTransactions persistent_anything) fun _ => ?_
  refine keeps_bind (asking_within persistent_anything (within_findTransaction cfg id) rfl)
    fun e => ?_
  refine keeps_bind (asking_withLock persistent_anything ?_) fun result =>
    keeps_bind (hlog _) fun _ => keeps_ofExcept _
  refine keeps_bind (asking_within persistent_anything (within_removeIfCurrent e) rfl)
    fun removed => ?_
  refine keeps_ite (keeps_raise _) (keeps_bind (keeps_tryExcept ?_ fun exc => ?_) fun result => ?_)
  · cases action with
    | commit wait => exact asking_own persistent_anything rfl
    | rollback => exact asking_own persistent_anything rfl
  · exact keeps_bind (hlog _) fun _ => keeps_bind (hrelease e false) fun _ => keeps_raise _
  · exact keeps_bind (hrelease e true) fun _ => keeps_pure result

theorem asking_close : (asking cfg request).Keeps Anything
    (ExecutionInvoker.close (connectionPool cfg)) := by
  have hlog : ∀ record : LogRecord, (asking cfg request).Keeps Anything (log record) :=
    fun record => asking_area (o := .log record) persistent_anything nofun
  refine keeps_bind (asking_withLock persistent_anything (asking_area persistent_anything nofun))
    fun pending => keeps_forEach fun e _ => asking_withLock persistent_anything ?_
  refine keeps_bind (keeps_tryExcept ?_ fun exc => ?_) fun reusable =>
    asking_within persistent_anything (within_release _ reusable _) rfl
  · exact keeps_bind (asking_own persistent_anything rfl) fun _ => keeps_bind (hlog _) fun _ =>
      keeps_pure _
  · exact keeps_bind (hlog _) fun _ => keeps_pure _

end Invoker

section Requests

variable {cfg : AppSettings}

theorem asking_answer {α : Type} {request : Request} {x : Act α} (answer : α → Answer)
    (hx : (asking cfg request).Keeps Anything x) :
    (asking cfg request).Follows (fun (_ : Except PyExc Answer) _ => True)
      (x >>= fun a => pure (answer a) : Act Answer) [] :=
  Follows.mono ((keeps_bind hx fun a => keeps_pure (answer a)).meets [] trivial)
    fun _ _ _ => trivial

theorem told_answer {α : Type} {request : Request} {x : Act α} {answer : α → Answer}
    {ok : α → Trace Effects → Prop}
    (hx : (asking cfg request).Meets x ok (fun _ => Anything) [])
    (hok : ∀ a trace, ok a trace → request.Told cfg.text (.ok (answer a)) trace)
    (herr : ∀ exc trace, request.Told cfg.text (.error exc) trace) :
    (asking cfg request).Follows (request.Told cfg.text)
      (x >>= fun a => pure (answer a) : Act Answer) [] := by
  have hmeets : (asking cfg request).Meets (x >>= fun a => pure (answer a) : Act Answer)
      (fun reply trace => request.Told cfg.text (.ok reply) trace)
      (fun exc trace => request.Told cfg.text (.error exc) trace) [] := by
    rw [meets_bind]
    exact hx.mono hok fun exc trace _ => herr exc trace
  refine Follows.mono hmeets fun r trace h => ?_
  cases r <;> exact h

theorem program_asks (request : Request) :
    (asking cfg request).Follows (request.Told cfg.text)
      (request.program cfg (connectionPool cfg)) [] := by
  have hcontrol : ∀ request, (asking cfg request).Keeps Anything
      (ExecutionPolicy.authorizeTransactionControl cfg.policy) :=
    fun request => asking_within persistent_anything (within_authorizeTransactionControl cfg) rfl
  cases request with
  | call f parameters mode => exact asking_answer _ (asking_invokerCall mode ⟨rfl, rfl⟩)
  | callTransactional f parameters mode id =>
    refine asking_answer (fun answer : PyValue × Option TxId => .written answer.1 answer.2) ?_
    refine keeps_bind (asking_expireTransactions persistent_anything) fun _ => ?_
    refine keeps_ite (keeps_ite (keeps_raise _) ?_) (keeps_ite (keeps_raise _) ?_)
    · exact keeps_bind (asking_invokerCall mode ⟨rfl, rfl⟩) fun _ => keeps_pure _
    · exact asking_write id ⟨rfl, rfl⟩
  | commit id wait =>
    exact asking_answer _ (keeps_bind (hcontrol _) fun _ => asking_finishTransaction id _)
  | rollback id =>
    exact asking_answer _ (keeps_bind (hcontrol _) fun _ => asking_finishTransaction id _)
  | search pattern group limit =>
    exact told_answer (provided_search pattern group limit []) (fun _ _ h => h) fun _ _ => trivial
  | getInterface f =>
    exact told_answer (provided_getInterface f []) (fun _ _ h => h) fun _ _ => trivial
  | readSource objectType name => exact asking_answer _ (asking_readViaRfc objectType name)
  | expireTransactions =>
    exact asking_answer (fun _ => .done) (asking_expireTransactions persistent_anything)
  | close => exact asking_answer (fun _ => .done) asking_close
  | closeAll =>
    exact asking_answer (fun _ => .done) (asking_within persistent_anything within_closeAll rfl)

end Requests

end RfcMcp
