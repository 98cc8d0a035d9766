import RfcMcp.Errors.Causes

namespace RfcMcp

open Framework Framework.Protocol ExecutionInvoker

section Locks

variable {α β : Type} {cfg : AppSettings} {request : Request} {J : Trace Effects → Prop}
  {ok : α → Trace Effects → Prop}

theorem silent_operation (o : Op) : Silent (perform o) := silent_perform

theorem silent_log (record : LogRecord) : Silent (log record) := silent_operation _

theorem silent_section (l : LockId) (o : Op) : Silent (withLock l (perform o)) :=
  silent_bind (silent_operation _) fun _ =>
    silent_tryFinally (silent_operation _) (silent_operation _)

theorem silent_ite {p : Prop} [Decidable p] {x y : Act α} (hx : Silent x) (hy : Silent y) :
    Silent (if p then x else y) :=
  accounts_ite (fun _ => hx) fun _ => hy

theorem silent_giveBack (conn : Conn) (reusable : Bool) (luw : Option Entry) :
    Silent (ConnectionPool.release conn reusable luw) := by
  refine silent_bind (silent_operation _) fun _ => silent_tryFinally ?_ (silent_operation _)
  exact silent_ite (silent_section _ _) (silent_operation _)

/-- The result of the operation in a lock-protected section. -/
theorem accounts_section {C : PyExc → Trace Effects → Prop} {l : LockId} {o : Op}
    {ok : o.Res → Trace Effects → Prop} (hok : ∀ v, Enduring (ok v))
    (h : ∀ v trace, J trace → ok v (⟨o, v⟩ :: trace)) (henduring : Enduring J) :
    Accounts C J (withLock l (perform o)) ok := by
  have hsilent : Accounts (fun _ _ => False) J (withLock l (perform o)) ok := by
    refine (silent_operation (.acquire l)).accounts_bind henduring fun _ => ?_
    exact accounts_tryFinally (accounts_perform h) (silent_operation _) hok fun _ _ _ hfalse =>
      hfalse
  exact hsilent.causes fun _ _ hfalse => hfalse.elim

theorem accounts_result {C : PyExc → Trace Effects → Prop} {l : LockId} {o : Op} :
    Accounts C Anything (withLock l (perform o)) fun v trace => ⟨o, v⟩ ∈ trace :=
  accounts_section (fun _ => mem_enduring _) (fun _ _ _ => List.mem_cons_self) fun _ _ _ => trivial

theorem accounts_withLock {l : LockId} {x : Act α} (hx : Accounts (Blames cfg request) J x ok)
    (henduring : Enduring J) (hok : ∀ a, Enduring (ok a)) :
    Accounts (Blames cfg request) J (withLock l x) ok :=
  (silent_operation (.acquire l)).accounts_bind henduring fun _ =>
    accounts_tryFinally hx (silent_operation _) hok blames_enduring

end Locks

section Pool

variable {α : Type} {cfg : AppSettings} {request : Request} {ok : α → Trace Effects → Prop}

/-- `C` is a cause for whatever may be raised in place of a connection. -/
structure CoversBorrowing (cfg : AppSettings) (C : PyExc → Trace Effects → Prop) : Prop where
  enduring : ∀ exc, Enduring (C exc)
  full : ∀ trace, ⟨Op.semAcquire, false⟩ ∈ trace → C (ConnectionPool.poolTimeout cfg) trace
  uninstalled : ∀ trace, cfg.pyrfcInstalled = false →
    C (.sap .unavailable ("pyrfc is not installed or the SAP NW RFC SDK could not be loaded " ++
      "(check SAPNWRFC_HOME and PATH). See docs/setup.md.") none) trace
  unconfigured : ∀ exc trace, cfg.pyrfcKwargs = .error exc → C exc trace
  unopened : ∀ cause trace, ⟨Op.openConnection, .error cause⟩ ∈ trace →
    C (ExecutionInvoker.translate cfg cause) trace

section Covered

variable {C : PyExc → Trace Effects → Prop} (hC : CoversBorrowing cfg C)

include hC

theorem accounts_createConnection : Accounts C Anything (ConnectionPool.createConnection cfg)
    fun _ => Anything := by
  refine accounts_ite (fun _ => ?_) fun hinstalled => ?_
  · refine accounts_bind (Q := fun _ => Anything)
      (accounts_ofExcept (fun _ _ _ _ => trivial) fun exc trace hexc _ => ?_) fun kwargs => ?_
    · exact hC.unconfigured exc trace hexc
    refine accounts_bind (Q := fun opened trace => ⟨Op.openConnection, opened⟩ ∈ trace)
      (accounts_perform fun opened trace _ => List.mem_cons_self) fun opened => ?_
    cases opened with
    | ok conn => exact accounts_pure fun _ _ => trivial
    | error exc => exact accounts_raise fun trace hmem => hC.unopened exc trace hmem
  · exact accounts_raise fun trace _ => hC.uninstalled trace (by simpa using hinstalled)

theorem accounts_openAttempts (retries attempt : ℕ) : Accounts C Anything
    (ConnectionPool.openAttempts cfg attempt retries) fun _ => Anything := by
  induction retries generalizing attempt with
  | zero => exact accounts_createConnection hC
  | succ retries ih =>
    refine accounts_tryExcept (C := C) (accounts_createConnection hC) fun exc => ?_
    refine accounts_ite (fun _ => ?_) fun _ => accounts_raise fun _ h => h
    refine (silent_operation _).accounts_bind (hC.enduring exc) fun _ => ?_
    exact (ih (attempt + 1)).weaken (fun _ _ => trivial) fun _ _ h => h

theorem accounts_checkout_of : Accounts C Anything (ConnectionPool.checkout cfg)
    fun _ => Anything := by
  refine accounts_bind (Q := fun acquired trace => ⟨Op.semAcquire, acquired⟩ ∈ trace)
    (accounts_perform fun acquired trace _ => List.mem_cons_self) fun acquired => ?_
  refine accounts_ite (fun _ => ?_) fun hfull => ?_
  · refine accounts_reraise (C := C) (g := id) ?_ (fun _ => silent_operation _)
      (fun _ _ h => h) hC.enduring
    refine (silent_section _ _).accounts_bind (mem_enduring _) fun candidate => ?_
    cases candidate with
    | some conn => exact accounts_pure fun _ _ => trivial
    | none =>
      exact (accounts_openAttempts hC _ _).weaken (fun _ _ => trivial) fun _ _ h => h
  · obtain rfl : acquired = false := by simpa using hfull
    exact accounts_raise fun trace hmem => hC.full trace hmem

end Covered

theorem accounts_checkout : Accounts (Blames cfg request) Anything (ConnectionPool.checkout cfg)
    fun _ => Anything :=
  accounts_checkout_of ⟨blames_enduring, fun _ h => .full h rfl, fun _ h => .uninstalled h rfl,
    fun _ _ h => .unconfigured h, fun _ _ h => .unopened h rfl⟩

/-- A borrowed connection is given back without an error of its own. -/
theorem accounts_acquire {body : Conn → Act α}
    (hbody : ∀ conn, Accounts (Blames cfg request) Anything (body conn) ok)
    (hok : ∀ a, Enduring (ok a)) :
    Accounts (Blames cfg request) Anything (ConnectionPool.acquire cfg body) ok := by
  refine accounts_bind accounts_checkout fun conn => ?_
  refine accounts_bind (Q := ok) ?_ fun result => ?_
  · exact accounts_reraise (g := id) (hbody conn) (fun _ => silent_giveBack conn false none)
      (fun _ _ h => h) blames_enduring
  · exact (silent_giveBack conn true none).accounts_bind (hok result) fun _ =>
      accounts_pure fun _ h => h

end Pool

section Rfc

variable {cfg : AppSettings} {request : Request} {conn : Conn} {p : Purpose} {f : String}
  {kwargs : PyDict}

/-- The result of an RFC is what SAP has answered. -/
theorem accounts_call : Accounts
    (fun exc => RfcEnded p f kwargs (.error exc)) Anything (conn.call p f kwargs)
    fun raw => RfcEnded p f kwargs (.ok raw) := by
  intro trace _
  unfold Conn.call
  rw [meets_bind]
  refine traced_op trivial fun _ => ?_
  rw [meets_bind]
  refine traced_op trivial fun r => ?_
  rw [meets_ofExcept]
  have hended : RfcEnded p f kwargs r
      (⟨Op.rfcEnd conn f kwargs, r⟩ :: ⟨Op.rfcBegin conn p f kwargs, ()⟩ :: trace) :=
    ⟨conn, [], trace, rfl⟩
  refine ⟨fun raw hraw => ?_, fun exc hexc => ?_⟩
  · rw [← hraw]
    exact hended
  · rw [← hexc]
    exact hended

theorem accounts_callOnConnection {mode : String} {id : Option TxId} (hp : p.isReported = true) :
    Accounts (Blames cfg request) Anything (callOnConnection cfg conn p f kwargs mode id)
      fun raw => RfcEnded p f kwargs (.ok raw) := by
  refine accounts_bind (Q := fun raw => RfcEnded p f kwargs (.ok raw)) ?_ fun raw => ?_
  · refine accounts_reraise (g := ExecutionInvoker.translate cfg) accounts_call
      (fun _ => silent_log _) (fun exc trace hended => ?_) fun _ => blames_enduring _
    exact .failed hp hended rfl
  · exact (silent_log _).accounts_bind (rfcEnded_enduring _ _ _ _) fun _ =>
      accounts_pure fun _ h => h

/-- What passes the limits is what SAP has answered, made ready for the client. -/
theorem accounts_applyResultLimits {mode : String} {raw : PyDict} (hp : p.isBusiness = true) :
    Accounts (Blames cfg request) (RfcEnded p f kwargs (.ok raw))
      (applyResultLimits cfg f mode raw)
      fun value trace => RfcEnded p f kwargs (.ok raw) trace ∧
        cfg.limits.apply (.dict raw) = .ok value := by
  unfold applyResultLimits
  cases houtcome : cfg.limits.apply (.dict raw) with
  | ok value => exact accounts_pure fun _ hended => ⟨hended, rfl⟩
  | error exc =>
    have hblames : ∀ trace, RfcEnded p f kwargs (.ok raw) trace → Blames cfg request exc trace :=
      fun trace hended => .limited hp hended houtcome
    cases exc with
    | resultLimitExceeded message =>
      exact (silent_log _).accounts_bind (rfcEnded_enduring _ _ _ _) fun _ => accounts_raise hblames
    | _ => exact accounts_raise hblames

end Rfc

end RfcMcp
