import RfcMcp.Custody.Affinity

namespace RfcMcp

open Framework Framework.Protocol Framework.System

/-- The newest RFC of a thread is the COMMIT or ROLLBACK of `e`, and SAP has confirmed it. -/
def Rfc.Settles (e : Entry) (rfcs : List Rfc) : Prop :=
  ∃ conn p raw rest, rfcs = ⟨conn, p, some (.ok raw)⟩ :: rest ∧ p.controls = some e

/-- The release of a transaction's connection for further use. -/
def Op.reusesConnection : Op → Bool
  | .poolRelease _ true (some _) => true
  | _ => false

/-- The connection of a transaction is released for further use only after SAP has confirmed the
end of the transaction. -/
@[reducible] def settling : Protocol Effects where
  Local := List Rfc
  start := []
  allows := fun o rfcs => match o with
    | .poolRelease _ true (some e) => Rfc.Settles e rfcs
    | _ => True
  after := fun o v rfcs => o.onRfcs v rfcs

theorem localOf_settling {cfg : AppSettings} {c : Run cfg} (t : ℕ) :
    localOf settling t c.history = rfcsOf t c.history := by
  generalize c.history = h
  induction h with
  | nil => rfl
  | cons ev h ih =>
    cases ev with
    | start u r => exact ih
    | did u o v => simp only [localOf, rfcsOf, ih]

section Rules

variable {α : Type} {cfg : AppSettings} {rfcs : List Rfc}

/-- Nothing is known of the RFCs so far, and nothing needs to be. -/
abbrev Whatever (_ : List Rfc) : Prop := True

theorem settling_step {o : Op} {ok : o.Res → List Rfc → Prop} {err : PyExc → List Rfc → Prop}
    (ho : o.reusesConnection = false) (hok : ∀ r, ok r (o.onRfcs r rfcs)) :
    settling.Meets (perform o) ok err rfcs := by
  have hallowed : settling.allows o rfcs := by
    cases o with
    | poolRelease conn reusable luw =>
      cases reusable with
      | false => exact trivial
      | true =>
        cases luw with
        | none => exact trivial
        | some e => cases ho
    | _ => exact trivial
  exact ⟨hallowed, hok⟩

theorem settling_op {o : Op} (ho : o.reusesConnection = false) :
    settling.Keeps Whatever (perform o) :=
  ⟨fun _ _ => settling_step ho fun _ => trivial⟩

theorem settling_withLock {l : LockId} {x : Act α} (hx : settling.Keeps Whatever x) :
    settling.Keeps Whatever (withLock l x) :=
  keeps_bind (settling_op rfl) fun _ => keeps_tryFinally hx (settling_op rfl)

/-- After the release itself nothing more can be asked of the thread. -/
theorem settling_release {conn : Conn} {reusable : Bool} {luw : Option Entry}
    (h : ∀ e, reusable = true → luw = some e → Rfc.Settles e rfcs) :
    settling.Meets (ConnectionPool.release conn reusable luw) (fun _ => Whatever)
      (fun _ => Whatever) rfcs := by
  have hallowed : settling.allows (.poolRelease conn reusable luw) rfcs := by
    cases reusable with
    | false => exact trivial
    | true =>
      cases luw with
      | none => exact trivial
      | some e => exact h e rfl rfl
  have hrest : settling.Keeps Whatever (Action.tryFinally
      (if reusable then withLock .pool (perform (.appendIdle conn))
        else ConnectionPool.closeQuietly conn) (perform .semRelease)) := by
    refine keeps_tryFinally (keeps_ite ?_ (settling_op rfl)) (settling_op rfl)
    exact settling_withLock (settling_op rfl)
  unfold ConnectionPool.release
  rw [meets_bind]
  exact ⟨hallowed, fun _ => hrest.meets _ trivial⟩

theorem keeps_settling_release {conn : Conn} {reusable : Bool} {luw : Option Entry}
    (h : reusable = false ∨ luw = none) :
    settling.Keeps Whatever (ConnectionPool.release conn reusable luw) := by
  constructor
  intro rfcs _
  apply settling_release
  rintro e rfl rfl
  rcases h with h | h <;> cases h

theorem settling_checkout : settling.Keeps Whatever (ConnectionPool.checkout cfg) := by
  refine keeps_checkout_of fun o ho => settling_op ?_
  cases o <;> first | rfl | cases ho

theorem settling_acquire {body : Conn → Act α}
    (hbody : ∀ conn, settling.Keeps Whatever (body conn)) :
    settling.Keeps Whatever (ConnectionPool.acquire cfg body) := by
  refine keeps_bind settling_checkout fun conn => ?_
  refine keeps_bind (keeps_tryExcept (hbody conn) fun exc => ?_) fun result => ?_
  · exact keeps_bind (keeps_settling_release (.inr rfl)) fun _ => keeps_raise exc
  · exact keeps_bind (keeps_settling_release (.inr rfl)) fun _ => keeps_pure result

/-- After a call that returns, the newest RFC is this call, confirmed by SAP. -/
theorem settling_call {conn : Conn} {p : Purpose} {f : String} {kwargs : PyDict} :
    settling.Meets (conn.call p f kwargs)
      (fun raw rfcs' => ∃ rest, rfcs' = ⟨conn, p, some (.ok raw)⟩ :: rest) (fun _ => Whatever)
      rfcs := by
  unfold Conn.call
  rw [meets_bind]
  refine settling_step rfl fun _ => ?_
  rw [meets_bind]
  refine settling_step rfl fun r => ?_
  rw [meets_ofExcept]
  cases r with
  | ok raw =>
    refine ⟨fun _ hraw => ?_, nofun⟩
    cases hraw
    exact ⟨rfcs, rfl⟩
  | error exc => exact ⟨nofun, fun _ _ => trivial⟩

theorem keeps_settling_call {conn : Conn} {p : Purpose} {f : String} {kwargs : PyDict} :
    settling.Keeps Whatever (conn.call p f kwargs) :=
  ⟨fun _ _ => settling_call.mono (fun _ _ _ => trivial) fun _ _ _ => trivial⟩

theorem keeps_settling_callOnConnection {conn : Conn} {p : Purpose} {f mode : String}
    {kwargs : PyDict} {id : Option TxId} : settling.Keeps Whatever
      (ExecutionInvoker.callOnConnection cfg conn p f kwargs mode id) := by
  refine keeps_bind (keeps_tryExcept keeps_settling_call fun exc => ?_) fun result => ?_
  · exact keeps_bind (settling_op rfl) fun _ => keeps_raise _
  · exact keeps_bind (settling_op rfl) fun _ => keeps_pure _

theorem settling_routine (cfg : AppSettings) : Routine cfg settling Whatever where
  cacheGet _ _ := settling_withLock (settling_op rfl)
  cacheSet _ _ _ := settling_withLock (settling_op rfl)
  log _ _ := settling_op rfl
  note _ _ := settling_op rfl
  pooledCall _ _ := settling_acquire fun _ =>
    keeps_tryExcept keeps_settling_call fun _ => keeps_raise _
  read _ _ _ := settling_acquire fun _ => keeps_settling_callOnConnection

end Rules

section Programs

variable {α : Type} {cfg : AppSettings}

theorem settles_of_call {conn : Conn} {p : Purpose} {e : Entry} {raw : PyDict} {rfcs : List Rfc}
    (hp : p.controls = some e) (h : ∃ rest, rfcs = ⟨conn, p, some (.ok raw)⟩ :: rest) :
    Rfc.Settles e rfcs := by
  obtain ⟨rest, rfl⟩ := h
  exact ⟨conn, p, raw, rest, rfl, hp⟩

theorem settling_release_bind {conn : Conn} {reusable : Bool} {e : Entry} {next : Act α}
    {rfcs : List Rfc} (h : reusable = true → Rfc.Settles e rfcs)
    (hnext : settling.Keeps Whatever next) :
    settling.Meets (ConnectionPool.release conn reusable (some e) >>= fun _ => next)
      (fun _ => Whatever) (fun _ => Whatever) rfcs := by
  rw [meets_bind]
  refine (settling_release ?_).mono (fun _ g _ => hnext.meets g trivial) fun _ _ _ => trivial
  rintro e' hreusable heq
  cases heq
  exact h hreusable

theorem settling_expireLocked (cutoff : Time) (e : Entry) : settling.Keeps Whatever
    (ExecutionInvoker.expireLocked (connectionPool cfg) cutoff e) := by
  refine keeps_bind (settling_withLock (settling_op rfl)) fun removed => ?_
  refine keeps_ite ⟨fun rfcs _ => ?_⟩ (keeps_pure ())
  rw [meets_bind, meets_tryExcept, meets_bind]
  refine settling_call.mono (fun raw g hg => ?_) fun exc g _ => ?_
  · exact settling_release_bind (fun _ => settles_of_call rfl hg) (settling_op rfl)
  · rw [meets_bind]
    exact settling_step rfl fun _ => settling_release_bind nofun (settling_op rfl)

theorem settling_expireTransactions : settling.Keeps Whatever
    (ExecutionInvoker.expireTransactions cfg (connectionPool cfg)) := by
  refine keeps_bind (settling_op rfl) fun now => ?_
  refine keeps_bind (settling_withLock (settling_op rfl)) fun candidates => ?_
  refine keeps_forEach fun e _ => keeps_bind (settling_op rfl) fun lastUsed => ?_
  refine keeps_ite (keeps_pure ()) (keeps_bind (settling_op rfl) fun locked => ?_)
  exact keeps_ite (keeps_tryFinally (settling_expireLocked _ e) (settling_op rfl)) (keeps_pure ())

theorem settling_control (action : ExecutionInvoker.ControlAction) (e : Entry)
    (rfcs : List Rfc) : settling.Meets (ExecutionInvoker.control action e)
      (fun _ g => Rfc.Settles e g) (fun _ => Whatever) rfcs := by
  cases action with
  | commit wait => exact settling_call.mono (fun _ _ hg => settles_of_call rfl hg) fun _ _ h => h
  | rollback => exact settling_call.mono (fun _ _ hg => settles_of_call rfl hg) fun _ _ h => h

theorem settling_finishLocked (action : ExecutionInvoker.ControlAction) (e : Entry) :
    settling.Keeps Whatever
      (ExecutionInvoker.finishLocked cfg (connectionPool cfg) action e) := by
  refine keeps_bind (settling_withLock (settling_op rfl)) fun removed => ?_
  refine keeps_ite (keeps_raise _) ⟨fun rfcs _ => ?_⟩
  rw [meets_bind, meets_tryExcept]
  refine (settling_control action e rfcs).mono (fun result g hg => ?_) fun exc g _ => ?_
  · exact settling_release_bind (fun _ => hg) (keeps_pure result)
  · rw [meets_bind]
    refine settling_step rfl fun _ => ?_
    rw [meets_bind]
    exact ((keeps_settling_release (.inl rfl)).meets _ trivial).mono (fun _ _ _ => trivial)
      fun _ _ _ => trivial

theorem settling_findTransaction (id : TxId) :
    settling.Keeps Whatever (ExecutionInvoker.findTransaction cfg id) := by
  refine keeps_bind (settling_withLock (settling_op rfl)) fun found => ?_
  cases found with
  | none => exact keeps_raise _
  | some a => exact keeps_pure _

theorem settling_finishTransaction (id : TxId) (action : ExecutionInvoker.ControlAction) :
    settling.Keeps Whatever
      (ExecutionInvoker.finishTransaction cfg (connectionPool cfg) id action) := by
  refine keeps_bind settling_expireTransactions fun _ => ?_
  refine keeps_bind (settling_findTransaction id) fun e => ?_
  refine keeps_bind (settling_withLock (settling_finishLocked action e)) fun result => ?_
  exact keeps_bind (settling_op rfl) fun _ => keeps_ofExcept _

theorem settling_close : settling.Keeps Whatever (ExecutionInvoker.close (connectionPool cfg)) := by
  refine keeps_bind (settling_withLock (settling_op rfl)) fun pending => ?_
  refine keeps_forEach fun e _ => settling_withLock ⟨fun rfcs _ => ?_⟩
  unfold ExecutionInvoker.shutdownLocked
  rw [meets_bind, meets_tryExcept, meets_bind]
  have hrelease : ∀ (reusable : Bool) (g : List Rfc), (reusable = true → Rfc.Settles e g) →
      settling.Meets (ConnectionPool.release e.2.connection reusable (some e))
        (fun _ => Whatever) (fun _ => Whatever) g := by
    intro reusable g hg
    apply settling_release
    intro e' hreusable heq
    cases heq
    exact hg hreusable
  refine settling_call.mono (fun raw g hg => ?_) fun exc g _ => ?_
  · rw [meets_bind]
    exact settling_step rfl fun _ => hrelease true _ fun _ => settles_of_call rfl hg
  · rw [meets_bind]
    exact settling_step rfl fun _ => hrelease false _ nofun

theorem settling_getOrCreateTransaction (id : Option TxId) : settling.Keeps Whatever
    (ExecutionInvoker.getOrCreateTransaction cfg (connectionPool cfg) id) := by
  cases id with
  | some id => exact settling_findTransaction id
  | none =>
    refine keeps_bind settling_checkout fun conn => ?_
    refine keeps_bind (settling_op rfl) fun id => ?_
    refine keeps_bind (settling_op rfl) fun now => ?_
    refine keeps_bind (settling_op rfl) fun ref => ?_
    refine keeps_bind (settling_withLock (settling_op rfl)) fun _ => ?_
    exact keeps_bind (settling_op rfl) fun _ => keeps_pure _

/-- The connection of a write that has failed is not for further use. -/
theorem settling_discardTransaction (e : Entry) : settling.Keeps Whatever
    (ExecutionInvoker.discardTransaction (connectionPool cfg) e) := by
  refine keeps_bind (settling_withLock (settling_op rfl)) fun removed => ?_
  refine keeps_ite ?_ (keeps_pure ())
  exact keeps_bind (keeps_settling_release (.inl rfl)) fun _ => settling_op rfl

theorem settling_writeLocked (f mode : String) (callKwargs : PyDict) (e : Entry) :
    settling.Keeps Whatever
      (ExecutionInvoker.writeLocked cfg (connectionPool cfg) f callKwargs mode e) := by
  refine keeps_bind (settling_withLock (settling_op rfl)) fun current => ?_
  refine keeps_ite (keeps_raise _) (keeps_bind (keeps_tryExcept ?_ fun exc => ?_) fun result => ?_)
  · refine keeps_bind keeps_settling_callOnConnection fun raw => ?_
    exact (settling_routine cfg).applyResultLimits f mode raw
  · exact keeps_bind (settling_discardTransaction e) fun _ => keeps_raise exc
  · refine keeps_bind (settling_op rfl) fun now => ?_
    exact keeps_bind (settling_op rfl) fun _ => keeps_pure result

theorem settling_write (f : String) (parameters : PyDict) (id : Option TxId) :
    settling.Keeps Whatever
      (ExecutionInvoker.write cfg (connectionPool cfg) f parameters id) := by
  have hroutine := settling_routine cfg
  refine keeps_bind (hroutine.authorize _ _ _ _ _) fun _ => ?_
  refine keeps_bind (hroutine.getInterface f) fun interface => ?_
  refine keeps_bind (keeps_ofExcept _) fun callKwargs => ?_
  refine keeps_bind (settling_getOrCreateTransaction id) fun e => ?_
  refine keeps_bind (settling_withLock (settling_writeLocked f "write" callKwargs e)) fun _ => ?_
  exact keeps_pure _

theorem settling_answer {x : Act α} (answer : α → Answer) (hx : settling.Keeps Whatever x) :
    settling.Follows (fun (_ : Except PyExc Answer) _ => True)
      (x >>= fun a => pure (answer a) : Act Answer) [] := by
  have hmeets := (keeps_bind hx fun a => keeps_pure (answer a)).meets [] trivial
  exact Follows.mono hmeets fun _ _ _ => trivial

theorem program_settles (request : Request) :
    settling.Follows (fun (_ : Except PyExc Answer) _ => True)
      (request.program cfg (connectionPool cfg)) [] := by
  have hroutine := settling_routine cfg
  cases request with
  | call f parameters mode => exact settling_answer _ (hroutine.call f parameters mode)
  | callTransactional f parameters mode id =>
    refine settling_answer (fun answer : PyValue × Option TxId => .written answer.1 answer.2) ?_
    refine keeps_bind settling_expireTransactions fun _ => ?_
    refine keeps_ite (keeps_ite (keeps_raise _) ?_) ?_
    · exact keeps_bind (hroutine.call f parameters mode) fun _ => keeps_pure _
    · exact keeps_ite (keeps_raise _) (settling_write f parameters id)
  | commit id wait =>
    exact settling_answer _ (keeps_bind (hroutine.authorizeTransactionControl _)
      fun _ => settling_finishTransaction id _)
  | rollback id =>
    exact settling_answer _ (keeps_bind (hroutine.authorizeTransactionControl _)
      fun _ => settling_finishTransaction id _)
  | search pattern group limit => exact settling_answer _ (hroutine.search pattern group limit)
  | getInterface f => exact settling_answer _ (hroutine.getInterface f)
  | readSource objectType name => exact settling_answer _ (hroutine.readViaRfc objectType name)
  | expireTransactions => exact settling_answer (fun _ => .done) settling_expireTransactions
  | close => exact settling_answer (fun _ => .done) settling_close
  | closeAll =>
    refine settling_answer (fun _ => .done) ?_
    refine keeps_bind (settling_withLock (settling_op rfl)) fun idle => ?_
    exact keeps_forEach fun conn _ => settling_op rfl

end Programs

end RfcMcp
