import RfcMcp.Reuse.Protocol

namespace RfcMcp

open Framework Framework.Protocol

section Programs

variable {α : Type} {g : Wear} (cfg : AppSettings)

/-- Releasing the connection that has just raised, and what follows. -/
theorem wear_release_bind {conn : Conn} {reusable : Bool} {luw : Option Entry} {next : Act α}
    (hg : g.Clean ∨ g.spoiled = some conn ∧ reusable = false) (hnext : wear.Keeps Wear.Clean next) :
    wear.Meets (ConnectionPool.release conn reusable luw >>= fun _ => next) (fun _ => Wear.Clean)
      (fun _ => Wear.Clean) g := by
  rw [meets_bind]
  exact Meets.mono (wear_release hg) (fun _ g' hg' => hnext.meets g' hg') fun _ _ hg' => hg'

theorem keeps_expireLocked (cutoff : Time) (e : Entry) :
    wear.Keeps Wear.Clean (ExecutionInvoker.expireLocked (connectionPool cfg) cutoff e) := by
  refine keeps_bind (keeps_withLock (keeps_op rfl)) fun removed => ?_
  refine keeps_ite ⟨fun g hg => ?_⟩ (keeps_pure ())
  have hrest : ∀ (reusable : Bool) (g' : Wear),
      (g'.Clean ∨ g'.spoiled = some e.2.connection ∧ reusable = false) → wear.Meets
        (do
          ConnectionPool.release e.2.connection reusable (some e)
          log (ExecutionInvoker.warning "TRANSACTION EXPIRED transaction_id=%s" [e.1]))
        (fun _ => Wear.Clean) (fun _ => Wear.Clean) g' :=
    fun reusable g' hg' => wear_release_bind hg' (keeps_op rfl)
  rw [meets_bind, meets_tryExcept, meets_bind]
  refine Meets.mono (wear_call hg) (fun _ g' hg' => ?_) fun exc g' hg' => ?_
  · exact hrest true g' (.inl hg')
  · rw [meets_bind]
    exact wear_log (hrest false g' (.inr ⟨hg', rfl⟩))

theorem keeps_expireTransactions :
    wear.Keeps Wear.Clean (ExecutionInvoker.expireTransactions cfg (connectionPool cfg)) := by
  refine keeps_bind (keeps_op rfl) fun now => ?_
  refine keeps_bind (keeps_withLock (keeps_op rfl)) fun candidates => ?_
  refine keeps_forEach fun e _ => keeps_bind (keeps_op rfl) fun lastUsed => ?_
  refine keeps_ite (keeps_pure ()) (keeps_bind (keeps_op rfl) fun locked => ?_)
  exact keeps_ite (keeps_tryFinally (keeps_expireLocked cfg _ e) (keeps_op rfl)) (keeps_pure ())

theorem wear_control {action : ExecutionInvoker.ControlAction} {e : Entry} (hg : g.Clean) :
    wear.Meets (ExecutionInvoker.control action e) (fun _ => Wear.Clean)
      (fun _ g' => g'.spoiled = some e.2.connection) g := by
  cases action with
  | commit wait => exact wear_call hg
  | rollback => exact wear_call hg

theorem keeps_finishLocked (action : ExecutionInvoker.ControlAction) (e : Entry) :
    wear.Keeps Wear.Clean (ExecutionInvoker.finishLocked cfg (connectionPool cfg) action e) := by
  refine keeps_bind (keeps_withLock (keeps_op rfl)) fun removed => ?_
  refine keeps_ite (keeps_raise _) ⟨fun g hg => ?_⟩
  rw [meets_bind, meets_tryExcept]
  refine Meets.mono (wear_control hg) (fun result g' hg' => ?_) fun exc g' hg' => ?_
  · exact wear_release_bind (.inl hg') (keeps_pure result)
  · rw [meets_bind]
    have hraise : wear.Keeps Wear.Clean
        (Action.raise (ExecutionInvoker.translate cfg exc) : Act PyDict) := keeps_raise _
    exact wear_log (wear_release_bind (.inr ⟨hg', rfl⟩) hraise)

theorem keeps_findTransaction (id : TxId) :
    wear.Keeps Wear.Clean (ExecutionInvoker.findTransaction cfg id) := by
  refine keeps_bind (keeps_withLock (keeps_op rfl)) fun found => ?_
  cases found with
  | none => exact keeps_raise _
  | some a => exact keeps_pure _

theorem keeps_finishTransaction (id : TxId) (action : ExecutionInvoker.ControlAction) :
    wear.Keeps Wear.Clean
      (ExecutionInvoker.finishTransaction cfg (connectionPool cfg) id action) := by
  refine keeps_bind (keeps_expireTransactions cfg) fun _ => ?_
  refine keeps_bind (keeps_findTransaction cfg id) fun e => ?_
  refine keeps_bind (keeps_withLock (keeps_finishLocked cfg action e)) fun result => ?_
  exact keeps_bind (keeps_op rfl) fun _ => keeps_ofExcept _

theorem keeps_close : wear.Keeps Wear.Clean (ExecutionInvoker.close (connectionPool cfg)) := by
  refine keeps_bind (keeps_withLock (keeps_op rfl)) fun pending => ?_
  refine keeps_forEach fun e _ => keeps_withLock ⟨fun g hg => ?_⟩
  unfold ExecutionInvoker.shutdownLocked
  rw [meets_bind, meets_tryExcept, meets_bind]
  refine Meets.mono (wear_call hg) (fun _ g' hg' => ?_) fun exc g' hg' => ?_
  · rw [meets_bind]
    exact wear_log (wear_release (.inl hg'))
  · rw [meets_bind]
    exact wear_log (wear_release (.inr ⟨hg', rfl⟩))

theorem keeps_getOrCreateTransaction (id : Option TxId) :
    wear.Keeps Wear.Clean
      (ExecutionInvoker.getOrCreateTransaction cfg (connectionPool cfg) id) := by
  cases id with
  | some id => exact keeps_findTransaction cfg id
  | none =>
    refine keeps_bind keeps_checkout fun conn => ?_
    refine keeps_bind (keeps_op rfl) fun id => ?_
    refine keeps_bind (keeps_op rfl) fun now => ?_
    refine keeps_bind (keeps_op rfl) fun ref => ?_
    refine keeps_bind (keeps_withLock (keeps_op rfl)) fun _ => ?_
    exact keeps_bind (keeps_op rfl) fun _ => keeps_pure _

/-- A write that has raised discards its transaction, unless it is not registered any more. -/
theorem wear_writeLocked (f mode : String) (callKwargs : PyDict) (e : Entry) (hg : g.Clean) :
    wear.Meets (ExecutionInvoker.writeLocked cfg (connectionPool cfg) f callKwargs mode e)
      (fun _ => Wear.Clean) (fun _ _ => True) g := by
  have hdiscard : ∀ (ok : PyValue → Wear → Prop) (exc : PyExc) (g' : Wear),
      (g'.Clean ∨ g'.spoiled = some e.2.connection) → wear.Meets
        (do
          ExecutionInvoker.discardTransaction (connectionPool cfg) e
          (Action.raise exc : Act PyValue))
        ok (fun _ _ => True) g' := by
    intro ok exc g' hg'
    unfold ExecutionInvoker.discardTransaction ExecutionInvoker.removeIfCurrent
    rw [meets_bind, meets_bind]
    refine wear_withLock (wear_op rfl fun removed => ?_)
    cases removed with
    | false => exact trivial
    | true =>
      rw [if_pos rfl, meets_bind]
      refine Meets.mono (wear_release ?_) (fun _ _ _ => wear_log trivial) fun _ _ _ => trivial
      exact hg'.imp id fun hspoiled => ⟨hspoiled, rfl⟩
  unfold ExecutionInvoker.writeLocked ExecutionInvoker.isCurrentTransaction
  rw [meets_bind]
  refine wear_withLock (wear_op rfl fun current => ?_)
  cases current with
  | false => exact trivial
  | true =>
    rw [if_neg (by simp), meets_bind, meets_tryExcept, meets_bind]
    refine Meets.mono (wear_callOnConnection hg) (fun raw g' hg' => ?_)
      fun exc g' hg' => hdiscard _ exc g' (.inr hg')
    refine Meets.mono ((wear_routine cfg).applyResultLimits f mode raw |>.meets g' hg')
      (fun value g'' hg'' => ?_) fun exc g'' hg'' => hdiscard _ exc g'' (.inl hg'')
    rw [meets_bind]
    refine wear_op rfl fun now => ?_
    rw [meets_bind]
    exact wear_op rfl fun _ => hg''

theorem wear_write (f : String) (parameters : PyDict) (id : Option TxId) (hg : g.Clean) :
    wear.Meets (ExecutionInvoker.write cfg (connectionPool cfg) f parameters id)
      (fun _ => Wear.Clean) (fun _ _ => True) g := by
  have hroutine := wear_routine cfg
  unfold ExecutionInvoker.write
  rw [meets_bind]
  refine ((hroutine.authorize _ _ _ _ _).meets g hg).mono (fun _ g hg => ?_) fun _ _ _ => trivial
  rw [meets_bind]
  refine ((hroutine.getInterface f).meets g hg).mono (fun interface g hg => ?_)
    fun _ _ _ => trivial
  rw [meets_bind]
  refine ((keeps_ofExcept _).meets g hg).mono (fun callKwargs g hg => ?_) fun _ _ _ => trivial
  rw [meets_bind]
  refine ((keeps_getOrCreateTransaction cfg id).meets g hg).mono (fun e g hg => ?_)
    fun _ _ _ => trivial
  rw [meets_bind]
  exact (wear_withLock (wear_writeLocked cfg f "write" callKwargs e hg)).mono
    (fun _ _ hg => hg) fun _ _ _ => trivial

theorem keeps_answer {x : Act α} (answer : α → Answer) (hx : wear.Keeps Wear.Clean x) :
    wear.Follows (fun (_ : Except PyExc Answer) _ => True)
      (x >>= fun a => pure (answer a) : Act Answer) {} := by
  have hmeets := (keeps_bind hx fun a => keeps_pure (answer a)).meets {} rfl
  exact Follows.mono hmeets fun _ _ _ => trivial

theorem program_wears (request : Request) :
    wear.Follows (fun (_ : Except PyExc Answer) _ => True)
      (request.program cfg (connectionPool cfg)) {} := by
  have hroutine := wear_routine cfg
  cases request with
  | call f parameters mode => exact keeps_answer _ (hroutine.call f parameters mode)
  | callTransactional f parameters mode id =>
    have hmeets : wear.Meets
        (Request.program cfg (connectionPool cfg) (.callTransactional f parameters mode id))
        (fun _ _ => True) (fun _ _ => True) {} := by
      show wear.Meets (_ >>= _) _ _ _
      unfold ExecutionInvoker.callTransactional
      rw [meets_bind, meets_bind]
      refine ((keeps_expireTransactions cfg).meets {} rfl).mono (fun _ g hg => ?_)
        fun _ _ _ => trivial
      split
      · split
        · exact trivial
        · rw [meets_bind]
          exact ((hroutine.call f parameters mode).meets g hg).mono (fun _ _ _ => trivial)
            fun _ _ _ => trivial
      split
      · exact trivial
      · exact (wear_write cfg f parameters id hg).mono (fun _ _ _ => trivial) fun _ _ _ => trivial
    exact Follows.mono hmeets fun _ _ _ => trivial
  | commit id wait =>
    exact keeps_answer _ (keeps_bind (hroutine.authorizeTransactionControl _)
      fun _ => keeps_finishTransaction cfg id _)
  | rollback id =>
    exact keeps_answer _ (keeps_bind (hroutine.authorizeTransactionControl _)
      fun _ => keeps_finishTransaction cfg id _)
  | search pattern group limit => exact keeps_answer _ (hroutine.search pattern group limit)
  | getInterface f => exact keeps_answer _ (hroutine.getInterface f)
  | readSource objectType name => exact keeps_answer _ (hroutine.readViaRfc objectType name)
  | expireTransactions => exact keeps_answer (fun _ => .done) (keeps_expireTransactions cfg)
  | close => exact keeps_answer (fun _ => .done) (keeps_close cfg)
  | closeAll =>
    refine keeps_answer (fun _ => .done) ?_
    refine keeps_bind (keeps_withLock (keeps_op rfl)) fun idle => ?_
    exact keeps_forEach fun conn _ => keeps_op rfl

end Programs

end RfcMcp
