import RfcMcp.Expiry.Sweep

namespace RfcMcp

open Framework Framework.Protocol

variable {α : Type} {cfg : AppSettings} {trace : Trace Effects} {J : Trace Effects → Prop}

section Rules

/-- `J` stays true, whatever is done but for another sweep. -/
structure Stable (J : Trace Effects → Prop) : Prop where
  cons : ∀ o v trace, o.isSnapshot = false → J trace → J (⟨o, v⟩ :: trace)

theorem stable_allDealt (ttl : Time) : Stable (AllDealt ttl) := ⟨fun _ _ _ ho h => h.cons ho⟩

theorem stable_sweeping (ttl now : Time) (candidates rest : List Entry) :
    Stable (Sweeping ttl now candidates rest) := ⟨fun _ _ _ ho h => h.cons ho⟩

theorem stable_mem (did : Σ o : Op, o.Res) : Stable fun trace => did ∈ trace :=
  ⟨fun _ _ _ _ h => List.mem_cons_of_mem _ h⟩

theorem Stable.and {I : Trace Effects → Prop} (hI : Stable I) (hJ : Stable J) :
    Stable fun trace => I trace ∧ J trace :=
  ⟨fun o v trace ho h => ⟨hI.cons o v trace ho h.1, hJ.cons o v trace ho h.2⟩⟩

theorem stable_op (hJ : Stable J) {o : Op} (ho : o.isFree = true)
    {ok : o.Res → Trace Effects → Prop} {err : PyExc → Trace Effects → Prop} (h : J trace)
    (hok : ∀ v trace, J trace → ok v trace) : (sweeping cfg).Meets (perform o) ok err trace :=
  ⟨guard_of_free ho _ trace, fun v => hok v _ (hJ.cons o v trace (isSnapshot_of_free ho) h)⟩

def quietAreas : List Area :=
  [.lock, .borrow, .giveBack, .closeAll, .rfc, .find, .remove, .clock, .cache, .log]

theorem keeps_quiet (hJ : Stable J) {areas : List Area} {x : Act α} (hx : Within areas x)
    (h : covers quietAreas areas = true) : (sweeping cfg).Keeps J x := by
  refine (hx.mono h).keeps fun o ho => ⟨fun trace htrace => ?_⟩
  refine stable_op hJ ?_ htrace fun _ _ hafter => hafter
  cases o with
  | rfcBegin conn p f kwargs => cases p <;> first | rfl | simp [Op.area, quietAreas] at ho
  | _ => first | rfl | simp [Op.area, quietAreas] at ho

theorem stable_withLock {I : α → Trace Effects → Prop} {E : PyExc → Trace Effects → Prop}
    (hJ : Stable J) (hI : ∀ a, Stable (I a)) (hE : ∀ exc, Stable (E exc)) {l : LockId} {x : Act α}
    (h : J trace) (hx : ∀ trace, J trace → (sweeping cfg).Meets x I E trace) :
    (sweeping cfg).Meets (withLock l x) I E trace := by
  unfold withLock
  rw [meets_bind]
  refine stable_op hJ rfl h fun _ trace htrace => ?_
  rw [meets_tryFinally]
  refine (hx trace htrace).mono (fun a trace ha => ?_) fun exc trace hexc => ?_
  · exact stable_op (hI a) rfl ha fun _ _ hafter => hafter
  · exact stable_op (hE exc) rfl hexc fun _ _ hafter => hafter

/-- Giving a connection back does not raise. -/
theorem stable_release (hJ : Stable J) {conn : Conn} {reusable : Bool} {luw : Option Entry}
    (h : J trace) : (sweeping cfg).Meets (ConnectionPool.release conn reusable luw)
      (fun _ => J) (fun _ _ => False) trace := by
  unfold ConnectionPool.release
  rw [meets_bind]
  refine stable_op hJ rfl h fun _ trace htrace => ?_
  rw [meets_tryFinally]
  have hlast : ∀ trace, J trace → (sweeping cfg).Meets (perform .semRelease) (fun _ => J)
      (fun _ _ => False) trace := by
    intro trace htrace
    exact stable_op hJ rfl htrace fun _ _ hafter => hafter
  cases reusable with
  | true =>
    rw [if_pos rfl]
    refine (stable_withLock (E := fun _ _ => False) hJ (fun _ => hJ) (fun _ => ⟨fun _ _ _ _ h => h⟩)
      htrace fun trace htrace => ?_).mono (fun _ trace htrace => hlast trace htrace)
      fun _ _ hfalse => hfalse.elim
    exact stable_op hJ rfl htrace fun _ _ hafter => hafter
  | false =>
    rw [if_neg Bool.false_ne_true]
    exact stable_op (o := .closeConnection conn) hJ rfl htrace fun _ trace htrace =>
      hlast trace htrace

end Rules

section Expiring

variable {now : Time} {candidates rest : List Entry} {e : Entry}

/-- What follows the removal: the rollback may fail, the release and the loop go on. -/
theorem sweeping_reclaim (h : Sweeping cfg.transactionTtl now candidates rest trace)
    (he : Expired trace e) : (sweeping cfg).Meets
      (do
        let reusable ← Action.tryExcept
          (do
            let _ ← Transaction.rollback e.2.connection (.expire e)
            pure true)
          fun exc => do
            log (ExecutionInvoker.warning "ROLLBACK FAILED transaction_id=%s reason=expired" [e.1]
              (some exc))
            pure false
        (connectionPool cfg).release e.2.connection reusable (some e)
        log (ExecutionInvoker.warning "TRANSACTION EXPIRED transaction_id=%s" [e.1]) : Act Unit)
      (fun _ => Sweeping cfg.transactionTtl now candidates rest) (fun _ _ => False) trace := by
  have hgoOn : ∀ (reusable : Bool) (trace : Trace Effects),
      Sweeping cfg.transactionTtl now candidates rest trace → (sweeping cfg).Meets
        (do
          (connectionPool cfg).release e.2.connection reusable (some e)
          log (ExecutionInvoker.warning "TRANSACTION EXPIRED transaction_id=%s" [e.1]) : Act Unit)
        (fun _ => Sweeping cfg.transactionTtl now candidates rest) (fun _ _ => False) trace := by
    intro reusable trace htrace
    rw [meets_bind]
    refine (stable_release (stable_sweeping ..) htrace).mono (fun _ trace htrace => ?_)
      fun _ _ hfalse => hfalse
    exact stable_op (o := .log _) (stable_sweeping ..) rfl htrace fun _ _ hafter => hafter
  rw [meets_bind, meets_tryExcept, meets_bind]
  unfold Transaction.rollback Conn.call
  rw [meets_bind]
  refine traced_op he fun _ => ?_
  have hbegun := h.cons (o := .rfcBegin e.2.connection (.expire e) "BAPI_TRANSACTION_ROLLBACK" [])
    (v := ()) rfl
  rw [meets_bind]
  refine stable_op (stable_sweeping ..) rfl hbegun fun r trace htrace => ?_
  rw [meets_ofExcept]
  refine ⟨fun _ _ => hgoOn true trace htrace, fun exc _ => ?_⟩
  rw [meets_bind]
  exact stable_op (o := .log _) (stable_sweeping ..) rfl htrace fun _ trace htrace =>
    hgoOn false trace htrace

/-- What becomes of the next candidate, once its lock has been taken. -/
theorem sweeping_expireLocked (h : Sweeping cfg.transactionTtl now candidates (e :: rest) trace) :
    (sweeping cfg).Meets
      (ExecutionInvoker.expireLocked (connectionPool cfg) (now - cfg.transactionTtl) e)
      (fun _ => Sweeping cfg.transactionTtl now candidates rest) (fun _ _ => False) trace := by
  have hstable : ∀ removed : Bool, Stable fun trace =>
      Sweeping cfg.transactionTtl now candidates rest trace ∧
        (removed = true → Expired trace e) := by
    intro removed
    refine (stable_sweeping ..).and ⟨fun o v trace _ he hremoved => ?_⟩
    exact (he hremoved).cons
  unfold ExecutionInvoker.expireLocked
  rw [meets_bind]
  refine (stable_withLock (E := fun _ _ => False) (stable_sweeping ..) hstable
    (fun _ => ⟨fun _ _ _ _ h => h⟩) h fun trace htrace => ?_).mono (fun removed trace hdone => ?_)
    fun _ _ hfalse => hfalse
  · have he : e ∈ candidates := htrace.left e List.mem_cons_self
    refine traced_op ⟨now, candidates, rfl, htrace.here, he⟩ fun removed => ?_
    have hnext := (htrace.cons (o := .removeIfExpired e.1 e.2 (now - cfg.transactionTtl))
      (v := removed) rfl).next (DealtWith.settled htrace.here .decided)
    refine ⟨hnext, fun hremoved => ?_⟩
    subst hremoved
    exact ⟨now - cfg.transactionTtl, List.mem_cons_self⟩
  · cases removed with
    | false => exact hdone.1
    | true => exact sweeping_reclaim hdone.1 (hdone.2 rfl)

theorem sweeping_expireCandidate
    (h : Sweeping cfg.transactionTtl now candidates (e :: rest) trace) : (sweeping cfg).Meets
      (ExecutionInvoker.expireCandidate (connectionPool cfg) (now - cfg.transactionTtl) e)
      (fun _ => Sweeping cfg.transactionTtl now candidates rest) (fun _ _ => False) trace := by
  unfold ExecutionInvoker.expireCandidate
  rw [meets_bind]
  refine traced_op trivial fun last => ?_
  have hread := h.cons (o := .readLastUsed e.2) (v := last) rfl
  by_cases hused : now - cfg.transactionTtl ≤ last
  · rw [if_pos hused]
    exact hread.next (DealtWith.settled h.here (.used hused))
  · rw [if_neg hused, meets_bind]
    refine traced_op trivial fun locked => ?_
    have htried := hread.cons (o := .tryAcquire (.active e.2.ref)) (v := locked) rfl
    cases locked with
    | false => exact htried.next (DealtWith.settled hread.here .locked)
    | true =>
      rw [if_pos rfl, meets_tryFinally]
      refine (sweeping_expireLocked htried).mono (fun _ trace hdone => ?_)
        fun _ _ hfalse => hfalse.elim
      exact stable_op (stable_sweeping ..) rfl hdone fun _ _ hafter => hafter

/-- A sweep deals with all its candidates, whatever comes of rolling some of them back. -/
theorem sweeping_expireTransactions (h : AllDealt cfg.transactionTtl trace) : (sweeping cfg).Meets
    (ExecutionInvoker.expireTransactions cfg (connectionPool cfg))
    (fun _ => AllDealt cfg.transactionTtl) (fun _ _ => False) trace := by
  unfold ExecutionInvoker.expireTransactions withLock
  rw [meets_bind]
  refine traced_op trivial fun now => ?_
  rw [meets_bind, meets_bind]
  refine traced_op trivial fun _ => ?_
  rw [meets_tryFinally]
  refine traced_op trivial fun candidates => ?_
  refine stable_op (stable_sweeping ..) rfl (Sweeping.begin h) fun _ trace htrace => ?_
  refine (meets_forEach (fun rest => Sweeping cfg.transactionTtl now candidates rest) candidates _
    htrace fun e rest trace htrace => sweeping_expireCandidate htrace).mono
    (fun _ _ hdone => hdone.all) fun _ _ hfalse => hfalse

end Expiring

section Writing

variable {e : Entry} {ttl : Time}

/-- A write of the thread to `e` has been recorded as its last use. -/
def Recorded (trace : Trace Effects) (e : Entry) : Prop :=
  ⟨.isCurrent e.1 e.2, true⟩ ∈ trace ∧ ∃ now, ⟨.setLastUsed e.2 now, ()⟩ ∈ trace

/-- The write to `e` has been made. -/
def Made (e : Entry) (trace : Trace Effects) : Prop :=
  ⟨.isCurrent e.1 e.2, true⟩ ∈ trace ∧
    ∃ f kwargs result, ⟨.rfcEnd e.2.connection f kwargs, .ok result⟩ ∈ trace

theorem stable_made : Stable (Made e) := by
  constructor
  intro o v trace _ h
  obtain ⟨hcurrent, f, kwargs, result, hended⟩ := h
  exact ⟨List.mem_cons_of_mem _ hcurrent, f, kwargs, result, List.mem_cons_of_mem _ hended⟩

theorem sweeping_callOnConnection {f mode : String} {kwargs : PyDict}
    (h : AllDealt cfg.transactionTtl trace) (hcurrent : ⟨.isCurrent e.1 e.2, true⟩ ∈ trace) :
    (sweeping cfg).Meets (ExecutionInvoker.callOnConnection cfg e.2.connection (.write e) f kwargs
        mode (some e.1))
      (fun _ trace => AllDealt cfg.transactionTtl trace ∧ Made e trace)
      (fun _ => AllDealt cfg.transactionTtl) trace := by
  have hstable := (stable_allDealt cfg.transactionTtl).and (stable_mem ⟨.isCurrent e.1 e.2, true⟩)
  have hmade := (stable_allDealt cfg.transactionTtl).and (@stable_made e)
  unfold ExecutionInvoker.callOnConnection Conn.call
  rw [meets_bind, meets_tryExcept, meets_bind]
  refine stable_op hstable rfl ⟨h, hcurrent⟩ fun _ trace htrace => ?_
  rw [meets_bind]
  refine traced_op trivial fun r => ?_
  have hended := hstable.cons (.rfcEnd e.2.connection f kwargs) r trace rfl htrace
  rw [meets_ofExcept]
  refine ⟨fun result hr => ?_, fun exc _ => ?_⟩
  · rw [meets_bind]
    subst hr
    refine stable_op (o := .log _) hmade rfl ⟨hended.1, hended.2, f, kwargs, result, ?_⟩
      fun _ _ hafter => hafter
    exact List.mem_cons_self
  · rw [meets_bind]
    exact stable_op (o := .log _) (stable_allDealt _) rfl hended.1 fun _ _ hafter => hafter

theorem sweeping_writeLocked {f : String} {kwargs : PyDict}
    (h : AllDealt cfg.transactionTtl trace) : (sweeping cfg).Meets
      (ExecutionInvoker.writeLocked cfg (connectionPool cfg) f kwargs "write" e)
      (fun _ trace => AllDealt cfg.transactionTtl trace ∧ Recorded trace e)
      (fun _ => AllDealt cfg.transactionTtl) trace := by
  have hdealt := stable_allDealt cfg.transactionTtl
  have hcurrent : ∀ current : Bool, Stable fun trace => AllDealt cfg.transactionTtl trace ∧
      ⟨.isCurrent e.1 e.2, current⟩ ∈ trace := fun current => hdealt.and (stable_mem _)
  have hdiscard : ∀ (ok : PyValue → Trace Effects → Prop) (exc : PyExc) (trace : Trace Effects),
      AllDealt cfg.transactionTtl trace → (sweeping cfg).Meets
        (do
          ExecutionInvoker.discardTransaction (connectionPool cfg) e
          (Action.raise exc : Act PyValue))
        ok (fun _ => AllDealt cfg.transactionTtl) trace := by
    intro ok exc trace htrace
    rw [meets_bind]
    exact ((keeps_quiet hdealt (within_discardTransaction cfg e) rfl).meets trace htrace).mono
      (fun _ _ hafter => hafter) fun _ _ hafter => hafter
  unfold ExecutionInvoker.writeLocked ExecutionInvoker.isCurrentTransaction
  rw [meets_bind]
  refine (stable_withLock (E := fun _ => AllDealt cfg.transactionTtl) hdealt hcurrent
    (fun _ => hdealt) h fun trace htrace => ?_).mono (fun current trace htrace => ?_)
    fun _ _ hafter => hafter
  · refine traced_op trivial fun current => ⟨htrace.cons rfl, List.mem_cons_self⟩
  · cases current with
    | false => exact htrace.1
    | true =>
      rw [if_neg (by simp), meets_bind, meets_tryExcept, meets_bind]
      refine (sweeping_callOnConnection htrace.1 htrace.2).mono (fun raw trace hmade => ?_)
        fun exc trace hafter => hdiscard _ exc trace hafter
      have hlimits : (sweeping cfg).Keeps (fun trace => AllDealt cfg.transactionTtl trace ∧
          Made e trace) (ExecutionInvoker.applyResultLimits cfg f "write" raw) :=
        keeps_quiet (hdealt.and (@stable_made e)) (within_applyResultLimits cfg f "write" raw) rfl
      refine (hlimits.meets trace hmade).mono (fun value trace hmade => ?_)
        fun exc trace hafter => hdiscard _ exc trace hafter.1
      rw [meets_bind]
      refine traced_op trivial fun now => ?_
      have htimed := hdealt.cons .monotonic now trace rfl hmade.1
      obtain ⟨hcurrent, f', kwargs', result, hended⟩ := hmade.2
      rw [meets_bind]
      refine traced_op ⟨trace, f', kwargs', result, rfl, hended⟩ fun _ => ?_
      refine ⟨htimed.cons rfl, ?_, now, List.mem_cons_self⟩
      exact List.mem_cons_of_mem _ (List.mem_cons_of_mem _ hcurrent)

theorem sweeping_createTransaction (h : AllDealt cfg.transactionTtl trace) :
    (sweeping cfg).Meets (ExecutionInvoker.createTransaction (connectionPool cfg))
      (fun _ => AllDealt cfg.transactionTtl) (fun _ => AllDealt cfg.transactionTtl) trace := by
  have hdealt := stable_allDealt cfg.transactionTtl
  unfold ExecutionInvoker.createTransaction
  rw [meets_bind]
  refine ((keeps_quiet hdealt (within_checkout cfg) rfl).meets trace h).mono
    (fun conn trace htrace => ?_) fun _ _ hafter => hafter
  rw [meets_bind]
  refine stable_op hdealt rfl htrace fun id trace htrace => ?_
  rw [meets_bind]
  refine traced_op trivial fun now => ?_
  rw [meets_bind]
  refine traced_op ⟨trace, rfl⟩ fun ref => ?_
  dsimp only
  rw [meets_bind]
  refine (stable_withLock (I := fun _ => AllDealt cfg.transactionTtl)
    (E := fun _ => AllDealt cfg.transactionTtl) hdealt (fun _ => hdealt) (fun _ => hdealt)
    ((htrace.cons rfl).cons rfl) fun trace htrace => ?_).mono (fun _ trace htrace => ?_)
    fun _ _ hafter => hafter
  · exact stable_op hdealt rfl htrace fun _ _ hafter => hafter
  · rw [meets_bind]
    exact stable_op (o := .log _) hdealt rfl htrace fun _ _ hafter => hafter

theorem sweeping_write (f : String) (parameters : PyDict) (id : Option TxId)
    (h : AllDealt cfg.transactionTtl trace) : (sweeping cfg).Meets
      (ExecutionInvoker.write cfg (connectionPool cfg) f parameters id)
      (fun r trace => AllDealt cfg.transactionTtl trace ∧
        ∀ id, r.2 = some id → ∃ a, Recorded trace (id, a))
      (fun _ => AllDealt cfg.transactionTtl) trace := by
  have hdealt := stable_allDealt cfg.transactionTtl
  have hreserve : ∀ trace, AllDealt cfg.transactionTtl trace → (sweeping cfg).Meets
      (ExecutionInvoker.getOrCreateTransaction cfg (connectionPool cfg) id)
      (fun _ => AllDealt cfg.transactionTtl) (fun _ => AllDealt cfg.transactionTtl) trace := by
    intro trace htrace
    cases id with
    | some id => exact (keeps_quiet hdealt (within_findTransaction cfg id) rfl).meets trace htrace
    | none => exact sweeping_createTransaction htrace
  unfold ExecutionInvoker.write
  rw [meets_bind]
  refine ((keeps_quiet hdealt (within_authorize cfg _ _ _) rfl).meets trace h).mono
    (fun _ trace htrace => ?_) fun _ _ hafter => hafter
  rw [meets_bind]
  refine ((keeps_quiet hdealt (within_getInterface cfg f) rfl).meets trace htrace).mono
    (fun interface trace htrace => ?_) fun _ _ hafter => hafter
  rw [meets_bind, meets_ofExcept]
  refine ⟨fun callKwargs _ => ?_, fun _ _ => htrace⟩
  rw [meets_bind]
  refine (hreserve trace htrace).mono (fun e trace htrace => ?_) fun _ _ hafter => hafter
  rw [meets_bind]
  have hrecorded : Stable fun trace => AllDealt cfg.transactionTtl trace ∧ Recorded trace e := by
    refine hdealt.and ⟨fun o v trace _ hdone => ?_⟩
    obtain ⟨hcurrent, now, hset⟩ := hdone
    exact ⟨List.mem_cons_of_mem _ hcurrent, now, List.mem_cons_of_mem _ hset⟩
  refine (stable_withLock hdealt (fun _ => hrecorded) (fun _ => hdealt) htrace
    fun trace htrace => sweeping_writeLocked htrace).mono (fun result trace hdone => ?_)
    fun _ _ hafter => hafter
  refine ⟨hdone.1, fun id hid => ?_⟩
  cases hid
  exact ⟨e.2, hdone.2⟩

end Writing

section Requests

/-- What a request leaves behind when it is done. -/
def SweepsDone (ttl : Time) (reply : Except PyExc Answer) (trace : Trace Effects) : Prop :=
  AllDealt ttl trace ∧
    ∀ value id, reply = .ok (.written value (some id)) → ∃ a, Recorded trace (id, a)

theorem sweepsDone_of_keeps {x : Act α} {answer : α → Answer}
    (hanswer : ∀ a value id, answer a ≠ .written value (some id)) {trace : Trace Effects}
    (hx : (sweeping cfg).Meets x (fun _ => AllDealt cfg.transactionTtl)
      (fun _ => AllDealt cfg.transactionTtl) trace) :
    (sweeping cfg).Follows (SweepsDone cfg.transactionTtl)
      (do
        let a ← x
        pure (answer a) : Act Answer) trace := by
  have hmeets : (sweeping cfg).Meets
      (do
        let a ← x
        pure (answer a) : Act Answer)
      (fun r trace => (∃ a, r = answer a) ∧ AllDealt cfg.transactionTtl trace)
      (fun _ => AllDealt cfg.transactionTtl) trace := by
    rw [meets_bind]
    exact hx.mono (fun a _ hdone => ⟨⟨a, rfl⟩, hdone⟩) fun _ _ hdone => hdone
  refine Follows.mono hmeets fun reply trace hdone => ?_
  cases reply with
  | ok r =>
    obtain ⟨⟨a, rfl⟩, hdealt⟩ := hdone
    refine ⟨hdealt, fun value id hwritten => ?_⟩
    injection hwritten with hwritten
    exact absurd hwritten (hanswer a value id)
  | error exc => exact ⟨hdone, fun _ _ hwritten => by cases hwritten⟩

theorem sweeping_callTransactional (f mode : String) (parameters : PyDict) (id : Option TxId)
    (h : AllDealt cfg.transactionTtl trace) : (sweeping cfg).Meets
      (ExecutionInvoker.callTransactional cfg (connectionPool cfg) f parameters mode id)
      (fun r trace => AllDealt cfg.transactionTtl trace ∧
        ∀ id, r.2 = some id → ∃ a, Recorded trace (id, a))
      (fun _ => AllDealt cfg.transactionTtl) trace := by
  have hdealt := stable_allDealt cfg.transactionTtl
  unfold ExecutionInvoker.callTransactional
  rw [meets_bind]
  refine (sweeping_expireTransactions h).mono (fun _ trace htrace => ?_)
    fun _ _ hfalse => hfalse.elim
  by_cases hread : mode = "read"
  · rw [if_pos hread]
    split
    · exact htrace
    · rw [meets_bind]
      refine ((keeps_quiet hdealt (within_invokerCall cfg f parameters mode) rfl).meets trace
        htrace).mono (fun _ trace htrace => ?_) fun _ _ hafter => hafter
      exact ⟨htrace, fun _ hnone => by cases hnone⟩
  · rw [if_neg hread]
    split
    · exact htrace
    · exact sweeping_write f parameters id htrace

theorem sweeping_finishTransaction (id : TxId) (action : ExecutionInvoker.ControlAction)
    (h : AllDealt cfg.transactionTtl trace) : (sweeping cfg).Meets
      (do
        ExecutionPolicy.authorizeTransactionControl cfg.policy
        ExecutionInvoker.finishTransaction cfg (connectionPool cfg) id action : Act PyValue)
      (fun _ => AllDealt cfg.transactionTtl) (fun _ => AllDealt cfg.transactionTtl) trace := by
  have hdealt := stable_allDealt cfg.transactionTtl
  have hrest : Within [.lock, .find, .remove, .rfc, .giveBack, .log] (do
      let e ← ExecutionInvoker.findTransaction cfg id
      let result ← withLock (.active e.2.ref)
        (ExecutionInvoker.finishLocked cfg (connectionPool cfg) action e)
      log (ExecutionInvoker.info "%s SUCCEEDED transaction_id=%s" [action.upper, e.1])
      Action.ofExcept (toJsonSafe (.dict result))) := by
    refine within_bind ((within_findTransaction cfg id).mono rfl) fun e => ?_
    refine within_bind (within_withLock rfl ((within_finishLocked cfg action e).mono rfl))
      fun _ => ?_
    exact within_bind (within_log rfl) fun _ => within_ofExcept _
  rw [meets_bind]
  refine ((keeps_quiet hdealt (within_authorizeTransactionControl cfg) rfl).meets trace h).mono
    (fun _ trace htrace => ?_) fun _ _ hafter => hafter
  unfold ExecutionInvoker.finishTransaction
  rw [meets_bind]
  refine (sweeping_expireTransactions htrace).mono (fun _ trace htrace => ?_)
    fun _ _ hfalse => hfalse.elim
  exact (keeps_quiet hdealt hrest rfl).meets trace htrace

theorem sweeping_program (request : Request) :
    (sweeping cfg).Follows (SweepsDone cfg.transactionTtl)
      (request.program cfg (connectionPool cfg)) (sweeping cfg).start := by
  have hstart : AllDealt cfg.transactionTtl [] := by
    intro now candidates hsweep
    cases List.infix_nil.mp hsweep
  have hquiet : ∀ {β : Type} {areas : List Area} {x : Act β}, Within areas x →
      covers quietAreas areas = true → (sweeping cfg).Meets x
        (fun _ => AllDealt cfg.transactionTtl) (fun _ => AllDealt cfg.transactionTtl) [] :=
    fun hx hareas => (keeps_quiet (stable_allDealt _) hx hareas).meets [] hstart
  cases request with
  | call f parameters mode =>
    exact sweepsDone_of_keeps (fun _ _ _ h => by cases h)
      (hquiet (within_invokerCall cfg f parameters mode) rfl)
  | callTransactional f parameters mode id =>
    have hmeets : (sweeping cfg).Meets
        (Request.program cfg (connectionPool cfg) (.callTransactional f parameters mode id))
        (fun answer trace => AllDealt cfg.transactionTtl trace ∧
          ∀ value id, answer = .written value (some id) → ∃ a, Recorded trace (id, a))
        (fun _ => AllDealt cfg.transactionTtl) (sweeping cfg).start := by
      show (sweeping cfg).Meets (_ >>= _) _ _ _
      rw [meets_bind]
      refine (sweeping_callTransactional f mode parameters id hstart).mono (fun r trace hdone => ?_)
        fun _ _ hafter => hafter
      refine ⟨hdone.1, fun value id hwritten => hdone.2 id ?_⟩
      injection hwritten
    refine Follows.mono hmeets fun reply trace hdone => ?_
    cases reply with
    | ok answer =>
      refine ⟨hdone.1, fun value id hwritten => hdone.2 value id ?_⟩
      injection hwritten
    | error exc => exact ⟨hdone, fun _ _ hwritten => by cases hwritten⟩
  | commit id wait =>
    exact sweepsDone_of_keeps (fun _ _ _ h => by cases h)
      (sweeping_finishTransaction id (.commit wait) hstart)
  | rollback id =>
    exact sweepsDone_of_keeps (fun _ _ _ h => by cases h)
      (sweeping_finishTransaction id .rollback hstart)
  | search pattern group limit =>
    exact sweepsDone_of_keeps (fun _ _ _ h => by cases h)
      (hquiet (within_search cfg pattern group limit) rfl)
  | getInterface f =>
    exact sweepsDone_of_keeps (fun _ _ _ h => by cases h) (hquiet (within_getInterface cfg f) rfl)
  | readSource objectType objectName =>
    exact sweepsDone_of_keeps (fun _ _ _ h => by cases h)
      (hquiet (within_readViaRfc cfg objectType objectName) rfl)
  | expireTransactions =>
    exact sweepsDone_of_keeps (fun _ _ _ h => by cases h)
      ((sweeping_expireTransactions hstart).mono (fun _ _ hafter => hafter)
        fun _ _ hfalse => hfalse.elim)
  | close => exact sweepsDone_of_keeps (fun _ _ _ h => by cases h) (hquiet (within_close cfg) rfl)
  | closeAll => exact sweepsDone_of_keeps (fun _ _ _ h => by cases h) (hquiet within_closeAll rfl)

end Requests

end RfcMcp
