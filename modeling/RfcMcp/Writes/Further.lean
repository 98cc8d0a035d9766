import RfcMcp.Expiry.Reclaim
import RfcMcp.Response.Source

namespace RfcMcp

open Framework Framework.Protocol

section Traces

variable (cfg : AppSettings) (f : String) (parameters : PyDict) (trace : Trace Effects)

/-- The catalog has looked for the interface of `f` in its cache, in vain. -/
def Missed : Prop := ⟨.cacheGet .interface (cfg.text.upper f), none⟩ ∈ trace

/-- The cache has answered with the interface of `f`. -/
def CacheHit (found : FunctionInterface) : Prop :=
  ⟨.cacheGet .interface (cfg.text.upper f), some found⟩ ∈ trace

/-- The RFC of a write was issued on the connection of `e`, with the arguments that the interface
from the cache asks for. -/
def Executed (e : Entry) : Prop :=
  ∃ found kwargs, CacheHit cfg f trace found ∧
    buildCallKwargs cfg.text found parameters = .ok kwargs ∧
    ⟨.rfcBegin e.2.connection (.write e) f kwargs, ()⟩ ∈ trace

/-- The transaction with this ID was not open any more. -/
def Refused (id : TxId) : Prop :=
  ⟨.lookup id, none⟩ ∈ trace ∨
    ∃ a, ⟨.lookup id, some a⟩ ∈ trace ∧ ⟨.isCurrent id a, false⟩ ∈ trace

/-- The transaction was not open any more, or the RFC was issued on its connection. -/
def RefusedOrExecuted (id : TxId) : Prop :=
  Refused trace id ∨
    ∃ a, ⟨.lookup id, some a⟩ ∈ trace ∧ Executed cfg f parameters trace (id, a)

/-- `SAPPoolTimeoutError`. -/
def isPoolTimeout : PyExc → Bool
  | .sap .poolTimeout _ _ => true
  | _ => false

/-- A further write asks for a permit after a miss only. Without one, it takes a transaction out of
the table for its age, in its sweep, or when it has issued its RFC there. -/
def continuingGuard (o : Op) : Prop :=
  Missed cfg f trace ∨ match o with
  | .semAcquire | .drain => False
  | .removeIfExpired _ _ _ => ∀ did ∈ trace, did.1.area ∈ reclaimAreas
  | .removeIfCurrent id a => Executed cfg f parameters trace (id, a)
  | _ => True

@[reducible] def continuing : Protocol Effects :=
  tracing fun o trace => continuingGuard cfg f parameters trace o

/-- What a further write comes to. -/
def Concluded (id : TxId) (reply : Except PyExc Answer) : Prop :=
  Missed cfg f trace ∨
    (∃ found, CacheHit cfg f trace found ∧
      ∀ kwargs, buildCallKwargs cfg.text found parameters ≠ .ok kwargs) ∨
    RefusedOrExecuted cfg f parameters trace id ∧
      ∀ exc, reply = .error exc → isPoolTimeout exc = false

end Traces

section Facts

variable {cfg : AppSettings} {f : String} {parameters : PyDict} {trace : Trace Effects} {id : TxId}
  {e : Entry}

theorem Executed.append (h : Executed cfg f parameters trace e) (later : Trace Effects) :
    Executed cfg f parameters (later ++ trace) e := by
  obtain ⟨found, kwargs, hhit, hkwargs, hissued⟩ := h
  exact ⟨found, kwargs, List.mem_append_right _ hhit, hkwargs, List.mem_append_right _ hissued⟩

theorem Refused.cons (h : Refused trace id) (did : Σ o : Op, o.Res) :
    Refused (did :: trace) id := by
  cases h with
  | inl hnone => exact .inl (List.mem_cons_of_mem _ hnone)
  | inr hgone =>
    obtain ⟨a, hfound, hother⟩ := hgone
    exact .inr ⟨a, List.mem_cons_of_mem _ hfound, List.mem_cons_of_mem _ hother⟩

theorem RefusedOrExecuted.cons (h : RefusedOrExecuted cfg f parameters trace id)
    (did : Σ o : Op, o.Res) : RefusedOrExecuted cfg f parameters (did :: trace) id := by
  cases h with
  | inl hrefused => exact .inl (hrefused.cons did)
  | inr hexecuted =>
    obtain ⟨a, hfound, hissued⟩ := hexecuted
    exact .inr ⟨a, List.mem_cons_of_mem _ hfound, hissued.append [did]⟩

theorem isPoolTimeout_translate (exc : PyExc) :
    isPoolTimeout (ExecutionInvoker.translate cfg exc) = false := by
  unfold ExecutionInvoker.translate translatePyrfcException
  split
  · split <;> rfl
  · rfl

theorem isPoolTimeout_apply {limits : ResultLimitPolicy} {value : PyValue} {exc : PyExc}
    (h : limits.apply value = .error exc) : isPoolTimeout exc = false := by
  have hnot := apply_notSap h
  cases exc with
  | sap kind message key => cases hnot
  | _ => rfl

end Facts

section Programs

variable {α : Type} {cfg : AppSettings} {f : String} {parameters : PyDict} {trace : Trace Effects}
  {e : Entry} {found : FunctionInterface} {kwargs : PyDict}

/-- Operations that a further write may perform at any time. -/
def Op.isUnguarded : Op → Bool
  | .semAcquire | .drain | .removeIfExpired _ _ _ | .removeIfCurrent _ _ => false
  | _ => true

theorem continuing_op {o : Op} {ok : o.Res → Trace Effects → Prop}
    {err : PyExc → Trace Effects → Prop} (ho : o.isUnguarded = true)
    (hok : ∀ v, ok v (⟨o, v⟩ :: trace)) :
    (continuing cfg f parameters).Meets (perform o) ok err trace := by
  refine traced_op (.inr ?_) hok
  cases o <;> trivial

/-- After a miss anything is allowed. -/
theorem keeps_missed (x : Act α) : (continuing cfg f parameters).Keeps (Missed cfg f) x := by
  apply keeps_tracing
  · intro o trace h
    exact .inl h
  · intro did trace h
    exact List.mem_cons_of_mem did h

theorem continuing_expireTransactions : (continuing cfg f parameters).Meets
    (ExecutionInvoker.expireTransactions cfg (connectionPool cfg)) (fun _ _ => True)
    (fun _ _ => False) [] := by
  have hareas : (continuing cfg f parameters).Keeps
      (fun trace => ∀ did ∈ trace, did.1.area ∈ reclaimAreas)
      (ExecutionInvoker.expireTransactions cfg (connectionPool cfg)) := by
    refine (within_expireTransactions cfg).keeps fun o ho => ⟨fun trace htrace => ⟨.inr ?_, ?_⟩⟩
    · cases o with
      | removeIfExpired id a cutoff => exact htrace
      | semAcquire | drain | removeIfCurrent _ _ => simp [Op.area] at ho
      | _ => trivial
    · intro v did hdid
      cases List.mem_cons.mp hdid with
      | inl hnow => rw [hnow]; exact ho
      | inr hpast => exact htrace did hpast
  have hnone : AllReclaimed [] := by
    intro e he
    obtain ⟨cutoff, hremoved⟩ := he
    cases hremoved
  refine (meets_both (reclaims_expireTransactions hnone) (hareas.meets [] (by simp))).mono
    (fun _ _ _ => trivial) fun _ _ hdone => hdone.1

theorem continuing_getInterface : (continuing cfg f parameters).Meets
    (ExecutionInvoker.getInterface cfg (connectionPool cfg) f)
    (fun found trace => Missed cfg f trace ∨ CacheHit cfg f trace found)
    (fun _ trace => Missed cfg f trace) trace := by
  unfold ExecutionInvoker.getInterface FunctionCatalog.getInterface TTLCache.getOrSet TTLCache.get
    withLock
  rw [meets_bind, meets_bind]
  refine continuing_op rfl fun _ => ?_
  rw [meets_tryFinally]
  refine continuing_op rfl fun cached => continuing_op rfl fun _ => ?_
  cases cached with
  | some found =>
    right
    exact List.mem_cons_of_mem _ List.mem_cons_self
  | none =>
    have hmissed : Missed cfg f (⟨.release (.cache .interface), ()⟩ ::
        ⟨.cacheGet .interface (cfg.text.upper f), none⟩ ::
          ⟨.acquire (.cache .interface), ()⟩ :: trace) :=
      List.mem_cons_of_mem _ List.mem_cons_self
    exact ((keeps_missed _).meets _ hmissed).mono (fun _ _ h => .inl h) fun _ _ h => h

/-- From the RFC on, the transaction may be given up. -/
theorem continuing_discardTransaction (h : Executed cfg f parameters trace e) :
    (continuing cfg f parameters).Meets
      (ExecutionInvoker.discardTransaction (connectionPool cfg) e)
      (fun _ trace => Executed cfg f parameters trace e) (fun _ _ => False) trace := by
  unfold ExecutionInvoker.discardTransaction ExecutionInvoker.removeIfCurrent withLock
  rw [meets_bind, meets_bind]
  refine continuing_op rfl fun _ => ?_
  rw [meets_tryFinally]
  have hlocked := h.append [⟨.acquire .transactions, ()⟩]
  refine And.intro (.inr hlocked) fun removed => continuing_op rfl fun _ => ?_
  have hlooked := hlocked.append [⟨.release .transactions, ()⟩, ⟨.removeIfCurrent e.1 e.2, removed⟩]
  cases removed with
  | false => exact hlooked
  | true =>
    rw [if_pos rfl, meets_bind]
    change (continuing cfg f parameters).Meets
      (ConnectionPool.release e.2.connection false (some e)) _ _ _
    unfold ConnectionPool.release
    rw [meets_bind]
    refine continuing_op rfl fun _ => ?_
    rw [meets_tryFinally, if_neg Bool.false_ne_true]
    refine continuing_op (o := .closeConnection _) rfl fun _ => continuing_op rfl fun _ => ?_
    exact continuing_op (o := .log _) rfl fun _ => hlooked.append [_, _, _, _]

theorem continuing_callOnConnection (hhit : CacheHit cfg f trace found)
    (hkwargs : buildCallKwargs cfg.text found parameters = .ok kwargs) :
    (continuing cfg f parameters).Meets
      (ExecutionInvoker.callOnConnection cfg e.2.connection (.write e) f kwargs "write" (some e.1))
      (fun _ trace => Executed cfg f parameters trace e)
      (fun exc trace => Executed cfg f parameters trace e ∧ isPoolTimeout exc = false) trace := by
  have hissued : Executed cfg f parameters
      (⟨.rfcBegin e.2.connection (.write e) f kwargs, ()⟩ :: trace) e :=
    ⟨found, kwargs, List.mem_cons_of_mem _ hhit, hkwargs, List.mem_cons_self⟩
  unfold ExecutionInvoker.callOnConnection Conn.call
  rw [meets_bind, meets_tryExcept, meets_bind]
  refine continuing_op rfl fun _ => ?_
  rw [meets_bind]
  refine continuing_op rfl fun answer => ?_
  have hanswered := hissued.append [⟨.rfcEnd e.2.connection f kwargs, answer⟩]
  rw [meets_ofExcept]
  constructor
  · intro result _
    rw [meets_bind]
    exact continuing_op (o := .log _) rfl fun _ => hanswered.append [_]
  · intro exc _
    rw [meets_bind]
    refine continuing_op (o := .log _) rfl fun _ => ?_
    exact ⟨hanswered.append [_], isPoolTimeout_translate exc⟩

theorem continuing_applyResultLimits (mode : String) (result : PyDict)
    (h : Executed cfg f parameters trace e) : (continuing cfg f parameters).Meets
      (ExecutionInvoker.applyResultLimits cfg f mode result)
      (fun _ trace => Executed cfg f parameters trace e)
      (fun exc trace => Executed cfg f parameters trace e ∧ isPoolTimeout exc = false) trace := by
  unfold ExecutionInvoker.applyResultLimits
  split
  · exact h
  · rw [meets_bind]
    exact continuing_op (o := .log _) rfl fun _ => ⟨h.append [_], rfl⟩
  · rename_i exc _ happly
    exact ⟨h, isPoolTimeout_apply happly⟩

/-- The write on the transaction's connection. -/
theorem continuing_writeLocked (hhit : CacheHit cfg f trace found)
    (hkwargs : buildCallKwargs cfg.text found parameters = .ok kwargs)
    (hfound : ⟨.lookup e.1, some e.2⟩ ∈ trace) : (continuing cfg f parameters).Meets
      (ExecutionInvoker.writeLocked cfg (connectionPool cfg) f kwargs "write" e)
      (fun _ trace => Refused trace e.1 ∨ Executed cfg f parameters trace e)
      (fun exc trace => (Refused trace e.1 ∨ Executed cfg f parameters trace e) ∧
        isPoolTimeout exc = false) trace := by
  unfold ExecutionInvoker.writeLocked ExecutionInvoker.isCurrentTransaction withLock
  rw [meets_bind, meets_bind]
  refine continuing_op rfl fun _ => ?_
  rw [meets_tryFinally]
  refine continuing_op rfl fun current => continuing_op rfl fun _ => ?_
  cases current with
  | false =>
    have hrefused : Refused (⟨.release .transactions, ()⟩ :: ⟨.isCurrent e.1 e.2, false⟩ ::
        ⟨.acquire .transactions, ()⟩ :: trace) e.1 :=
      .inr ⟨e.2, by simp [hfound], by simp⟩
    exact ⟨.inl hrefused, rfl⟩
  | true =>
    have hhit' : CacheHit cfg f (⟨.release .transactions, ()⟩ :: ⟨.isCurrent e.1 e.2, true⟩ ::
        ⟨.acquire .transactions, ()⟩ :: trace) found :=
      List.mem_append_right [_, _, _] hhit
    rw [Bool.not_true, if_neg Bool.false_ne_true, meets_bind, meets_tryExcept, meets_bind]
    refine (continuing_callOnConnection hhit' hkwargs).mono (fun result trace hissued => ?_)
      fun exc trace hfailed => ?_
    · refine (continuing_applyResultLimits "write" result hissued).mono
        (fun value trace hdone => ?_) fun exc trace hfailed => ?_
      · rw [meets_bind]
        refine continuing_op rfl fun now => ?_
        rw [meets_bind]
        exact continuing_op rfl fun _ => .inr (hdone.append [_, _])
      · rw [meets_bind]
        exact (continuing_discardTransaction hfailed.1).mono
          (fun _ _ hgone => ⟨.inr hgone, hfailed.2⟩) fun _ _ hfalse => hfalse.elim
    · rw [meets_bind]
      exact (continuing_discardTransaction hfailed.1).mono
        (fun _ _ hgone => ⟨.inr hgone, hfailed.2⟩) fun _ _ hfalse => hfalse.elim

theorem continuing_findTransaction (id : TxId) : (continuing cfg f parameters).Meets
    (ExecutionInvoker.findTransaction cfg id)
    (fun e trace => e.1 = id ∧ ⟨.lookup e.1, some e.2⟩ ∈ trace)
    (fun exc trace => Refused trace id ∧ isPoolTimeout exc = false) trace := by
  unfold ExecutionInvoker.findTransaction withLock
  rw [meets_bind, meets_bind]
  refine continuing_op rfl fun _ => ?_
  rw [meets_tryFinally]
  refine continuing_op rfl fun active => continuing_op rfl fun _ => ?_
  cases active with
  | none => exact ⟨.inl (by simp), rfl⟩
  | some a => exact ⟨rfl, by simp⟩

/-- A further write, from the lookup of its transaction on. -/
theorem continuing_onTransaction (id : TxId) (hhit : CacheHit cfg f trace found)
    (hkwargs : buildCallKwargs cfg.text found parameters = .ok kwargs) :
    (continuing cfg f parameters).Meets
      (do
        let e ← ExecutionInvoker.findTransaction cfg id
        let result ← withLock (.active e.2.ref)
          (ExecutionInvoker.writeLocked cfg (connectionPool cfg) f kwargs "write" e)
        pure (result, some e.1) : Act (PyValue × Option TxId))
      (fun _ trace => RefusedOrExecuted cfg f parameters trace id)
      (fun exc trace => RefusedOrExecuted cfg f parameters trace id ∧ isPoolTimeout exc = false)
      trace := by
  have hkept : ∀ {α : Type} (x : Act α) (did : Σ o : Op, o.Res), (tracing fun _ _ => True).Keeps
      (fun trace : Trace Effects => did ∈ trace) x := by
    intro α x did
    apply keeps_tracing
    · intro _ _ _
      trivial
    · intro now trace h
      exact List.mem_cons_of_mem now h
  rw [meets_bind]
  refine (meets_both ((hkept _ _).meets trace hhit) (continuing_findTransaction id)).mono
    (fun e trace hboth => ?_) fun exc trace hboth => ⟨.inl hboth.2.1, hboth.2.2⟩
  obtain ⟨hhit, hid, hfound⟩ := hboth
  subst hid
  unfold withLock
  rw [meets_bind, meets_bind]
  refine continuing_op rfl fun _ => ?_
  have hfound' : ⟨.lookup e.1, some e.2⟩ ∈
      (⟨.acquire (.active e.2.ref), ()⟩ :: trace : Trace Effects) := List.mem_cons_of_mem _ hfound
  rw [meets_tryFinally]
  refine (meets_both ((hkept _ _).meets _ hfound')
    (continuing_writeLocked (List.mem_cons_of_mem _ hhit) hkwargs hfound')).mono
    (fun result trace hdone => ?_) fun exc trace hdone => ?_
  · refine continuing_op rfl fun _ => ?_
    have hsettled : RefusedOrExecuted cfg f parameters trace e.1 :=
      hdone.2.imp_right fun hissued => ⟨e.2, hdone.1, hissued⟩
    exact hsettled.cons _
  · refine continuing_op rfl fun _ => ?_
    have hsettled : RefusedOrExecuted cfg f parameters trace e.1 :=
      hdone.2.1.imp_right fun hissued => ⟨e.2, hdone.1, hissued⟩
    exact ⟨hsettled.cons _, hdone.2.2⟩

variable (hallowed : ExecutionPolicy.authorizeUnlogged cfg.text cfg.policy f "write"
  (ExecutionPolicy.genericTableReaderTarget cfg.text cfg.policy f parameters) = .ok ())
include hallowed

theorem continuing_authorize : (continuing cfg f parameters).Meets
    (ExecutionPolicy.authorize cfg.text cfg.policy f "write" parameters) (fun _ _ => True)
    (fun _ _ => False) trace := by
  unfold ExecutionPolicy.authorize
  simp only [hallowed]
  exact continuing_op (o := .log _) rfl fun _ => trivial

theorem continuing_program (id : TxId) : (continuing cfg f parameters).Follows
    (fun reply trace => Concluded cfg f parameters trace id reply)
    (Request.program cfg (connectionPool cfg) (.callTransactional f parameters "write" (some id)))
    [] := by
  have hmeets : (continuing cfg f parameters).Meets
      (Request.program cfg (connectionPool cfg) (.callTransactional f parameters "write" (some id)))
      (fun answer trace => Concluded cfg f parameters trace id (.ok answer))
      (fun exc trace => Concluded cfg f parameters trace id (.error exc)) [] := by
    change (continuing cfg f parameters).Meets (_ >>= _) _ _ _
    unfold ExecutionInvoker.callTransactional
    rw [meets_bind, meets_bind]
    refine continuing_expireTransactions.mono (fun _ trace _ => ?_) fun _ _ hfalse => hfalse.elim
    rw [if_neg (by decide), if_neg (by decide)]
    unfold ExecutionInvoker.write
    rw [meets_bind]
    refine (continuing_authorize hallowed).mono (fun _ trace _ => ?_) fun _ _ hfalse => hfalse.elim
    rw [meets_bind]
    refine continuing_getInterface.mono (fun found trace hcached => ?_)
      fun _ _ hmissed => .inl hmissed
    cases hcached with
    | inl hmissed =>
      exact ((keeps_missed _).meets trace hmissed).mono (fun ⟨_, _⟩ _ hmissed => .inl hmissed)
        fun _ _ hmissed => .inl hmissed
    | inr hhit =>
      rw [meets_bind, meets_ofExcept]
      constructor
      · intro kwargs hkwargs
        refine (continuing_onTransaction id hhit hkwargs).mono (fun ⟨_, _⟩ trace hsettled => ?_)
          fun exc trace hfailed => ?_
        · exact .inr (.inr ⟨hsettled, fun _ hexc => by cases hexc⟩)
        · refine .inr (.inr ⟨hfailed.1, fun _ hexc => ?_⟩)
          cases hexc
          exact hfailed.2
      · intro exc hexc
        refine .inr (.inl ⟨found, hhit, fun kwargs hkwargs => ?_⟩)
        rw [hexc] at hkwargs
        cases hkwargs
  refine Follows.mono hmeets fun reply trace hdone => ?_
  cases reply <;> exact hdone

end Programs

end RfcMcp
