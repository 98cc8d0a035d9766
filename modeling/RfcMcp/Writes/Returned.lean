import RfcMcp.Custody.Shutdown

namespace RfcMcp

open Framework Framework.Protocol Framework.System

/-- The transaction that a thread has registered and neither found missing nor given up. -/
def Pending.after (g : Option Entry) : (o : Op) → o.Res → Option Entry
  | .register id a, _ => some (id, a)
  | .isCurrent id a, false => if g = some (id, a) then none else g
  | .removeIfCurrent id a, _ => if g = some (id, a) then none else g
  | _, _ => g

/-- A thread registers one transaction at most. -/
@[reducible] def registrar : Protocol Effects where
  Local := Option Entry
  start := none
  allows := fun o g => ∀ id a, o = .register id a → g = none
  after := fun o v g => Pending.after g o v

section Programs

variable {α : Type} {cfg : AppSettings} {g : Option Entry} {e : Entry}

theorem pending_after {o : Op} (hcreate : o.area ≠ .create)
    (h : g = none ∨ o.area ≠ .find ∧ o.area ≠ .remove) (v : o.Res) : Pending.after g o v = g := by
  cases o with
  | register id a => exact absurd rfl hcreate
  | isCurrent id a =>
    cases v with
    | true => rfl
    | false =>
      have hnone : g = none := h.resolve_right fun hother => hother.1 rfl
      rw [hnone]
      rfl
  | removeIfCurrent id a =>
    have hnone : g = none := h.resolve_right fun hother => hother.2 rfl
    rw [hnone]
    rfl
  | _ => rfl

theorem keeps_pending {areas : List Area} {x : Act α} (hx : Within areas x)
    (hcreate : areas.contains Area.create = false)
    (h : g = none ∨ areas.contains Area.find = false ∧ areas.contains Area.remove = false) :
    registrar.Keeps (fun g' => g' = g) x := by
  have hne : ∀ {o : Op} {area : Area}, o.area ∈ areas → areas.contains area = false →
      o.area ≠ area := by
    intro o area ho harea heq
    rw [heq, ← List.contains_iff_mem, harea] at ho
    cases ho
  refine hx.keeps fun o ho => keeps_perform fun g' hg' => ?_
  subst hg'
  have hop := hne ho hcreate
  refine ⟨fun id a heq => absurd (heq ▸ rfl) hop, fun v => pending_after hop ?_ v⟩
  exact h.imp_right fun hother => ⟨hne ho hother.1, hne ho hother.2⟩

theorem registrar_op {o : Op} {ok : o.Res → Option Entry → Prop} {err : PyExc → Option Entry → Prop}
    (ho : o.enters = none) (hok : ∀ v, ok v (Pending.after g o v)) :
    registrar.Meets (perform o) ok err g := by
  refine ⟨fun id a heq => ?_, hok⟩
  rw [heq] at ho
  cases ho

theorem registrar_withLock {l : LockId} {x : Act α} {ok : α → Option Entry → Prop}
    {err : PyExc → Option Entry → Prop} (hx : registrar.Meets x ok err g) :
    registrar.Meets (withLock l x) ok err g := by
  unfold withLock
  rw [meets_bind]
  refine registrar_op rfl fun _ => ?_
  rw [meets_tryFinally]
  exact hx.mono (fun _ _ h => registrar_op rfl fun _ => h) fun _ _ h => registrar_op rfl fun _ => h

theorem registrar_register (id : TxId) (a : ActiveTransaction) {ok : Unit → Option Entry → Prop}
    {err : PyExc → Option Entry → Prop} (hok : ok () (some (id, a))) :
    registrar.Meets (perform (.register id a)) ok err none :=
  ⟨fun _ _ _ => rfl, fun _ => hok⟩

theorem registrar_createTransaction : registrar.Meets
    (ExecutionInvoker.createTransaction (connectionPool cfg)) (fun e g => g = some e)
    (fun _ g => g = none) none := by
  unfold ExecutionInvoker.createTransaction
  rw [meets_bind]
  refine ((keeps_pending (within_checkout cfg) rfl (.inl rfl)).meets none rfl).mono
    (fun conn g hg => ?_) fun _ _ hg => hg
  subst hg
  rw [meets_bind]
  refine registrar_op rfl fun id => ?_
  rw [meets_bind]
  refine registrar_op rfl fun now => ?_
  rw [meets_bind]
  refine registrar_op rfl fun ref => ?_
  dsimp only
  rw [meets_bind]
  refine registrar_withLock (registrar_register id ⟨ref, conn⟩ ?_)
  rw [meets_bind]
  exact registrar_op (o := .log _) rfl fun _ => rfl

/-- A thread whose write fails has given its transaction up, or found that it is gone. -/
theorem registrar_writeLocked (f mode : String) (kwargs : PyDict) (hg : g = none ∨ g = some e) :
    registrar.Meets (ExecutionInvoker.writeLocked cfg (connectionPool cfg) f kwargs mode e)
      (fun _ g' => g' = g) (fun _ g' => g' = none) g := by
  have hforget : (if g = some e then none else g) = none := by
    cases hg with
    | inl hnone => rw [hnone]; rfl
    | inr hsome => rw [if_pos hsome]
  have hdiscard : ∀ (ok : PyValue → Option Entry → Prop) (exc : PyExc), registrar.Meets
      (do
        ExecutionInvoker.discardTransaction (connectionPool cfg) e
        (Action.raise exc : Act PyValue))
      ok (fun _ g' => g' = none) g := by
    intro ok exc
    unfold ExecutionInvoker.discardTransaction ExecutionInvoker.removeIfCurrent
    rw [meets_bind, meets_bind]
    refine registrar_withLock (registrar_op rfl fun removed => ?_)
    rw [show Pending.after g (.removeIfCurrent e.1 e.2) removed = none from hforget]
    cases removed with
    | false => exact rfl
    | true =>
      rw [if_pos rfl, meets_bind]
      refine ((keeps_pending (within_poolRelease cfg e.2.connection false (some e)) rfl
        (.inl rfl)).meets none rfl).mono (fun _ g hg => ?_) fun _ _ hg => hg
      exact registrar_op (o := .log _) rfl fun _ => hg
  unfold ExecutionInvoker.writeLocked ExecutionInvoker.isCurrentTransaction
  rw [meets_bind]
  refine registrar_withLock (registrar_op rfl fun current => ?_)
  cases current with
  | false => exact hforget
  | true =>
    rw [if_neg (by simp), meets_bind, meets_tryExcept, meets_bind]
    have hcall : Within [.rfc, .log] (ExecutionInvoker.callOnConnection cfg e.2.connection
      (.write e) f kwargs mode (some e.1)) := within_callOnConnection cfg rfl
    refine ((keeps_pending (g := g) hcall rfl (.inr ⟨rfl, rfl⟩)).meets g rfl).mono
      (fun raw g' hg' => ?_) fun exc g' hg' => ?_
    · subst hg'
      refine ((keeps_pending (within_applyResultLimits cfg f mode raw) rfl (.inr ⟨rfl, rfl⟩)).meets
        g' rfl).mono (fun v g'' hg'' => ?_) fun exc g'' hg'' => ?_
      · rw [meets_bind]
        refine registrar_op rfl fun now => ?_
        rw [meets_bind]
        exact registrar_op rfl fun _ => hg''
      · subst hg''
        exact hdiscard _ exc
    · subst hg'
      exact hdiscard _ exc

/-- A request returns the ID of the transaction that it leaves behind. -/
def HandsOver (reply : Except PyExc Answer) (g : Option Entry) : Prop :=
  ∀ e, g = some e → ∃ value, reply = .ok (.written value (some e.1))

theorem handsOver_of_areas {areas : List Area} {x : Act Answer} (hx : Within areas x)
    (hcreate : areas.contains Area.create = false) : registrar.Follows HandsOver x none := by
  have hmeets := (keeps_pending hx hcreate (.inl rfl)).meets none rfl
  refine Follows.mono hmeets fun reply g hg e he => ?_
  have hnone : g = none := by cases reply <;> exact hg
  rw [hnone] at he
  cases he

theorem registrar_write (f : String) (parameters : PyDict) (id : Option TxId) :
    registrar.Meets (ExecutionInvoker.write cfg (connectionPool cfg) f parameters id)
      (fun r g => ∀ e, g = some e → r.2 = some e.1) (fun _ g => g = none) none := by
  have hreserve : registrar.Meets
      (ExecutionInvoker.getOrCreateTransaction cfg (connectionPool cfg) id)
      (fun e g => g = none ∨ g = some e) (fun _ g => g = none) none := by
    cases id with
    | some id =>
      exact ((keeps_pending (within_findTransaction cfg id) rfl (.inl rfl)).meets none rfl).mono
        (fun _ _ hg => .inl hg) fun _ _ hg => hg
    | none => exact registrar_createTransaction.mono (fun _ _ hg => .inr hg) fun _ _ hg => hg
  unfold ExecutionInvoker.write
  rw [meets_bind]
  refine ((keeps_pending (within_authorize cfg _ _ _) rfl (.inl rfl)).meets none rfl).mono
    (fun _ g hg => ?_) fun _ _ hg => hg
  subst hg
  rw [meets_bind]
  refine ((keeps_pending (within_getInterface cfg f) rfl (.inl rfl)).meets none rfl).mono
    (fun interface g hg => ?_) fun _ _ hg => hg
  subst hg
  rw [meets_bind, meets_ofExcept]
  refine ⟨fun callKwargs _ => ?_, fun _ _ => rfl⟩
  rw [meets_bind]
  refine hreserve.mono (fun e g hg => ?_) fun _ _ hg => hg
  rw [meets_bind]
  refine (registrar_withLock (registrar_writeLocked f "write" callKwargs hg)).mono
    (fun result g' hg' e' he' => ?_) fun _ _ hg' => hg'
  rw [hg'] at he'
  cases hg with
  | inl hnone => rw [hnone] at he'; cases he'
  | inr hsome => rw [hsome] at he'; cases he'; rfl

theorem registrar_callTransactional (f mode : String) (parameters : PyDict) (id : Option TxId) :
    registrar.Meets
      (ExecutionInvoker.callTransactional cfg (connectionPool cfg) f parameters mode id)
      (fun r g => ∀ e, g = some e → r.2 = some e.1) (fun _ g => g = none) none := by
  unfold ExecutionInvoker.callTransactional
  rw [meets_bind]
  refine ((keeps_pending (within_expireTransactions cfg) rfl (.inl rfl)).meets none rfl).mono
    (fun _ g hg => ?_) fun _ _ hg => hg
  subst hg
  by_cases hread : mode = "read"
  · have hcall : Within callAreas (do
        let result ← ExecutionInvoker.call cfg (connectionPool cfg) f parameters mode
        pure (result, none) : Act (PyValue × Option TxId)) :=
      within_bind (within_invokerCall cfg f parameters mode) fun _ => within_pure _
    rw [if_pos hread]
    refine ((keeps_pending (within_ite (within_raise _) hcall) rfl (.inl rfl)).meets none rfl).mono
      (fun _ g hg e he => ?_) fun _ _ hg => hg
    rw [hg] at he
    cases he
  · rw [if_neg hread]
    by_cases hwrite : mode ≠ "write"
    · rw [if_pos hwrite]
      exact rfl
    · rw [if_neg hwrite]
      exact registrar_write f parameters id

theorem registrar_program (request : Request) :
    registrar.Follows HandsOver (request.program cfg (connectionPool cfg)) registrar.start := by
  have hfinish : ∀ id action, Within finishAreas (do
      ExecutionPolicy.authorizeTransactionControl cfg.policy
      ExecutionInvoker.finishTransaction cfg (connectionPool cfg) id action) := fun id action =>
    within_bind ((within_authorizeTransactionControl cfg).mono rfl) fun _ =>
      within_finishTransaction cfg id action
  cases request with
  | call f parameters mode =>
    exact handsOver_of_areas (within_bind (within_invokerCall cfg f parameters mode)
      fun _ => within_pure _) rfl
  | callTransactional f parameters mode id =>
    have hmeets : registrar.Meets
        (Request.program cfg (connectionPool cfg) (.callTransactional f parameters mode id))
        (fun answer g => ∀ e, g = some e → ∃ value, answer = .written value (some e.1))
        (fun _ g => g = none) none := by
      show registrar.Meets (_ >>= _) _ _ _
      rw [meets_bind]
      refine (registrar_callTransactional f mode parameters id).mono (fun r g hg e he => ?_)
        fun _ _ hg => hg
      exact ⟨r.1, by rw [hg e he]⟩
    refine Follows.mono hmeets fun reply g hg e he => ?_
    cases reply with
    | ok answer =>
      obtain ⟨value, hanswer⟩ := hg e he
      exact ⟨value, by rw [hanswer]⟩
    | error exc =>
      have hnone : g = none := hg
      rw [hnone] at he
      cases he
  | commit id wait =>
    exact handsOver_of_areas (within_bind (hfinish id _) fun _ => within_pure _) rfl
  | rollback id =>
    exact handsOver_of_areas (within_bind (hfinish id _) fun _ => within_pure _) rfl
  | search pattern group limit =>
    exact handsOver_of_areas (within_bind (within_search cfg pattern group limit)
      fun _ => within_pure _) rfl
  | getInterface f =>
    exact handsOver_of_areas (within_bind (within_getInterface cfg f) fun _ => within_pure _) rfl
  | readSource objectType objectName =>
    exact handsOver_of_areas (within_bind (within_readViaRfc cfg objectType objectName)
      fun _ => within_pure _) rfl
  | expireTransactions =>
    exact handsOver_of_areas (within_bind (within_expireTransactions cfg) fun _ => within_pure _)
      rfl
  | close => exact handsOver_of_areas (within_bind (within_close cfg) fun _ => within_pure _) rfl
  | closeAll => exact handsOver_of_areas (within_bind within_closeAll fun _ => within_pure _) rfl

end Programs

section Runs

variable {cfg : AppSettings} {c d : Run cfg} {t : ℕ} {e : Entry}

/-- A step takes the transaction of a thread out of the table, or the thread keeps it. -/
theorem pending_step {s s' : Shared} {o : Op} {v : o.Res} (hdoes : Does cfg t s o v s')
    (hids : s.ids.Nodup) (hallowed : registrar.allows o (some e)) (hmem : e ∈ s.table)
    (hmem' : e ∈ s'.table) : Pending.after (some e) o v = some e := by
  have hactive : s.active e.1 = some e.2 := lookup_eq_some hids hmem
  have herase : ∀ {table : List Entry}, e ∉ PyDict.erase table e.1 := by
    intro table he
    simp [PyDict.erase] at he
  cases o with
  | register id a => cases hallowed id a rfl
  | isCurrent id a =>
    cases v with
    | true => rfl
    | false =>
      refine if_neg fun heq => ?_
      cases heq
      have hfalse : ∀ {v : Bool}, Does cfg t s (.isCurrent id a) v s' → v = true := by
        intro v hdoes
        cases hdoes
        exact decide_eq_true hactive
      cases hfalse hdoes
  | removeIfCurrent id a =>
    refine if_neg fun heq => ?_
    cases heq
    cases hdoes with
    | removed _ => exact herase hmem'
    | notCurrent hnot => exact hnot hactive
  | _ => rfl

/-- Every registered transaction is the one that some thread has registered and not given up. -/
theorem registered_pending (h : Reachable c) (he : e ∈ c.shared.table) :
    ∃ u, localOf registrar u c.history = some e := by
  refine Reachable.induction (I := fun c : Run cfg => ∀ e ∈ c.shared.table, ∃ u,
    localOf registrar u c.history = some e) ?_ ?_ ?_ h e he
  · intro e he
    cases he
  · intro c request _ ih
    exact ih
  · intro c t o v c' hc ih hp e he
    have hw := hands_reachable (@program_follows cfg) hc
    have hfresh := Hands.enters_fresh hw hp.lt (hp.allowed (@program_follows cfg) hc)
    have hallowed : registrar.allows o (localOf registrar t c.history) :=
      hp.allowed registrar_program hc
    obtain ⟨hthread, hperform⟩ := hp
    have hdoes := Shared.perform_does hperform
    cases mem_table_of_does hdoes he hfresh with
    | inl hold =>
      obtain ⟨u, hu⟩ := ih e hold
      refine ⟨u, ?_⟩
      by_cases htu : t = u
      · subst htu
        rw [hu] at hallowed
        rw [localOf_did_self, hu]
        exact pending_step hdoes (Hands.ids_nodup hw) hallowed hold he
      · rw [localOf_did_ne _ htu]
        exact hu
    | inr hnew =>
      refine ⟨t, ?_⟩
      rw [localOf_did_self]
      cases o with
      | register id a => exact hnew
      | _ => cases hnew

/-- With no request in flight, the ID of every registered transaction has been returned. -/
theorem returned_of_quiet (h : Reachable d) (hquiet : Quiet d) (he : e ∈ d.shared.table) :
    ∃ (u : ℕ) (request : Request) (value : PyValue),
      d.threads[u]? = some (request, .ret (.ok (.written value (some e.1)))) := by
  obtain ⟨u, hu⟩ := registered_pending h he
  have hlt : u < d.threads.length := by
    by_contra hge
    rw [h.unborn (P := registrar) (Nat.le_of_not_lt hge)] at hu
    cases hu
  have hthread : d.threads[u]? = some (d.threads[u].1, d.threads[u].2) :=
    List.getElem?_eq_getElem hlt
  obtain ⟨reply, hreply⟩ := hquiet u _ _ hthread
  rw [hreply] at hthread
  have hfollows := h.follows_of (registrar_program _) hthread
  have hover : HandsOver reply (localOf registrar u d.history) := hfollows
  obtain ⟨value, hvalue⟩ := hover e hu
  rw [hvalue] at hthread
  exact ⟨u, _, value, hthread⟩

end Runs

end RfcMcp
