import RfcMcp.Response.Ledger
import RfcMcp.Response.Sizes

namespace RfcMcp

open Framework Framework.Protocol

section Limits

/-- Beyond the limits: too many list elements, or too many bytes of JSON. -/
def Exceeds (limits : ResultLimitPolicy) (value : PyValue) : Prop :=
  limits.maxTableRows < value.totalRows ∨
    ∃ text, jsonDumps value.safe = .ok text ∧ limits.maxSerializedBytes < text.utf8ByteSize

def isLimitExceeded : PyExc → Bool
  | .resultLimitExceeded _ => true
  | _ => false

variable {limits : ResultLimitPolicy} {value v : PyValue} {exc : PyExc}

theorem not_exceeds (h : limits.apply value = .ok v) : ¬Exceeds limits value := by
  obtain ⟨hrows, rfl, text, hdumps, hsize⟩ := (apply_ok_iff v).mp h
  intro hexceeds
  cases hexceeds with
  | inl hlt => omega
  | inr hbytes =>
    obtain ⟨text', hdumps', hlt⟩ := hbytes
    rw [hdumps] at hdumps'
    cases hdumps'
    omega

theorem limitExceeded_of_apply (h : limits.apply value = .error exc)
    (hexceeds : Exceeds limits value) : isLimitExceeded exc = true := by
  have happlied := applied limits value
  rw [h] at happlied
  cases happlied with
  | rows | bytes => rfl
  | encoder hrows hdumps =>
    cases hexceeds with
    | inl hlt => omega
    | inr hbytes =>
      obtain ⟨text, htext, _⟩ := hbytes
      rw [htext] at hdumps
      cases hdumps

end Limits

section Calls

variable {α : Type} {cfg : AppSettings} {answers : List (Except String PyDict)} {g : Ledger}

/-- The request has got a result, and `v` is what the limits let through. -/
def Passed (limits : ResultLimitPolicy) (answers : List (Except String PyDict)) (v : PyValue)
    (g : Ledger) : Prop :=
  ∃ result, g.answers = answers ++ [.ok result] ∧ limits.apply (.dict result) = .ok v

/-- The request has raised, either without a result or because of the limits. -/
def Stopped (limits : ResultLimitPolicy) (answers : List (Except String PyDict)) (exc : PyExc)
    (g : Ledger) : Prop :=
  g.answers = answers ∨
    ∃ result, g.answers = answers ++ [.ok result] ∧ limits.apply (.dict result) = .error exc

theorem ledger_withLock {l : LockId} {x : Act α} {ok : α → Ledger → Prop}
    {err : PyExc → Ledger → Prop} (hx : ledger.Meets x ok err g) :
    ledger.Meets (withLock l x) ok err g := by
  unfold withLock
  rw [meets_bind]
  refine ledger_step fun _ => ?_
  rw [meets_tryFinally]
  exact hx.mono (fun _ _ h => ledger_step fun _ => h) fun _ _ h => ledger_step fun _ => h

theorem ledger_applyResultLimits {f mode : String} {result : PyDict}
    (hg : g.answers = answers ++ [.ok result]) :
    ledger.Meets (ExecutionInvoker.applyResultLimits cfg f mode result)
      (Passed cfg.limits answers) (Stopped cfg.limits answers) g := by
  unfold ExecutionInvoker.applyResultLimits
  split
  · rename_i v happly
    exact ⟨result, hg, happly⟩
  · rename_i message happly
    rw [meets_bind]
    exact ledger_log invoker_logger_ne (.inr ⟨result, hg, happly⟩)
  · rename_i exc hnot happly
    exact .inr ⟨result, hg, happly⟩

theorem ledger_invokerCall (f : String) (parameters : PyDict) (mode : String)
    (hg : g.answers = answers) :
    ledger.Meets (ExecutionInvoker.call cfg (connectionPool cfg) f parameters mode)
      (Passed cfg.limits answers) (Stopped cfg.limits answers) g := by
  have hlookups := @adds_lookups answers cfg
  unfold ExecutionInvoker.call
  split
  · exact .inl hg
  rw [meets_bind]
  refine ((hlookups.authorize _ _ _ _ _).meets g hg).mono (fun _ g hg => ?_) fun _ _ hg => .inl hg
  rw [meets_bind]
  refine ((hlookups.getInterface f).meets g hg).mono (fun interface g hg => ?_)
    fun _ _ hg => .inl hg
  rw [meets_bind]
  refine ((keeps_ofExcept _).meets g hg).mono (fun callKwargs g hg => ?_) fun _ _ hg => .inl hg
  rw [meets_bind]
  refine (ledger_read hg).mono (fun result g hg => ?_) fun _ _ hg => .inl hg
  exact ledger_applyResultLimits hg

theorem adds_expireTransactions :
    Adds answers (ExecutionInvoker.expireTransactions cfg (connectionPool cfg)) := by
  refine keeps_expireTransactions_of (fun o ho => adds_areas ?_) (fun _ h => adds_log h)
    fun e => adds_call rfl
  exact mem_of_covers rfl ho

theorem adds_getOrCreateTransaction (id : Option TxId) :
    Adds answers (ExecutionInvoker.getOrCreateTransaction cfg (connectionPool cfg) id) := by
  cases id with
  | some id => exact adds_within (within_findTransaction cfg id) rfl rfl
  | none =>
    refine keeps_bind adds_checkout fun conn => ?_
    refine keeps_bind (adds_areas (by simp [Op.area])) fun id => ?_
    refine keeps_bind (adds_areas (by simp [Op.area])) fun now => ?_
    refine keeps_bind (adds_areas (by simp [Op.area])) fun ref => ?_
    refine keeps_bind (adds_withLock (adds_areas (by simp [Op.area]))) fun _ => ?_
    exact keeps_bind (adds_log invoker_logger_ne) fun _ => keeps_pure _

/-- A transaction is discarded without an exception of its own. -/
theorem ledger_discardTransaction (e : Entry) (hg : g.answers = answers) :
    ledger.Meets (ExecutionInvoker.discardTransaction (connectionPool cfg) e)
      (fun _ g' => g'.answers = answers) (fun _ _ => False) g := by
  unfold ExecutionInvoker.discardTransaction ExecutionInvoker.removeIfCurrent
  rw [meets_bind]
  refine ledger_withLock (ledger_step fun removed => ?_)
  cases removed with
  | false => exact hg
  | true =>
    rw [if_pos rfl, meets_bind]
    refine (ledger_release hg).mono (fun _ g' hg' => ?_) fun _ _ hf => hf
    exact ledger_log invoker_logger_ne hg'

theorem ledger_writeLocked (f mode : String) (callKwargs : PyDict) (e : Entry)
    (hg : g.answers = answers) :
    ledger.Meets (ExecutionInvoker.writeLocked cfg (connectionPool cfg) f callKwargs mode e)
      (Passed cfg.limits answers) (Stopped cfg.limits answers) g := by
  have hdiscard : ∀ (ok : PyValue → Ledger → Prop) (exc : PyExc) (g' : Ledger),
      Stopped cfg.limits answers exc g' → ledger.Meets
        (do
          ExecutionInvoker.discardTransaction (connectionPool cfg) e
          (Action.raise exc : Act PyValue))
        ok (Stopped cfg.limits answers) g' := by
    intro ok exc g' hg'
    rw [meets_bind]
    refine (ledger_discardTransaction e rfl).mono (fun _ g'' hg'' => ?_) fun _ _ hf => hf.elim
    rw [meets_raise, Stopped, hg'']
    exact hg'
  unfold ExecutionInvoker.writeLocked ExecutionInvoker.isCurrentTransaction
  rw [meets_bind]
  refine ledger_withLock (ledger_step fun current => ?_)
  cases current with
  | false => exact .inl hg
  | true =>
    rw [if_neg (by simp), meets_bind, meets_tryExcept, meets_bind]
    refine (ledger_callOnConnection rfl hg).mono (fun raw g hg => ?_)
      fun exc g hg => hdiscard _ exc g (.inl hg)
    refine (ledger_applyResultLimits hg).mono (fun v g hg => ?_) fun exc g hg => hdiscard _ exc g hg
    rw [meets_bind]
    refine ledger_step fun now => ?_
    rw [meets_bind]
    exact ledger_step fun _ => hg

theorem ledger_write (f : String) (parameters : PyDict) (id : Option TxId)
    (hg : g.answers = answers) :
    ledger.Meets (ExecutionInvoker.write cfg (connectionPool cfg) f parameters id)
      (fun r => Passed cfg.limits answers r.1) (Stopped cfg.limits answers) g := by
  have hlookups := @adds_lookups answers cfg
  unfold ExecutionInvoker.write
  rw [meets_bind]
  refine ((hlookups.authorize _ _ _ _ _).meets g hg).mono (fun _ g hg => ?_) fun _ _ hg => .inl hg
  rw [meets_bind]
  refine ((hlookups.getInterface f).meets g hg).mono (fun interface g hg => ?_)
    fun _ _ hg => .inl hg
  rw [meets_bind]
  refine ((keeps_ofExcept _).meets g hg).mono (fun callKwargs g hg => ?_) fun _ _ hg => .inl hg
  rw [meets_bind]
  refine ((adds_getOrCreateTransaction id).meets g hg).mono (fun e g hg => ?_) fun _ _ hg => .inl hg
  rw [meets_bind]
  exact ledger_withLock (ledger_writeLocked f "write" callKwargs e hg)

theorem ledger_callTransactional (f : String) (parameters : PyDict) (mode : String)
    (id : Option TxId) (hg : g.answers = answers) :
    ledger.Meets (ExecutionInvoker.callTransactional cfg (connectionPool cfg) f parameters mode id)
      (fun r => Passed cfg.limits answers r.1) (Stopped cfg.limits answers) g := by
  unfold ExecutionInvoker.callTransactional
  rw [meets_bind]
  refine (adds_expireTransactions.meets g hg).mono (fun _ g hg => ?_) fun _ _ hg => .inl hg
  split
  · split
    · exact .inl hg
    · rw [meets_bind]
      exact ledger_invokerCall f parameters mode hg
  split
  · exact .inl hg
  · exact ledger_write f parameters id hg

/-- What ends a transaction returns the result of its RFC as it is. -/
theorem ledger_finishTransaction (id : TxId) (action : ExecutionInvoker.ControlAction)
    (hg : g.answers = answers) :
    ledger.Meets (ExecutionInvoker.finishTransaction cfg (connectionPool cfg) id action)
      (fun v g' => ∃ result, g'.answers = answers ++ [.ok result] ∧
        v = (PyValue.dict result).safe)
      (fun _ g' => g'.answers = answers) g := by
  have hcontrol : ∀ (e : Entry) (g : Ledger), g.answers = answers →
      ledger.Meets (ExecutionInvoker.control action e)
        (fun result g' => g'.answers = answers ++ [.ok result]) (fun _ g' => g'.answers = answers)
        g := by
    intro e g hg
    cases action with
    | commit wait => exact ledger_call rfl hg
    | rollback => exact ledger_call rfl hg
  unfold ExecutionInvoker.finishTransaction ExecutionInvoker.finishLocked
    ExecutionInvoker.removeIfCurrent
  rw [meets_bind]
  refine (adds_expireTransactions.meets g hg).mono (fun _ g hg => ?_) fun _ _ hg => hg
  rw [meets_bind]
  refine ((adds_within (within_findTransaction cfg id) rfl rfl).meets g hg).mono
    (fun e g hg => ?_) fun _ _ hg => hg
  rw [meets_bind]
  refine ledger_withLock ?_
  rw [meets_bind]
  refine ledger_withLock (ledger_step fun removed => ?_)
  cases removed with
  | false => exact hg
  | true =>
    rw [if_neg (by simp), meets_bind, meets_tryExcept]
    refine (hcontrol e g hg).mono (fun result g hg => ?_) fun exc g hg => ?_
    · rw [meets_bind]
      refine (ledger_release hg).mono (fun _ g hg => ?_) fun _ _ hf => hf.elim
      rw [meets_pure, meets_bind]
      refine ledger_log invoker_logger_ne ?_
      rw [toJsonSafe_eq]
      exact ⟨result, hg, rfl⟩
    · rw [meets_bind]
      refine ledger_log invoker_logger_ne ?_
      rw [meets_bind]
      exact (adds_release.meets g hg).mono (fun _ _ hg => hg) fun _ _ hg => hg

theorem adds_close : Adds answers (ExecutionInvoker.close (connectionPool cfg)) := by
  refine keeps_bind (adds_withLock (adds_op (by simp [Op.area]) (by simp [Op.area])))
    fun pending => ?_
  refine keeps_forEach fun e _ => adds_withLock ?_
  refine keeps_bind (keeps_tryExcept ?_ fun exc => ?_) fun reusable => adds_release
  · exact keeps_bind (adds_call rfl) fun _ =>
      keeps_bind (adds_log invoker_logger_ne) fun _ => keeps_pure true
  · exact keeps_bind (adds_log invoker_logger_ne) fun _ => keeps_pure false

end Calls

end RfcMcp
