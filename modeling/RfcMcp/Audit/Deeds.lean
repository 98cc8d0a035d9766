import RfcMcp.Execution.Routine
import RfcMcp.Framework.Billing
import RfcMcp.Mcp.Server

namespace RfcMcp

open Framework Framework.Protocol

namespace ExecutionInvoker

/-- The record about a result that is over the limits. -/
def blockedRecords (cfg : AppSettings) (function mode : String) (raw : PyDict) : List LogRecord :=
  match cfg.limits.apply (.dict raw) with
  | .error (.resultLimitExceeded _) =>
    [warning "CALL RESULT BLOCKED function=%s mode=%s max_table_rows=%s max_serialized_bytes=%s"
      [function, mode, toString cfg.limits.maxTableRows, toString cfg.limits.maxSerializedBytes]]
  | _ => []

/-- The records about an RFC that a tool has asked for. -/
def callRecords (cfg : AppSettings) (function mode : String) (id : Option TxId) :
    Except PyExc PyDict → List LogRecord
  | .error exc => [warning "CALL FAILED function=%s mode=%s transaction_id=%s error=%s: %s"
      [function, mode, id.getD "None", (translate cfg exc).typeName,
        (translate cfg exc).text cfg.text]]
  | .ok raw =>
    info "CALL SUCCEEDED function=%s mode=%s transaction_id=%s" [function, mode, id.getD "None"] ::
      blockedRecords cfg function mode raw

/-- The record about a COMMIT or ROLLBACK that a client has asked for. -/
def controlRecord (cfg : AppSettings) (action : String) (id : TxId) :
    Except PyExc PyDict → LogRecord
  | .ok _ => info "%s SUCCEEDED transaction_id=%s" [action, id]
  | .error exc => warning "%s FAILED transaction_id=%s error=%s: %s"
      [action, id, (translate cfg exc).typeName, (translate cfg exc).text cfg.text]

/-- The records about an RFC with result `r`, by what it was for. -/
def rfcRecords (cfg : AppSettings) (function : String) (r : Except PyExc PyDict) :
    Option Purpose → List LogRecord
  | some .read => callRecords cfg function "read" none r
  | some (.write e) => callRecords cfg function "write" (some e.1) r
  | some (.commit e) => [controlRecord cfg "COMMIT" e.1 r]
  | some (.rollback e) => [controlRecord cfg "ROLLBACK" e.1 r]
  | some (.expire e) => match r with
    | .ok _ => []
    | .error exc => [warning "ROLLBACK FAILED transaction_id=%s reason=expired" [e.1] (some exc)]
  | some (.shutdown e) => match r with
    | .ok _ => [info "ROLLBACK SUCCEEDED transaction_id=%s reason=shutdown" [e.1]]
    | .error exc => [warning "ROLLBACK FAILED transaction_id=%s reason=shutdown" [e.1] (some exc)]
  | _ => []

/-- The record about a transaction that is over, by what the thread's last RFC was for. -/
def releaseRecords (e : Entry) : Option Purpose → List LogRecord
  | some (.expire _) => [warning "TRANSACTION EXPIRED transaction_id=%s" [e.1]]
  | some (.commit _) | some (.rollback _) | some (.shutdown _) => []
  | _ => [warning "TRANSACTION DISCARDED transaction_id=%s" [e.1]]

end ExecutionInvoker

open ExecutionInvoker

/-- What the invoker has to report, and its reports. The state is what the thread's last RFC was
for. -/
@[reducible] def deeds (cfg : AppSettings) : Billing Effects LogRecord where
  State := Option Purpose
  start := none
  next := fun last o _ => match o with
    | .rfcBegin _ p _ _ => some p
    | _ => last
  due := fun last o v => match o, v with
    | .rfcEnd _ function _, r => rfcRecords cfg function r last
    | .register id _, _ => [info "TRANSACTION STARTED transaction_id=%s" [id]]
    | .poolRelease _ _ (some e), _ => releaseRecords e last
    | _, _ => []
  paid := fun o => match o with
    | .log record => if record.logger = ExecutionInvoker.logger then [record] else []
    | _ => []

section Rules

variable {α : Type} {cfg : AppSettings} {last : Option Purpose} {debt : List LogRecord}

/-- Operations that are no occasion for a report. -/
def Op.isSilent : Op → Bool
  | .rfcEnd _ _ _ => false
  | .register _ _ => false
  | .poolRelease _ _ (some _) => false
  | .log record => record.logger ≠ ExecutionInvoker.logger
  | _ => true

theorem free_of_silent {o : Op} (ho : o.isSilent = true) : (deeds cfg).Free o := by
  cases o with
  | rfcEnd _ _ _ | register _ _ => cases ho
  | poolRelease conn reusable luw =>
    cases luw with
    | none => exact ⟨rfl, fun _ _ => rfl⟩
    | some e => cases ho
  | log record =>
    refine ⟨?_, fun _ _ => rfl⟩
    show (if record.logger = ExecutionInvoker.logger then [record] else []) = []
    rw [if_neg]
    exact of_decide_eq_true ho
  | _ => exact ⟨rfl, fun _ _ => rfl⟩

theorem silent_op {o : Op} (ho : o.isSilent = true) :
    (deeds cfg).protocol.Keeps (deeds cfg).Clear (perform o) :=
  Billing.keeps_free (free_of_silent ho)

theorem silent_withLock {l : LockId} {x : Act α}
    (hx : (deeds cfg).protocol.Keeps (deeds cfg).Clear x) :
    (deeds cfg).protocol.Keeps (deeds cfg).Clear (withLock l x) :=
  keeps_bind (silent_op rfl) fun _ => keeps_tryFinally hx (silent_op rfl)

/-- A report that is due. -/
theorem report_step {record : LogRecord} {ok : Unit → Option Purpose × List LogRecord → Prop}
    {err : PyExc → Option Purpose × List LogRecord → Prop}
    (hlogger : record.logger = ExecutionInvoker.logger) (hok : ok () (last, debt)) :
    (deeds cfg).protocol.Meets (log record) ok err (last, record :: debt) :=
  Billing.pay_step (if_pos hlogger) (fun _ => rfl) fun _ => hok

end Rules

end RfcMcp
