import RfcMcp.Contracts.Asking
import RfcMcp.Framework.Accounts

namespace RfcMcp

open Framework ExecutionInvoker

section Evidence

/-- A thread has issued an RFC, and `r` has come of it. -/
def RfcEnded (p : Purpose) (f : String) (kwargs : PyDict) (r : Except PyExc PyDict)
    (trace : Trace Effects) : Prop :=
  ∃ conn, [⟨Op.rfcEnd conn f kwargs, r⟩, ⟨Op.rfcBegin conn p f kwargs, ()⟩] <:+: trace

/-- The purposes of the RFCs whose failure is the failure of the request. -/
def Purpose.isReported : Purpose → Bool
  | .expire _ | .shutdown _ => false
  | _ => true

/-- What is under `key` is not a list of rows. -/
inductive NotRows (raw : PyDict) (key : String) (exc : PyExc) : Prop
  | value (h : (raw.getD key (.list [])).iterate = .error exc)
  | row {rows : List PyValue} {row : PyValue} (hrows : (raw.getD key (.list [])).iterate = .ok rows)
      (hmem : row ∈ rows) (h : row.asRow = .error exc)

/-- The answer to a lookup does not have the form that the catalog takes for granted. -/
inductive Malformed (T : PyText) (raw : PyDict) (exc : PyExc) : String → Prop
  | search {limit : Int} (h : FunctionCatalog.searchRows T limit raw = .error exc) :
      Malformed T raw exc "RFC_FUNCTION_SEARCH"
  | interface {key : String} (hkey : key = "PARAMS" ∨ key = "EXCEPTIONS")
      (h : NotRows raw key exc) : Malformed T raw exc "RFC_GET_FUNCTION_INTERFACE"
  | fields (h : NotRows raw "FIELDS" exc) : Malformed T raw exc "RFC_GET_STRUCTURE_DEFINITION"

/-- The result of a read does not have the form of a source. -/
inductive Misread (value : PyValue) (exc : PyExc) : Prop
  | lines {key : String} (h : SourceReader.sourceLines value key = .error exc)
  | row (h : value.asRow = .error exc)
  | includes {row : PyDict} (hrow : value.asRow = .ok row) (h : NotRows row "INCLUDE_TAB" exc)

/-- The tool is used in a way that it does not offer. -/
inductive Misused (T : PyText) : Request → PyExc → Prop
  | call {f parameters mode} (h : mode ≠ "read") : Misused T (.call f parameters mode)
      (.valueError ("Write calls require call_transactional() so they can return " ++
        "the SAP transaction ID."))
  | read {f parameters id} : Misused T (.callTransactional f parameters "read" (some id))
      (.valueError "transaction_id is only valid for write calls")
  | mode {f parameters mode id} (hread : mode ≠ "read") (hwrite : mode ≠ "write") :
      Misused T (.callTransactional f parameters mode id)
        (.valueError ("Unknown mode: " ++ T.reprStr mode))

/-- The transaction that a request is about. -/
def Request.names : Request → Option TxId
  | .callTransactional _ _ "write" id => id
  | .commit id _ => some id
  | .rollback id => some id
  | _ => none

/-- A thread has got `e` as the transaction of its request. -/
def Request.Obtained (request : Request) (e : Entry) (trace : Trace Effects) : Prop :=
  (request.names = some e.1 ∧ ⟨Op.lookup e.1, some e.2⟩ ∈ trace) ∨
    ⟨Op.register e.1 e.2, ()⟩ ∈ trace

def Request.endsTransaction : Request → Bool
  | .commit _ _ | .rollback _ => true
  | _ => false

end Evidence

section Causes

variable (cfg : AppSettings) (request : Request)

/-- Why a request may raise, as its thread has seen it. -/
inductive Blames (exc : PyExc) (trace : Trace Effects) : Prop
  | misused (h : Misused cfg.text request exc)
  | denied {f mode reason : String} {parameters : PyDict}
      (hasks : request.AsksFor cfg.text f parameters) (hexc : exc = .policyDenied f mode reason)
      (h : ExecutionPolicy.authorizeUnlogged cfg.text cfg.policy f mode
        (ExecutionPolicy.genericTableReaderTarget cfg.text cfg.policy f parameters) = .error exc)
  | controlDenied (hrequest : request.endsTransaction = true) (hmode : cfg.policy.mode ≠ .readWrite)
      (hexc : exc = .policyDenied "<transaction-control>" "write"
        "server policy mode is read_only")
  | unfit {f : String} {parameters : PyDict} {interface : FunctionInterface}
      (hasks : request.AsksFor cfg.text f parameters)
      (h : Provided .interface (cfg.text.upper f) interface trace)
      (hexc : buildCallKwargs cfg.text interface parameters = .error exc)
  /-- The transaction is not in the table, -/
  | unknown {id : TxId} (hid : request.names = some id) (h : ⟨Op.lookup id, none⟩ ∈ trace)
      (hexc : exc = transactionNotFound cfg id)
  /-- or not any more. -/
  | gone {e : Entry} (he : request.Obtained e trace)
      (h : ⟨Op.isCurrent e.1 e.2, false⟩ ∈ trace ∨ ⟨Op.removeIfCurrent e.1 e.2, false⟩ ∈ trace)
      (hexc : exc = transactionNotFound cfg e.1)
  | full (h : ⟨Op.semAcquire, false⟩ ∈ trace) (hexc : exc = ConnectionPool.poolTimeout cfg)
  | uninstalled (h : cfg.pyrfcInstalled = false)
      (hexc : exc = .sap .unavailable ("pyrfc is not installed or the SAP NW RFC SDK could not " ++
        "be loaded (check SAPNWRFC_HOME and PATH). See docs/setup.md.") none)
  | unconfigured (h : cfg.pyrfcKwargs = .error exc)
  | unopened {cause : PyExc} (h : ⟨Op.openConnection, .error cause⟩ ∈ trace)
      (hexc : exc = ExecutionInvoker.translate cfg cause)
  | failed {p : Purpose} {f : String} {kwargs : PyDict} {cause : PyExc} (hp : p.isReported = true)
      (h : RfcEnded p f kwargs (.error cause) trace)
      (hexc : exc = ExecutionInvoker.translate cfg cause)
  | limited {p : Purpose} {f : String} {kwargs raw : PyDict} (hp : p.isBusiness = true)
      (h : RfcEnded p f kwargs (.ok raw) trace) (hexc : cfg.limits.apply (.dict raw) = .error exc)
  | malformed {f : String} {kwargs raw : PyDict} (h : RfcEnded .discovery f kwargs (.ok raw) trace)
      (hexc : Malformed cfg.text raw exc f)
  | misread {f : String} {kwargs raw : PyDict} {value : PyValue}
      (h : RfcEnded .read f kwargs (.ok raw) trace)
      (hvalue : cfg.limits.apply (.dict raw) = .ok value) (hexc : Misread value exc)

end Causes

section Enduring

variable {cfg : AppSettings} {request : Request} {exc : PyExc}

theorem rfcEnded_enduring (p : Purpose) (f : String) (kwargs : PyDict) (r : Except PyExc PyDict) :
    Enduring (RfcEnded p f kwargs r) := by
  rintro did trace ⟨conn, hended⟩
  exact ⟨conn, hended.trans (List.suffix_cons did trace).isInfix⟩

theorem mem_enduring (did : Σ o : Op, o.Res) : Enduring fun trace : Trace Effects => did ∈ trace :=
  fun _ _ h => List.mem_cons_of_mem _ h

theorem obtained_enduring (e : Entry) : Enduring (request.Obtained e) := by
  intro did trace he
  rcases he with ⟨hnames, hlookup⟩ | hregister
  · exact .inl ⟨hnames, mem_enduring _ did trace hlookup⟩
  · exact .inr (mem_enduring _ did trace hregister)

theorem blames_enduring (exc : PyExc) : Enduring (Blames cfg request exc) := by
  intro did trace h
  cases h with
  | misused h => exact .misused h
  | denied hasks hexc h => exact .denied hasks hexc h
  | controlDenied hrequest hmode hexc => exact .controlDenied hrequest hmode hexc
  | unfit hasks h hexc => exact .unfit hasks (h.cons did) hexc
  | unknown hid h hexc => exact .unknown hid (mem_enduring _ did trace h) hexc
  | gone he h hexc =>
    refine .gone (obtained_enduring _ did trace he) ?_ hexc
    exact h.imp (mem_enduring _ did trace) (mem_enduring _ did trace)
  | full h hexc => exact .full (mem_enduring _ did trace h) hexc
  | uninstalled h hexc => exact .uninstalled h hexc
  | unconfigured h => exact .unconfigured h
  | unopened h hexc => exact .unopened (mem_enduring _ did trace h) hexc
  | failed hp h hexc => exact .failed hp (rfcEnded_enduring _ _ _ _ did trace h) hexc
  | limited hp h hexc => exact .limited hp (rfcEnded_enduring _ _ _ _ did trace h) hexc
  | malformed h hexc => exact .malformed (rfcEnded_enduring _ _ _ _ did trace h) hexc
  | misread h hvalue hexc => exact .misread (rfcEnded_enduring _ _ _ _ did trace h) hvalue hexc

end Enduring

end RfcMcp
