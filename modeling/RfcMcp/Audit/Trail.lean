import RfcMcp.Framework.Twin
import RfcMcp.Footprint.Programs
import RfcMcp.Mcp.Server

namespace RfcMcp

open Framework Framework.System

/-- The requests whose audit trail is looked at, without their parameters. -/
inductive Audited
  | call (functionName mode : String)
  | callTransactional (functionName mode : String) (id : Option TxId)

namespace Audited

def request (parameters : PyDict) : Audited → Request
  | .call functionName mode => .call functionName parameters mode
  | .callTransactional functionName mode id => .callTransactional functionName parameters mode id

def functionName : Audited → String
  | .call functionName _ => functionName
  | .callTransactional functionName _ _ => functionName

end Audited

section World

variable (cfg : AppSettings) (f : String) {α β : Type}

/-- What a read call does on a connection of the pool. -/
def readRfc (kwargs : PyDict) : Act PyDict :=
  (connectionPool cfg).acquire fun conn =>
    ExecutionInvoker.callOnConnection cfg conn .read f kwargs "read" none

/-- What a write call does on the connection of its transaction. -/
def writeRfc (e : Entry) (kwargs : PyDict) : Act PyDict :=
  ExecutionInvoker.callOnConnection cfg e.2.connection (.write e) f kwargs "write" (some e.1)

/-- The RFC that the request is about came to `r`. -/
inductive RfcEnds (p : Program Effects α) (trace : Trace Effects) (r : Except PyExc PyDict) : Prop
  | read {conn : Conn} {kwargs : PyDict} (h : p.Passes trace (conn.call .read f kwargs) r)
  | written {conn : Conn} {e : Entry} {kwargs : PyDict}
      (h : p.Passes trace (conn.call (.write e) f kwargs) r)

/-- The RFC returned normally, if the request came to it. -/
def RfcReturns (p : Program Effects α) (trace : Trace Effects) : Prop :=
  ∀ r, RfcEnds f p trace r → ∃ v, r = .ok v

/-- Both results are accepted, or both are over the limits. -/
def SameVerdict (limits : ResultLimitPolicy) (v v' : PyDict) : Prop :=
  (∃ x x', limits.apply (.dict v) = .ok x ∧ limits.apply (.dict v') = .ok x') ∨
    ∃ m m', limits.apply (.dict v) = .error (.resultLimitExceeded m) ∧
      limits.apply (.dict v') = .error (.resultLimitExceeded m')

/-- In two runs the RFC returns normally, with results of one verdict, and the outcomes of interface
lookups and of expiry rollbacks are the same. Where the RFC is next, a connection is to be had for
it in both runs or in neither. -/
structure Comparable (p : Program Effects α) (trace : Trace Effects) (p' : Program Effects β)
    (trace' : Trace Effects) : Prop where
  returns : RfcReturns f p trace
  returns' : RfcReturns f p' trace'
  verdict : ∀ v v', RfcEnds f p trace (.ok v) → RfcEnds f p' trace' (.ok v') →
    SameVerdict cfg.limits v v'
  borrowed : ∀ kwargs kwargs' r r', p.Passes trace (readRfc cfg f kwargs) r →
    p'.Passes trace' (readRfc cfg f kwargs') r' → r.isOk = r'.isOk
  created : ∀ r r', p.Passes trace (ExecutionInvoker.createTransaction (connectionPool cfg)) r →
    p'.Passes trace' (ExecutionInvoker.createTransaction (connectionPool cfg)) r' →
    r.isOk = r'.isOk
  lookup : ∀ r r', p.Passes trace (ExecutionInvoker.getInterface cfg (connectionPool cfg) f) r →
    p'.Passes trace' (ExecutionInvoker.getInterface cfg (connectionPool cfg) f) r' → r = r'
  rollback : ∀ (e : Entry) r r',
    p.Passes trace (Transaction.rollback e.2.connection (.expire e)) r →
    p'.Passes trace' (Transaction.rollback e.2.connection (.expire e)) r' → r = r'

section Parts

variable {cfg f} {α' β' : Type} {p : Program Effects α} {p' : Program Effects β}
  {k : α → Program Effects α'} {k' : β → Program Effects β'}
  {first first' second second' : Trace Effects} {r : Except PyExc PyDict}

theorem RfcEnds.front (h : RfcEnds f p first r) (k : α → Program Effects α')
    (second : Trace Effects) : RfcEnds f (p.bind k) (first ++ second) r := by
  cases h with
  | read h => exact .read (h.front k second)
  | written h => exact .written (h.front k second)

theorem RfcEnds.rest {a : α} (h : RfcEnds f (k a) second r) (hp : p.Replays first a) :
    RfcEnds f (p.bind k) (first ++ second) r := by
  cases h with
  | read h => exact .read (h.rest hp)
  | written h => exact .written (h.rest hp)

theorem Comparable.front
    (h : Comparable cfg f (p.bind k) (first ++ second) (p'.bind k') (first' ++ second')) :
    Comparable cfg f p first p' first' where
  returns r hr := h.returns r (hr.front k second)
  returns' r hr := h.returns' r (hr.front k' second')
  verdict v v' hv hv' := h.verdict v v' (hv.front k second) (hv'.front k' second')
  borrowed kwargs kwargs' r r' hr hr' :=
    h.borrowed kwargs kwargs' r r' (hr.front k second) (hr'.front k' second')
  created r r' hr hr' := h.created r r' (hr.front k second) (hr'.front k' second')
  lookup r r' hr hr' := h.lookup r r' (hr.front k second) (hr'.front k' second')
  rollback e r r' hr hr' := h.rollback e r r' (hr.front k second) (hr'.front k' second')

theorem Comparable.rest {a : α} {b : β}
    (h : Comparable cfg f (p.bind k) (first ++ second) (p'.bind k') (first' ++ second'))
    (hp : p.Replays first a) (hp' : p'.Replays first' b) :
    Comparable cfg f (k a) second (k' b) second' where
  returns r hr := h.returns r (hr.rest hp)
  returns' r hr := h.returns' r (hr.rest hp')
  verdict v v' hv hv' := h.verdict v v' (hv.rest hp) (hv'.rest hp')
  borrowed kwargs kwargs' r r' hr hr' :=
    h.borrowed kwargs kwargs' r r' (hr.rest hp) (hr'.rest hp')
  created r r' hr hr' := h.created r r' (hr.rest hp) (hr'.rest hp')
  lookup r r' hr hr' := h.lookup r r' (hr.rest hp) (hr'.rest hp')
  rollback e r r' hr hr' := h.rollback e r r' (hr.rest hp) (hr'.rest hp')

end Parts

end World

section Trail

/-- Where the outside decides, apart from RFCs and connections. -/
inductive Source
  | clock
  | token

abbrev Source.Answer : Source → Type
  | .clock => Time
  | .token => TxId

def Op.inputs : (i : Source) → (o : Op) → o.Res → List i.Answer
  | .clock, .monotonic, now => [now]
  | .token, .tokenUrlsafe, id => [id]
  | _, _, _ => []

def Op.records : Op → List LogRecord
  | .log record => [record]
  | _ => []

@[reducible] def trail (cfg : AppSettings) (f : String) : Pairing Effects where
  Channel := Source
  Input := Source.Answer
  Output := LogRecord
  inputs := fun i o v => o.inputs i v
  outputs := fun o _ => o.records
  Same := Comparable cfg f
  front := Comparable.front
  rest := Comparable.rest

/-- The log records that the policy and the invoker have emitted. -/
def auditOf (trace : Trace Effects) : List LogRecord :=
  (trace.flatMap fun did => did.1.records).filter fun record =>
    record.logger = ExecutionPolicy.logger ∨ record.logger = ExecutionInvoker.logger

end Trail

end RfcMcp
