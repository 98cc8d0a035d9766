import RfcMcp.Execution.Routine
import RfcMcp.Mcp.Server

namespace RfcMcp

open Framework Framework.Protocol

/-- The result of the RFC goes into the response of its request. -/
def Purpose.isAnswered : Purpose → Bool
  | .read | .write _ | .commit _ | .rollback _ => true
  | .discovery | .expire _ | .shutdown _ => false

/-- What a response is made of, the oldest first: the results of RFCs, and for an include that could
not be read the text that stands for it. -/
structure Ledger where
  answered : Bool := false
  answers : List (Except String PyDict) := []

def Ledger.after (g : Ledger) : (o : Op) → o.Res → Ledger
  | .rfcBegin _ p _ _, _ => { g with answered := p.isAnswered }
  | .rfcEnd _ _ _, .ok result =>
    if g.answered then { g with answers := g.answers ++ [.ok result] } else g
  | .log record, _ =>
    if record.logger = SourceReader.logger then
      { g with answers := g.answers ++ [.error (record.args.getLastD "")] }
    else g
  | _, _ => g

@[reducible] def ledger : Protocol Effects where
  Local := Ledger
  start := {}
  allows := fun _ _ => True
  after := fun o v g => g.after o v

section Rules

variable {α : Type} {cfg : AppSettings} {conn : Conn} {answers : List (Except String PyDict)}

/-- Nothing is added to the ledger. -/
abbrev Adds (answers : List (Except String PyDict)) (x : Act α) : Prop :=
  ledger.Keeps (fun g => g.answers = answers) x

theorem ledger_step {g : Ledger} {o : Op} {ok : o.Res → Ledger → Prop}
    {err : PyExc → Ledger → Prop} (hok : ∀ r, ok r (g.after o r)) :
    ledger.Meets (perform o) ok err g :=
  ⟨trivial, hok⟩

theorem adds_op {o : Op} (hrfc : o.area ≠ .rfc) (hlog : o.area ≠ .log) :
    Adds answers (perform o) := by
  constructor
  intro g hg
  refine ledger_step fun r => ?_
  cases o with
  | rfcBegin _ p _ _ => exact hg
  | rfcEnd _ _ _ => exact absurd rfl hrfc
  | log _ => exact absurd rfl hlog
  | _ => exact hg

theorem ledger_log {record : LogRecord} {ok : Unit → Ledger → Prop} {err : PyExc → Ledger → Prop}
    {g : Ledger} (h : record.logger ≠ SourceReader.logger) (hok : ok () g) :
    ledger.Meets (log record) ok err g := by
  refine ledger_step (o := .log record) fun _ => ?_
  rw [Ledger.after, if_neg h]
  exact hok

theorem adds_log {record : LogRecord} (h : record.logger ≠ SourceReader.logger) :
    Adds answers (log record) :=
  ⟨fun _ hg => ledger_log h hg⟩

theorem adds_withLock {l : LockId} {x : Act α} (hx : Adds answers x) :
    Adds answers (withLock l x) :=
  keeps_bind (adds_op (by simp [Op.area]) (by simp [Op.area])) fun _ =>
    keeps_tryFinally hx (adds_op (by simp [Op.area]) (by simp [Op.area]))

/-- Programs that neither call nor log. -/
theorem adds_within {areas : List Area} {x : Act α} (hx : Within areas x)
    (hrfc : areas.contains Area.rfc = false) (hlog : areas.contains Area.log = false) :
    Adds answers x := by
  refine hx.keeps fun o ho => adds_op (fun heq => ?_) fun heq => ?_
  · rw [heq, ← List.contains_iff_mem, hrfc] at ho
    cases ho
  · rw [heq, ← List.contains_iff_mem, hlog] at ho
    cases ho

theorem adds_call {p : Purpose} {f : String} {kwargs : PyDict} (hp : p.isAnswered = false) :
    Adds answers (conn.call p f kwargs) := by
  constructor
  intro g hg
  unfold Conn.call
  rw [meets_bind]
  refine ledger_step fun _ => ?_
  rw [meets_bind]
  refine ledger_step fun r => ?_
  rw [meets_ofExcept]
  cases r with
  | ok result =>
    refine ⟨fun _ _ => ?_, nofun⟩
    rw [Ledger.after, Ledger.after, hp]
    exact hg
  | error exc => exact ⟨nofun, fun _ _ => hg⟩

/-- A call whose result is answered adds the result. -/
theorem ledger_call {p : Purpose} {f : String} {kwargs : PyDict} {g : Ledger}
    (hp : p.isAnswered = true) (hg : g.answers = answers) :
    ledger.Meets (conn.call p f kwargs) (fun result g' => g'.answers = answers ++ [.ok result])
      (fun _ g' => g'.answers = answers) g := by
  unfold Conn.call
  rw [meets_bind]
  refine ledger_step fun _ => ?_
  rw [meets_bind]
  refine ledger_step fun r => ?_
  rw [meets_ofExcept]
  cases r with
  | ok result =>
    refine ⟨fun result' hresult => ?_, nofun⟩
    cases hresult
    rw [Ledger.after, Ledger.after, hp, if_pos rfl, hg]
  | error exc => exact ⟨nofun, fun _ _ => hg⟩

theorem adds_checkout : Adds answers (ConnectionPool.checkout cfg) :=
  adds_within (within_checkout cfg) rfl rfl

/-- Releasing a connection does not raise. -/
theorem ledger_release {reusable : Bool} {luw : Option Entry} {g : Ledger}
    (hg : g.answers = answers) :
    ledger.Meets (ConnectionPool.release conn reusable luw) (fun _ g' => g'.answers = answers)
      (fun _ _ => False) g := by
  have hfinal : ∀ g' : Ledger, g'.answers = answers → ledger.Meets (perform .semRelease)
      (fun _ g' => g'.answers = answers) (fun (_ : PyExc) _ => False) g' :=
    fun g' hg' => ledger_step fun _ => hg'
  unfold ConnectionPool.release
  rw [meets_bind]
  refine ledger_step fun _ => ?_
  rw [meets_tryFinally]
  cases reusable with
  | false => exact ledger_step fun _ => hfinal _ hg
  | true =>
    rw [if_pos rfl]
    unfold withLock
    rw [meets_bind]
    refine ledger_step fun _ => ?_
    rw [meets_tryFinally]
    exact ledger_step fun _ => ledger_step fun _ => hfinal _ hg

theorem adds_release {reusable : Bool} {luw : Option Entry} :
    Adds answers (ConnectionPool.release conn reusable luw) :=
  ⟨fun _ hg => (ledger_release hg).mono (fun _ _ hg => hg) fun _ _ hf => hf.elim⟩

theorem adds_areas {o : Op} (ho : o.area ∈ [Area.lock, .borrow, .giveBack, .cache, .clock, .expiry,
    .create]) : Adds answers (perform o) := by
  apply adds_op
  · intro heq
    simp [heq] at ho
  · intro heq
    simp [heq] at ho

theorem adds_lookups (cfg : AppSettings) :
    Lookups cfg ledger fun g => g.answers = answers := by
  refine lookups_of_areas (fun o ho => adds_areas ?_) (fun _ h => adds_log h)
    fun conn f params => adds_call rfl
  exact mem_of_covers rfl ho

theorem ledger_callOnConnection {p : Purpose} {f mode : String} {kwargs : PyDict}
    {id : Option TxId} {g : Ledger} (hp : p.isAnswered = true) (hg : g.answers = answers) :
    ledger.Meets (ExecutionInvoker.callOnConnection cfg conn p f kwargs mode id)
      (fun result g' => g'.answers = answers ++ [.ok result])
      (fun _ g' => g'.answers = answers) g := by
  unfold ExecutionInvoker.callOnConnection
  rw [meets_bind, meets_tryExcept]
  refine (ledger_call hp hg).mono (fun result g' hg' => ?_) fun exc g' hg' => ?_
  · rw [meets_bind]
    exact ledger_log invoker_logger_ne hg'
  · rw [meets_bind]
    exact ledger_log invoker_logger_ne hg'

/-- A read on a borrowed connection. -/
theorem ledger_read {f mode : String} {kwargs : PyDict} {g : Ledger} (hg : g.answers = answers) :
    ledger.Meets (ConnectionPool.acquire cfg fun conn =>
        ExecutionInvoker.callOnConnection cfg conn .read f kwargs mode none)
      (fun result g' => g'.answers = answers ++ [.ok result])
      (fun _ g' => g'.answers = answers) g := by
  unfold ConnectionPool.acquire
  rw [meets_bind]
  refine (adds_checkout.meets g hg).mono (fun conn g hg => ?_) fun _ _ hg => hg
  rw [meets_bind, meets_tryExcept]
  refine (ledger_callOnConnection rfl hg).mono (fun result g' hg' => ?_) fun exc g' hg' => ?_
  · rw [meets_bind]
    exact (ledger_release hg').mono (fun _ _ hg => hg) fun _ _ hf => hf.elim
  · rw [meets_bind]
    exact (adds_release.meets g' hg').mono (fun _ _ hg => hg) fun _ _ hg => hg

end Rules

end RfcMcp
