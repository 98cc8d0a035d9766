import RfcMcp.Execution.SourceReader

namespace RfcMcp

open Framework Framework.System

/-- The requests that run concurrently: the tools, the calls the tools are made of, the expiry sweep
on its own, and the two halves of the shutdown. -/
inductive Request
  | call (functionName : String) (parameters : PyDict) (mode : String)
  | callTransactional (functionName : String) (parameters : PyDict) (mode : String)
      (id : Option TxId)
  | commit (id : TxId) (wait : Bool)
  | rollback (id : TxId)
  | search (pattern : String) (group : Option String) (limit : Int)
  | getInterface (functionName : String)
  | readSource (objectType : ObjectType) (objectName : String)
  | expireTransactions
  | close
  | closeAll

inductive Answer
  | result (value : PyValue)
  | written (value : PyValue) (id : Option TxId)
  | summaries (found : List FunctionSummary)
  | interface (found : FunctionInterface)
  | source (text : String)
  | done

section Server

variable (cfg : AppSettings) (pool : ConnectionManager)

def Request.program : Request → Act Answer
  | .call functionName parameters mode => do
    let value ← ExecutionInvoker.call cfg pool functionName parameters mode
    pure (.result value)
  | .callTransactional functionName parameters mode id => do
    let (value, id) ← ExecutionInvoker.callTransactional cfg pool functionName parameters mode id
    pure (.written value id)
  | .commit id wait => do
    let value ← ExecutionInvoker.commit cfg pool id wait
    pure (.result value)
  | .rollback id => do
    let value ← ExecutionInvoker.rollback cfg pool id
    pure (.result value)
  | .search pattern group limit => do
    let found ← FunctionCatalog.search cfg (PooledCaller.call cfg pool) pattern group limit
    pure (.summaries found)
  | .getInterface functionName => do
    let found ← ExecutionInvoker.getInterface cfg pool functionName
    pure (.interface found)
  | .readSource objectType objectName => do
    let text ← readViaRfc cfg pool objectType objectName
    pure (.source text)
  | .expireTransactions => do
    ExecutionInvoker.expireTransactions cfg pool
    pure .done
  | .close => do
    ExecutionInvoker.close pool
    pure .done
  | .closeAll => do
    pool.closeAll
    pure .done

/-- The server over `ConnectionPool`. -/
@[reducible] def server : System Effects := runtime cfg (Request.program cfg (connectionPool cfg))

end Server

/-- A state of a run of the server over `ConnectionPool`, with what has happened so far. -/
abbrev Run (cfg : AppSettings) : Type := (server cfg).Config

section Sample

/-- A pool of one connection and a policy that allows everything. -/
def sampleSettings : AppSettings where
  text := asciiText
  poolSize := 1
  policy := {
    mode := .readWrite
    readAllowPatterns := ["*"]
    writeAllowPatterns := ["*"]
    denyPatterns := [] }

/-- Thread `t` runs `request` and gets these answers. -/
def script (t : ℕ) (request : Request) (answers : List Choice) :
    List (Move (server sampleSettings)) :=
  .start request :: answers.map fun ch => .run t ch

/-- The answers to a write without an ID: a sweep, the discovery of the interface on a connection
of its own, a new transaction on that connection, the write. -/
def writeAnswers : List Choice :=
  [.time 0, .go, .go, .go, .go, .go, .time 0, .go, .go, .go, .liveness fun _ => .alive, .go,
    .opened (.ok ()), .go, .answer (.ok []), .go, .go, .go, .go, .go, .go, .time 0, .go, .go, .go,
    .liveness fun _ => .alive, .go, .token "T", .time 1, .go, .go, .go, .go, .go, .go, .go, .go,
    .go, .go, .answer (.ok []), .go, .time 2, .go, .go]

def sampleWrite (t : ℕ) : List (Move (server sampleSettings)) :=
  script t (.callTransactional "Z_WRITE" [] "write" none) writeAnswers

/-- The answers to a commit of the transaction. -/
def commitAnswers : List Choice :=
  [.go, .time 3, .go, .go, .go, .go, .go, .go, .go, .go, .go, .go, .go, .go, .answer (.ok []), .go,
    .go, .go, .go, .go, .go, .go]

def sampleCommit (t : ℕ) : List (Move (server sampleSettings)) :=
  script t (.commit "T" true) commitAnswers

end Sample

end RfcMcp
