import Mathlib.Logic.Function.Basic
import RfcMcp.Config
import RfcMcp.Execution.ResultTransform
import RfcMcp.Framework.System
import RfcMcp.Runtime.Effects

namespace RfcMcp

open Framework

/-- The settings of `AppSettings` and `SAPConnectionSettings` that the running server reads, with
the text tables of the interpreter. `backend` is what answers RFCs: anything, or one function;
`pyrfcKwargs` is what `to_pyrfc_kwargs` comes to. -/
structure AppSettings where
  text : PyText
  pyrfcInstalled : Bool := true
  pyrfcKwargs : Except PyExc PyDict := .ok []
  poolSize : Nat := 4
  poolSize_pos : 0 < poolSize := by decide
  poolAcquireTimeoutSeconds : String := "30"
  maxRetries : Nat := 3
  discoveryCacheTtl : Time := 300
  discoveryCacheTtl_pos : 0 < discoveryCacheTtl := by decide
  structureResolutionMaxDepth : Nat := 8
  transactionTtl : Time := 300
  transactionTtl_pos : 0 < transactionTtl := by decide
  policy : PolicySettings := {}
  limits : ResultLimitPolicy := {}
  backend : Option (String → PyDict → Except PyExc PyDict) := none

/-- How a connection answers `conn.alive` and `conn.ping()`. -/
inductive Liveness
  | alive
  | dead
  | pingFails
deriving DecidableEq, Repr

/-- `_is_alive`. -/
def isAlive : Liveness → Bool
  | .alive => true
  | .dead => false
  | .pingFails => false

/-- The loop of `checkout` over the idle connections, the last appended one first: the live
candidate, what stays idle, and the candidates closed on the way. -/
def scan (liveness : Conn → Liveness) : List Conn → Option Conn × List Conn × List Conn
  | [] => (none, [], [])
  | candidate :: idle =>
    if isAlive (liveness candidate) then (some candidate, idle, [])
    else
      let (found, rest, closed) := scan liveness idle
      (found, rest, candidate :: closed)

/-- `TTLCache._store`. -/
abbrev CacheStore (α : Type) := List (String × Time × α)

/-- The body of `TTLCache.get`. -/
def CacheStore.get {α : Type} (store : CacheStore α) (now : Time) (key : String) :
    Option α × CacheStore α :=
  match store.lookup key with
  | none => (none, store)
  | some (expiresAt, value) =>
    if expiresAt < now then (none, PyDict.erase store key) else (some value, store)

/-- The body of `TTLCache.set`. -/
def CacheStore.set {α : Type} (store : CacheStore α) (now ttl : Time) (key : String) (value : α) :
    CacheStore α :=
  PyDict.set store key (now + ttl, value)

/-- Everything the requests share. `idle` has the last appended connection first; `lastUsed` is
indexed by transaction objects; `closed` lists the connections the pool has closed. -/
structure Shared where
  permits : Nat
  idle : List Conn
  nextConn : Conn
  closed : List Conn
  holder : LockId → Option Nat
  table : List Entry
  lastUsed : Nat → Time
  nextRef : Nat
  tokens : List TxId
  clock : Time
  cache : (id : CacheId) → CacheStore id.Value

/-- What the environment decides when an operation is performed. -/
inductive Choice
  | go
  | timeout
  | liveness (f : Conn → Liveness)
  | opened (r : Except PyExc Unit)
  | answer (r : Except PyExc PyDict)
  | time (now : Time)
  | token (id : TxId)

/-- Where the transaction registered under `id` is. -/
def Shared.active (s : Shared) (id : TxId) : Option ActiveTransaction := s.table.lookup id

section Perform

variable (cfg : AppSettings)

def Shared.initial : Shared where
  permits := cfg.poolSize
  idle := []
  nextConn := 0
  closed := []
  holder := fun _ => none
  table := []
  lastUsed := fun _ => 0
  nextRef := 0
  tokens := []
  clock := 0
  cache := fun _ => []

/-- `o` performed by thread `t`. A wait that cannot end yet has no outcome. -/
def Shared.perform (t : Nat) : (o : Op) → Choice → Shared → Option (o.Res × Shared)
  | .acquire l, .go, s =>
    if s.holder l = none then some ((), { s with holder := Function.update s.holder l (some t) })
    else none
  | .tryAcquire l, .go, s =>
    if s.holder l = none then some (true, { s with holder := Function.update s.holder l (some t) })
    else some (false, s)
  | .release l, .go, s => some ((), { s with holder := Function.update s.holder l none })
  | .semAcquire, .go, s =>
    if 0 < s.permits then some (true, { s with permits := s.permits - 1 }) else none
  | .semAcquire, .timeout, s => if s.permits = 0 then some (false, s) else none
  | .semRelease, .go, s => some ((), { s with permits := s.permits + 1 })
  | .scanIdle, .liveness f, s =>
    let (found, rest, closed) := scan f s.idle
    some (found, { s with idle := rest, closed := closed ++ s.closed })
  | .appendIdle conn, .go, s => some ((), { s with idle := conn :: s.idle })
  | .swapIdle, .go, s => some (s.idle.reverse, { s with idle := [] })
  | .openConnection, .opened (.ok _), s =>
    some (.ok s.nextConn, { s with nextConn := s.nextConn + 1 })
  | .openConnection, .opened (.error e), s => some (.error e, s)
  | .sleep _, .go, s => some ((), s)
  | .closeConnection conn, .go, s => some ((), { s with closed := conn :: s.closed })
  | .demoConnection, .go, s => some (s.nextConn, { s with nextConn := s.nextConn + 1 })
  | .rfcBegin _ _ _ _, .go, s => some ((), s)
  | .rfcEnd _ function kwargs, .answer r, s =>
    match cfg.backend with
    | none => some (r, s)
    | some answer => some (answer function kwargs, s)
  | .poolRelease _ _ _, .go, s => some ((), s)
  | .newTransaction _ lastUsed, .go, s =>
    some (s.nextRef, { s with
      nextRef := s.nextRef + 1
      lastUsed := Function.update s.lastUsed s.nextRef lastUsed })
  | .tokenUrlsafe, .token id, s =>
    if id ∈ s.tokens then none else some (id, { s with tokens := id :: s.tokens })
  | .lookup id, .go, s => some (s.active id, s)
  | .register id a, .go, s => some ((), { s with table := PyDict.set s.table id a })
  | .isCurrent id a, .go, s => some (s.active id = some a, s)
  | .removeIfCurrent id a, .go, s =>
    if s.active id = some a then some (true, { s with table := PyDict.erase s.table id })
    else some (false, s)
  | .removeIfExpired id a cutoff, .go, s =>
    if s.active id ≠ some a ∨ cutoff ≤ s.lastUsed a.ref then some (false, s)
    else some (true, { s with table := PyDict.erase s.table id })
  | .snapshot, .go, s => some (s.table, s)
  | .drain, .go, s => some (s.table, { s with table := [] })
  | .readLastUsed a, .go, s => some (s.lastUsed a.ref, s)
  | .setLastUsed a now, .go, s =>
    some ((), { s with lastUsed := Function.update s.lastUsed a.ref now })
  | .monotonic, .time now, s =>
    if s.clock ≤ now then some (now, { s with clock := now }) else none
  | .cacheGet id key, .time now, s =>
    if s.clock ≤ now then
      let (found, store) := (s.cache id).get now key
      some (found, { s with clock := now, cache := Function.update s.cache id store })
    else none
  | .cacheSet id key value, .time now, s =>
    if s.clock ≤ now then
      some ((), { s with
        clock := now
        cache := Function.update s.cache id
          ((s.cache id).set now cfg.discoveryCacheTtl key value) })
    else none
  | .log _, .go, s => some ((), s)
  | _, _, _ => none

/-- The runtime under any set of requests, each with its program. -/
@[reducible] def runtime {Request Reply : Type} (program : Request → Program Effects Reply) :
    System Effects where
  Shared := Shared
  Choice := Choice
  Request := Request
  Reply := Reply
  init := Shared.initial cfg
  perform := fun t o => Shared.perform cfg t o
  program := program

end Perform

end RfcMcp
