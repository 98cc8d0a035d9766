import RfcMcp.Runtime.Does

namespace RfcMcp

open Framework

/-- What a thread has from the pool, between its `checkout` and the end of `release`. -/
inductive Holding
  | nothing
  | permit
  | opening
  | borrowed (conn : Conn) (used : Bool)
  | returning (conn : Conn)
deriving DecidableEq

/-- Where a thread stands with the transaction it works on. -/
inductive Stage
  | idle
  | locked (ref : Nat)
  | current (e : Entry)
  | writing (e : Entry)
  | wrote (e : Entry) (raw : PyDict)
  | failed (e : Entry)
  | accepted (e : Entry) (value : PyValue)
  | written (e : Entry) (value : PyValue)
  | ended (e : Entry)
  | refused (id : TxId)
  | doomed (id : TxId)

/-- The connections, permits, locks and transactions in the hands of one thread. `removed` are the
table entries it took out and has not passed to `release` yet; `released`, `controlled` and
`started` record what it did: connections passed on for a transaction, COMMITs and ROLLBACKs, and
writes. `found` is the transaction that it looked up or registered last. -/
structure Custody where
  locks : List LockId := []
  holding : Holding := .nothing
  closing : List Conn := []
  removed : List Entry := []
  uncontrolled : List Entry := []
  released : List Entry := []
  controlled : List Purpose := []
  started : List Entry := []
  token : Option TxId := none
  fresh : Option ActiveTransaction := none
  found : Option Entry := none
  busy : Option (Conn × Purpose) := none
  stage : Stage := .idle

/-- The transaction that an RFC is issued for. -/
@[simp] def Purpose.entry : Purpose → Option Entry
  | .read => none
  | .discovery => none
  | .write e => some e
  | .commit e => some e
  | .rollback e => some e
  | .expire e => some e
  | .shutdown e => some e

/-- The COMMIT or ROLLBACK of a transaction. -/
@[simp] def Purpose.controls : Purpose → Option Entry
  | .commit e => some e
  | .rollback e => some e
  | .expire e => some e
  | .shutdown e => some e
  | _ => none

namespace Stage

/-- The transaction whose connection the thread may be using. -/
@[simp] def live : Stage → Option Entry
  | .current e => some e
  | .writing e => some e
  | .wrote e _ => some e
  | .failed e => some e
  | _ => none

/-- The only thing left to do is to let go of the locks. -/
@[simp] def isOver : Stage → Bool
  | .accepted _ _ => true
  | .written _ _ => true
  | .refused _ => true
  | .doomed _ => true
  | _ => false

/-- Nothing is left to do at all. -/
@[simp] def returned : Stage → Bool
  | .written _ _ => true
  | _ => false

theorem returned_of_isOver {stage : Stage} (h : stage.isOver = false) : stage.returned = false := by
  cases stage with
  | written e value => cases h
  | _ => rfl

/-- Whether the lock of a transaction may be let go of, and what follows. -/
@[simp] def afterUnlock : Stage → Option Stage
  | .idle => some .idle
  | .ended _ => some .idle
  | .accepted e value => some (.written e value)
  | .refused id => some (.doomed id)
  | _ => none

/-- A transaction's lock is held from here until it is let go of. -/
@[simp] def guarded : Stage → Option Nat
  | .locked ref => some ref
  | .current e => some e.2.ref
  | .writing e => some e.2.ref
  | .wrote e _ => some e.2.ref
  | .failed e => some e.2.ref
  | .accepted e _ => some e.2.ref
  | .ended e => some e.2.ref
  | _ => none

end Stage

@[simp] def LockId.isActive : LockId → Bool
  | .active _ => true
  | _ => false

namespace Custody

/-- May thread `g` use connection `conn` of `e`, which it took out of the table itself? -/
def MayControl (g : Custody) (conn : Conn) (e : Entry) : Prop :=
  conn = e.2.connection ∧ e ∈ g.removed ∧ e ∈ g.uncontrolled ∧ .active e.2.ref ∈ g.locks

def MayCall (g : Custody) (conn : Conn) : Purpose → Prop
  | .read => ∃ used, g.holding = .borrowed conn used
  | .discovery => ∃ used, g.holding = .borrowed conn used
  | .write e => conn = e.2.connection ∧ g.stage = .current e
  | .commit e => g.MayControl conn e ∧ g.stage = .ended e
  | .rollback e => g.MayControl conn e ∧ g.stage = .ended e
  | .expire e => g.MayControl conn e ∧ g.stage = .idle
  | .shutdown e => g.MayControl conn e ∧ g.stage = .idle

def MayUnlock (g : Custody) (l : LockId) : Prop :=
  l ∈ g.locks ∧ (l.isActive = true → g.busy = none ∧ g.stage.afterUnlock ≠ none)

/-- A thread takes at most one transaction's lock, and before any other; under a lock other than a
transaction's it takes none, and it waits for a permit without any. -/
def MayLock (g : Custody) (l : LockId) : Prop :=
  if l.isActive then g.locks = [] ∧ g.holding = .nothing ∧ g.stage = .idle
  else ∀ l' ∈ g.locks, l'.isActive = true

variable (limits : ResultLimitPolicy)

/-- `_remove_if_current` under the transaction's lock: to end the transaction, or to give it up
after a failed write. -/
def MayRemove (g : Custody) (e : Entry) : Prop :=
  .active e.2.ref ∈ g.locks ∧
    ((g.stage = .locked e.2.ref ∧ g.found = some e) ∨ (∃ raw, g.stage = .wrote e raw) ∨
      g.stage = .failed e)

def MayAccept (g : Custody) (a : ActiveTransaction) : Prop :=
  ∃ e raw value, g.stage = .wrote e raw ∧ e.2 = a ∧ limits.apply (.dict raw) = .ok value

def MayRelease (g : Custody) (conn : Conn) : Option Entry → Prop
  | none => ∃ used, g.holding = .borrowed conn used
  | some e => g.holding = .nothing ∧ conn = e.2.connection ∧ e ∈ g.removed ∧
      .active e.2.ref ∈ g.locks ∧ (g.stage = .idle ∨ g.stage = .ended e)

def MayPerform (g : Custody) : Op → Prop
  | .acquire l => g.stage.isOver = false ∧ g.MayLock l
  | .tryAcquire l => g.stage.isOver = false ∧ l.isActive = true ∧ g.MayLock l
  | .release l => g.MayUnlock l
  | .semAcquire => g.stage = .idle ∧ g.locks = [] ∧ g.holding = .nothing
  | .semRelease => g.holding = .permit ∨ g.holding = .opening
  | .scanIdle => g.holding = .permit
  | .appendIdle conn => g.holding = .returning conn
  | .swapIdle => g.stage = .idle ∧ g.closing = []
  | .openConnection => g.holding = .opening
  | .closeConnection conn => g.holding = .returning conn ∨ conn ∈ g.closing
  | .demoConnection => False
  | .rfcBegin conn p _ _ => g.busy = none ∧ g.MayCall conn p
  | .rfcEnd conn _ _ => ∃ p, g.busy = some (conn, p)
  | .poolRelease conn _ luw => g.busy = none ∧ g.MayRelease conn luw
  | .newTransaction conn _ => g.fresh = none ∧ g.holding = .borrowed conn false
  | .tokenUrlsafe => g.stage = .idle ∧ g.token = none
  | .lookup _ => g.stage = .idle
  | .register id a =>
    g.token = some id ∧ g.fresh = some a ∧ g.holding = .borrowed a.connection false
  | .isCurrent id a => g.stage = .locked a.ref ∧ g.found = some (id, a)
  | .removeIfCurrent id a => g.MayRemove (id, a)
  | .removeIfExpired _ a _ => g.stage = .idle ∧ .active a.ref ∈ g.locks
  | .drain => g.stage = .idle ∧ g.removed = []
  | .setLastUsed a _ => g.MayAccept limits a
  | _ => g.stage.isOver = false

/-- What a thread may do next. -/
def allows (g : Custody) (o : Op) : Prop := g.stage.returned = false ∧ g.MayPerform limits o

/-- An entry comes out of the table. -/
def remove (g : Custody) (e : Entry) : Custody :=
  { g with removed := e :: g.removed, uncontrolled := e :: g.uncontrolled }

def afterBegin (g : Custody) (conn : Conn) (p : Purpose) : Custody :=
  let g := { g with busy := some (conn, p) }
  match p with
  | .write e => { g with stage := .writing e, started := e :: g.started }
  | .commit e | .rollback e | .expire e | .shutdown e =>
    { g with uncontrolled := g.uncontrolled.erase e, controlled := p :: g.controlled }
  | _ => { g with holding := .borrowed conn true }

def afterEnd (g : Custody) (r : Except PyExc PyDict) : Custody :=
  { g with
    busy := none
    stage := match g.stage, r with
      | .writing e, .ok raw => .wrote e raw
      | .writing e, .error _ => .failed e
      | stage, _ => stage }

/-- The outcome of `_remove_if_current`: in stage `locked` the thread came to end the
transaction. -/
def afterRemove (g : Custody) (e : Entry) (removed : Bool) : Custody :=
  let g' := if removed then g.remove e else g
  match g.stage with
  | .locked _ => { g' with stage := if removed then .ended e else .refused e.1 }
  | _ => { g' with stage := .idle }

def afterAccept (g : Custody) : Custody :=
  { g with stage := match g.stage with
      | .wrote e raw => match limits.apply (.dict raw) with
        | .ok value => .accepted e value
        | .error _ => .wrote e raw
      | stage => stage }

/-- The blocking wait for a transaction's lock, unless the thread has taken it out of the table. -/
def afterLock (g : Custody) (l : LockId) : Custody :=
  { g with
    locks := l :: g.locks
    stage := match l with
      | .active ref => if g.removed.any (·.2.ref == ref) then g.stage else .locked ref
      | _ => g.stage }

def afterUnlock (g : Custody) (l : LockId) : Custody :=
  { g with
    locks := g.locks.erase l
    stage := if l.isActive then g.stage.afterUnlock.getD g.stage else g.stage }

def afterRelease (g : Custody) (conn : Conn) : Option Entry → Custody
  | none => { g with holding := .returning conn }
  | some e => { g with
      holding := .returning conn
      removed := g.removed.erase e
      released := e :: g.released }

def after (g : Custody) : (o : Op) → o.Res → Custody
  | .acquire l, _ => g.afterLock l
  | .tryAcquire l, true => { g with locks := l :: g.locks }
  | .release l, _ => g.afterUnlock l
  | .semAcquire, true => { g with holding := .permit }
  | .semRelease, _ => { g with holding := .nothing }
  | .scanIdle, some conn => { g with holding := .borrowed conn false }
  | .scanIdle, none => { g with holding := .opening }
  | .appendIdle _, _ => { g with holding := .permit }
  | .swapIdle, idle => { g with closing := idle }
  | .openConnection, .ok conn => { g with holding := .borrowed conn false }
  | .closeConnection conn, _ =>
    if g.holding = .returning conn then { g with holding := .permit }
    else { g with closing := g.closing.erase conn }
  | .rfcBegin conn p _ _, _ => g.afterBegin conn p
  | .rfcEnd _ _ _, r => g.afterEnd r
  | .poolRelease conn _ luw, _ => g.afterRelease conn luw
  | .newTransaction conn _, ref => { g with fresh := some ⟨ref, conn⟩ }
  | .tokenUrlsafe, id => { g with token := some id }
  | .lookup id, none => { g with stage := .doomed id }
  | .lookup id, some a => { g with found := some (id, a) }
  | .register id a, _ =>
    { g with token := none, fresh := none, found := some (id, a), holding := .nothing }
  | .isCurrent id a, found => { g with stage := if found then .current (id, a) else .refused id }
  | .removeIfCurrent id a, found => g.afterRemove (id, a) found
  | .removeIfExpired id a _, true => g.remove (id, a)
  | .drain, pending => { g with removed := pending, uncontrolled := pending }
  | .setLastUsed _ _, _ => g.afterAccept limits
  | _, _ => g

theorem afterBegin_busy (g : Custody) (conn : Conn) (p : Purpose) :
    (g.afterBegin conn p).busy = some (conn, p) := by
  cases p <;> rfl

end Custody

/-- The custody discipline of the server's threads. -/
@[reducible] def custody (limits : ResultLimitPolicy) : Protocol Effects where
  Local := Custody
  start := {}
  allows := fun o g => g.allows limits o
  after := fun o v g => g.after limits o v

end RfcMcp
