import RfcMcp.Framework.Environment
import RfcMcp.Mcp.Server

namespace RfcMcp

open Framework Framework.Action

/-- The world around a pool that one thread uses alone: how connections answer when they are tested,
and what the attempts to open one come to, the first one first. -/
structure World where
  liveness : Conn → Liveness
  opening : ℕ → Except PyExc Unit

def opens : Op → Bool
  | .openConnection => true
  | _ => false

/-- The number of attempts to open a connection. -/
def attempts (done : Trace Effects) : ℕ := done.countP fun did => opens did.1

namespace World

variable (w : World)

def live (conn : Conn) : Bool := isAlive (w.liveness conn)

/-- The world after `n` attempts to open a connection. -/
def later (n : ℕ) : World := { w with opening := fun k => w.opening (k + n) }

def choice (done : Trace Effects) : Op → Shared → Choice
  | .semAcquire, s => if 0 < s.permits then .go else .timeout
  | .scanIdle, _ => .liveness w.liveness
  | .openConnection, _ => .opened (w.opening (attempts done))
  | _, _ => .go

end World

section Evaluation

variable (cfg : AppSettings) (w : World)

/-- A piece of the server in the world `w`. -/
abbrev inWorld (t : ℕ) {α : Type} (x : Act α) (done : Trace Effects) (s : Shared) :
    Option (Except PyExc α × Trace Effects × Shared) :=
  evaluate (Y := server cfg) w.choice t x done s

variable {cfg w} {t : ℕ} {done : Trace Effects} {s s' : Shared}

theorem attempts_cons {did : (o : Op) × o.Res} (h : opens did.1 = false) :
    attempts (did :: done) = attempts done := by
  simp [attempts, h]

theorem attempts_open {r : Except PyExc Conn} :
    attempts (⟨.openConnection, r⟩ :: done) = attempts done + 1 := by
  simp [attempts, opens]

theorem holder_back {l : LockId} (h : s.holder l = none) :
    Function.update (Function.update s.holder l (some t)) l none = s.holder := by
  rw [Function.update_idem, ← h]
  exact Function.update_eq_self l s.holder

theorem inWorld_perform {o : Op} {v : o.Res}
    (h : Shared.perform cfg t o (w.choice done o s) s = some (v, s')) :
    inWorld cfg w t (perform o) done s = some (.ok v, ⟨o, v⟩ :: done, s') :=
  evaluate_perform h

theorem inWorld_next {α : Type} {o : Op} {v : o.Res} {f : o.Res → Act α}
    (h : Shared.perform cfg t o (w.choice done o s) s = some (v, s')) :
    inWorld cfg w t (perform o >>= f) done s = inWorld cfg w t (f v) (⟨o, v⟩ :: done) s' :=
  evaluate_bind_ok (inWorld_perform h)

/-- A section behind a free lock is its operation. -/
theorem inWorld_section {l : LockId} {o : Op} {v : o.Res} (hfree : s.holder l = none)
    (h : Shared.perform cfg t o (w.choice (⟨.acquire l, ()⟩ :: done) o
        { s with holder := Function.update s.holder l (some t) })
        { s with holder := Function.update s.holder l (some t) } =
      some (v, { s' with holder := Function.update s.holder l (some t) }))
    (hsame : s'.holder = s.holder) :
    inWorld cfg w t (withLock l (perform o)) done s =
      some (.ok v, ⟨.release l, ()⟩ :: ⟨o, v⟩ :: ⟨.acquire l, ()⟩ :: done, s') := by
  have hacquire : Shared.perform cfg t (.acquire l) .go s =
      some ((), { s with holder := Function.update s.holder l (some t) }) := if_pos hfree
  have hrelease : Shared.perform cfg t (.release l) .go
      { s' with holder := Function.update s.holder l (some t) } = some ((), s') := by
    simp only [Shared.perform]
    rw [holder_back hfree, ← hsame]
  unfold withLock
  refine (inWorld_next hacquire).trans ?_
  exact evaluate_tryFinally (inWorld_perform h) (inWorld_perform hrelease)

end Evaluation

end RfcMcp
