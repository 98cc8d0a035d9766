import RfcMcp.Custody.History
import RfcMcp.Execution.Routine
import RfcMcp.Mcp.Server

namespace RfcMcp

open Framework Framework.Protocol Framework.System

/-- An RFC with what was sent to SAP, and its result unless it is under way. -/
structure RfcAttempt where
  purpose : Purpose
  function : String
  kwargs : PyDict
  result : Option (Except PyExc PyDict)

/-- The RFCs that a client asks for. The others serve the discovery, the expiry and the shutdown. -/
def Purpose.isAsked : Purpose → Bool
  | .read | .write _ | .commit _ | .rollback _ => true
  | .discovery | .expire _ | .shutdown _ => false

def Op.onAttempts : (o : Op) → o.Res → List RfcAttempt → List RfcAttempt
  | .rfcBegin _ p function kwargs, _, attempts => ⟨p, function, kwargs, none⟩ :: attempts
  | .rfcEnd _ _ _, r, attempt :: attempts => { attempt with result := some r } :: attempts
  | _, _, attempts => attempts

/-- The RFCs of thread `t`, the newest first. -/
def attemptsOf {R : Type} (t : ℕ) : History R → List RfcAttempt
  | [] => []
  | .start _ _ :: h => attemptsOf t h
  | .did u o v :: h => if u = t then o.onAttempts v (attemptsOf t h) else attemptsOf t h

/-- Those of them that the client has asked for. -/
def asked (attempts : List RfcAttempt) : List RfcAttempt := attempts.filter (·.purpose.isAsked)

/-- A class is read include by include. -/
def Request.readsClass : Request → Bool
  | .readSource .class_ _ => true
  | _ => false

/-- Nothing that a client asks for is tried twice. -/
@[reducible] def once (request : Request) : Protocol Effects where
  Local := List RfcAttempt
  start := []
  allows := fun o attempts => match o with
    | .rfcBegin _ p _ _ => p.isAsked = true → asked attempts = [] ∨ request.readsClass = true
    | _ => True
  after := fun o v attempts => o.onAttempts v attempts

theorem localOf_once {cfg : AppSettings} (request : Request) (t : ℕ) (h : History Request) :
    localOf (Y := server cfg) (once request) t h = attemptsOf t h := by
  induction h with
  | nil => rfl
  | cons ev h ih =>
    cases ev with
    | start u r => simp only [localOf, attemptsOf, ih]
    | did u o v => simp only [localOf, attemptsOf, ih]

section Rules

variable {α β : Type} {cfg : AppSettings} {request : Request} {done : List RfcAttempt}

/-- Of what the client has asked for, `done` has been tried. -/
abbrev HasAsked (done attempts : List RfcAttempt) : Prop := asked attempts = done

/-- `x` ends with a result and with attempts that fit together. -/
def Yields (request : Request) (x : Act α) (Q : Except PyExc α → List RfcAttempt → Prop)
    (done : List RfcAttempt) : Prop :=
  ∀ attempts, asked attempts = done → (once request).Meets x (fun a g => Q (.ok a) (asked g))
    (fun exc g => Q (.error exc) (asked g)) attempts

variable {Q Q' : Except PyExc α → List RfcAttempt → Prop}

theorem Yields.mono {x : Act α} (h : Yields request x Q done)
    (hQ : ∀ r done, Q r done → Q' r done) :
    Yields request x Q' done :=
  fun attempts hdone => (h attempts hdone).mono (fun _ _ => hQ _ _) fun _ _ => hQ _ _

theorem yields_pure {a : α} (h : Q (.ok a) done) : Yields request (pure a) Q done := by
  rintro attempts rfl
  exact h

theorem yields_raise {exc : PyExc} (h : Q (.error exc) done) :
    Yields request (Action.raise exc) Q done := by
  rintro attempts rfl
  exact h

theorem yields_ofExcept {r : Except PyExc α} (h : Q r done) :
    Yields request (Action.ofExcept r) Q done := by
  cases r with
  | ok a => exact yields_pure h
  | error exc => exact yields_raise h

theorem yields_bind {x : Act α} {f : α → Act β} {Q : Except PyExc α → List RfcAttempt → Prop}
    {Q' : Except PyExc β → List RfcAttempt → Prop} (hx : Yields request x Q done)
    (hok : ∀ a done, Q (.ok a) done → Yields request (f a) Q' done)
    (herr : ∀ exc done, Q (.error exc) done → Q' (.error exc) done) :
    Yields request (x >>= f) Q' done := by
  intro attempts hdone
  rw [meets_bind]
  refine (hx attempts hdone).mono (fun a g hQ => ?_) fun exc g hQ => herr _ _ hQ
  exact hok a _ hQ g rfl

theorem yields_tryExcept {x : Act α} {handler : PyExc → Act α} (hx : Yields request x Q done)
    (hok : ∀ a done, Q (.ok a) done → Q' (.ok a) done)
    (herr : ∀ exc done, Q (.error exc) done → Yields request (handler exc) Q' done) :
    Yields request (x.tryExcept handler) Q' done := by
  intro attempts hdone
  rw [meets_tryExcept]
  refine (hx attempts hdone).mono (fun a g hQ => hok _ _ hQ) fun exc g hQ => ?_
  exact herr exc _ hQ g rfl

/-- What comes first does not try anything. -/
theorem yields_after {x : Act α} {f : α → Act β} {Q : Except PyExc β → List RfcAttempt → Prop}
    (hx : (once request).Keeps (HasAsked done) x) (hok : ∀ a, Yields request (f a) Q done)
    (herr : ∀ exc, Q (.error exc) done) : Yields request (x >>= f) Q done := by
  intro attempts hdone
  rw [meets_bind]
  refine (hx.meets attempts hdone).mono (fun a g hg => hok a g hg) fun exc g hg => ?_
  rw [hg]
  exact herr exc

theorem yields_ofExcept_bind {r : Except PyExc α} {f : α → Act β}
    {Q : Except PyExc β → List RfcAttempt → Prop}
    (hok : ∀ a, r = .ok a → Yields request (f a) Q done)
    (herr : ∀ exc, r = .error exc → Q (.error exc) done) :
    Yields request (Action.ofExcept r >>= f) Q done := by
  cases r with
  | ok a => exact hok a rfl
  | error exc => exact yields_raise (herr exc rfl)

theorem yields_ite {p : Prop} [Decidable p] {x y : Act α} (hx : p → Yields request x Q done)
    (hy : ¬p → Yields request y Q done) : Yields request (if p then x else y) Q done := by
  split
  · exact hx ‹_›
  · exact hy ‹_›

theorem once_perform {o : Op} {ok : o.Res → List RfcAttempt → Prop}
    {err : PyExc → List RfcAttempt → Prop} {attempts : List RfcAttempt}
    (ho : (once request).allows o attempts) (hok : ∀ v, ok v (o.onAttempts v attempts)) :
    (once request).Meets (perform o) ok err attempts :=
  ⟨ho, hok⟩

theorem once_step {o : Op} {ok : o.Res → List RfcAttempt → Prop}
    {err : PyExc → List RfcAttempt → Prop}
    {attempts : List RfcAttempt} (ho : o.isRfc = false) (hok : ∀ v, ok v attempts) :
    (once request).Meets (perform o) ok err attempts := by
  cases o <;> first | exact ⟨trivial, hok⟩ | cases ho

theorem once_op {o : Op} (ho : o.isRfc = false) :
    (once request).Keeps (HasAsked done) (perform o) :=
  ⟨fun _ hdone => once_step ho fun _ => hdone⟩

theorem once_withLock {l : LockId} {x : Act α} (hx : (once request).Keeps (HasAsked done) x) :
    (once request).Keeps (HasAsked done) (withLock l x) :=
  keeps_bind (once_op rfl) fun _ => keeps_tryFinally hx (once_op rfl)

theorem yields_withLock {l : LockId} {x : Act α} (hx : Yields request x Q done) :
    Yields request (withLock l x) Q done := by
  intro attempts hdone
  unfold withLock
  rw [meets_bind]
  refine once_step rfl fun _ => ?_
  rw [meets_tryFinally]
  exact (hx attempts hdone).mono (fun a g hQ => once_step rfl fun _ => hQ)
    fun exc g hQ => once_step rfl fun _ => hQ

end Rules

end RfcMcp
