import RfcMcp.Execution.Routine
import RfcMcp.Mcp.Server

namespace RfcMcp

open Framework Framework.Protocol

/-- What a thread remembers of failures: a connection whose RFC has raised, until it is released,
and the connection that was released for further use. -/
structure Wear where
  spoiled : Option Conn := none
  accepted : Option Conn := none

def Wear.Clean (g : Wear) : Prop := g.spoiled = none

def Wear.after (g : Wear) : (o : Op) → o.Res → Wear
  | .rfcEnd conn _ _, .error _ => { g with spoiled := some conn }
  | .poolRelease conn reusable _, _ =>
    { spoiled := none, accepted := if reusable then some conn else none }
  | _, _ => g

/-- After an RFC has raised, a thread begins no other before it has released the connection, and it
does not release it for further use. -/
@[reducible] def wear : Protocol Effects where
  Local := Wear
  start := {}
  allows := fun o g => match o with
    | .rfcBegin _ _ _ _ => g.Clean
    | .poolRelease conn reusable _ => g.Clean ∨ g.spoiled = some conn ∧ reusable = false
    | .appendIdle conn => g.accepted = some conn
    | _ => True
  after := fun o v g => g.after o v

/-- Operations that the discipline is not about. -/
def Op.wearsNothing : Op → Bool
  | .rfcBegin _ _ _ _ => false
  | .rfcEnd _ _ _ => false
  | .poolRelease _ _ _ => false
  | .appendIdle _ => false
  | _ => true

section Rules

variable {α : Type} {g : Wear} {cfg : AppSettings} {conn : Conn}

theorem wear_after {o : Op} (ho : o.wearsNothing = true) (v : o.Res) (g : Wear) :
    g.after o v = g := by
  cases o <;> first | rfl | cases ho

theorem wear_step {o : Op} {ok : o.Res → Wear → Prop} {err : PyExc → Wear → Prop}
    (ho : wear.allows o g) (hok : ∀ r, ok r (g.after o r)) : wear.Meets (perform o) ok err g :=
  ⟨ho, hok⟩

theorem wear_op {o : Op} {ok : o.Res → Wear → Prop} {err : PyExc → Wear → Prop}
    (ho : o.wearsNothing = true) (hok : ∀ r, ok r g) : wear.Meets (perform o) ok err g := by
  have hallowed : wear.allows o g := by
    cases o <;> first | exact trivial | cases ho
  refine wear_step hallowed fun r => ?_
  rw [wear_after ho r g]
  exact hok r

theorem wear_log {record : LogRecord} {ok : Unit → Wear → Prop} {err : PyExc → Wear → Prop}
    (hok : ok () g) : wear.Meets (log record) ok err g :=
  wear_op (o := .log record) rfl fun _ => hok

theorem wear_withLock {l : LockId} {x : Act α} {ok : α → Wear → Prop} {err : PyExc → Wear → Prop}
    (hx : wear.Meets x ok err g) : wear.Meets (withLock l x) ok err g := by
  unfold withLock
  rw [meets_bind]
  refine wear_op rfl fun _ => ?_
  rw [meets_tryFinally]
  exact Meets.mono hx (fun _ _ h => wear_op rfl fun _ => h) fun _ _ h => wear_op rfl fun _ => h

theorem keeps_op {o : Op} (ho : o.wearsNothing = true) : wear.Keeps Wear.Clean (perform o) :=
  ⟨fun _ hg => wear_op ho fun _ => hg⟩

theorem keeps_withLock {l : LockId} {x : Act α} (hx : wear.Keeps Wear.Clean x) :
    wear.Keeps Wear.Clean (withLock l x) :=
  ⟨fun g hg => wear_withLock (hx.meets g hg)⟩

/-- A connection whose RFC has raised is released for good. -/
theorem wear_release {reusable : Bool} {luw : Option Entry}
    (hg : g.Clean ∨ g.spoiled = some conn ∧ reusable = false) :
    wear.Meets (ConnectionPool.release conn reusable luw) (fun _ => Wear.Clean)
      (fun _ => Wear.Clean) g := by
  have hfinal : ∀ g' : Wear, g'.Clean → wear.Meets (perform .semRelease) (fun _ => Wear.Clean)
      (fun _ : PyExc => Wear.Clean) g' := fun g' hg' => wear_op rfl fun _ => hg'
  unfold ConnectionPool.release
  rw [meets_bind]
  refine wear_step hg fun _ => ?_
  rw [meets_tryFinally]
  cases reusable with
  | false =>
    rw [if_neg (by simp)]
    exact wear_op rfl fun _ => hfinal _ rfl
  | true =>
    rw [if_pos rfl]
    exact wear_withLock (wear_step rfl fun _ => hfinal _ rfl)

theorem wear_call {p : Purpose} {f : String} {kwargs : PyDict} (hg : g.Clean) :
    wear.Meets (conn.call p f kwargs) (fun _ => Wear.Clean) (fun _ g' => g'.spoiled = some conn)
      g := by
  unfold Conn.call
  rw [meets_bind]
  refine wear_step hg fun _ => ?_
  rw [meets_bind]
  refine wear_step trivial fun r => ?_
  rw [meets_ofExcept]
  cases r with
  | ok result => exact ⟨fun _ _ => hg, nofun⟩
  | error exc => exact ⟨nofun, fun _ _ => rfl⟩

theorem keeps_checkout : wear.Keeps Wear.Clean (ConnectionPool.checkout cfg) := by
  have hcreate : wear.Keeps Wear.Clean (ConnectionPool.createConnection cfg) := by
    refine keeps_ite (keeps_bind (keeps_ofExcept _) fun _ => ?_) (keeps_raise _)
    refine keeps_bind (keeps_op rfl) fun opened => ?_
    cases opened with
    | ok conn => exact keeps_pure conn
    | error exc => exact keeps_raise _
  have hopen : ∀ retries attempt,
      wear.Keeps Wear.Clean (ConnectionPool.openAttempts cfg attempt retries) := by
    intro retries
    induction retries with
    | zero => exact fun _ => hcreate
    | succ retries ih =>
      intro attempt
      refine keeps_tryExcept hcreate fun exc => ?_
      exact keeps_ite (keeps_bind (keeps_op rfl) fun _ => ih _) (keeps_raise exc)
  refine keeps_bind (keeps_op rfl) fun acquired => ?_
  refine keeps_ite (keeps_tryExcept ?_ fun exc => ?_) (keeps_raise _)
  · refine keeps_bind (keeps_withLock (keeps_op rfl)) fun candidate => ?_
    cases candidate with
    | some conn => exact keeps_pure conn
    | none => exact hopen _ _
  · exact keeps_bind (keeps_op rfl) fun _ => keeps_raise exc

/-- `acquire` releases the connection for good when its body raises. -/
theorem keeps_acquire {body : Conn → Act α}
    (hbody : ∀ conn (g : Wear), g.Clean → wear.Meets (body conn) (fun _ => Wear.Clean)
      (fun _ g' => g'.spoiled = some conn) g) :
    wear.Keeps Wear.Clean (ConnectionPool.acquire cfg body) := by
  refine keeps_bind keeps_checkout fun conn => ⟨fun g hg => ?_⟩
  rw [meets_bind, meets_tryExcept]
  refine Meets.mono (hbody conn g hg) (fun a g' hg' => ?_) fun exc g' hg' => ?_
  · rw [meets_bind]
    exact wear_release (.inl hg')
  · rw [meets_bind]
    exact wear_release (.inr ⟨hg', rfl⟩)

theorem wear_callOnConnection {p : Purpose} {f mode : String} {kwargs : PyDict}
    {id : Option TxId} (hg : g.Clean) :
    wear.Meets (ExecutionInvoker.callOnConnection cfg conn p f kwargs mode id)
      (fun _ => Wear.Clean) (fun _ g' => g'.spoiled = some conn) g := by
  unfold ExecutionInvoker.callOnConnection
  rw [meets_bind, meets_tryExcept]
  refine Meets.mono (wear_call hg) (fun a g' hg' => ?_) fun exc g' hg' => ?_
  · rw [meets_bind]
    exact wear_log hg'
  · rw [meets_bind]
    exact wear_log hg'

theorem wear_routine (cfg : AppSettings) : Routine cfg wear Wear.Clean where
  cacheGet _ _ := keeps_withLock (keeps_op rfl)
  cacheSet _ _ _ := keeps_withLock (keeps_op rfl)
  log _ _ := keeps_op rfl
  note _ _ := keeps_op rfl
  pooledCall f params := keeps_acquire fun conn g hg => by
    rw [meets_tryExcept]
    exact wear_call hg
  read f kwargs mode := keeps_acquire fun conn g hg => wear_callOnConnection hg

end Rules

end RfcMcp
