import RfcMcp.Custody.Rules
import RfcMcp.Sap.Connection

namespace RfcMcp

open Framework Framework.Protocol

section Pool

variable {limits : ResultLimitPolicy} {α : Type} {g : Custody} {err : PyExc → Custody → Prop}

theorem meets_createConnection (cfg : AppSettings) {ok : Conn → Custody → Prop}
    (hstage : g.stage = .idle) (hholding : g.holding = .opening)
    (hok : ∀ conn, ok conn { g with holding := .borrowed conn false }) (herr : ∀ e, err e g) :
    (custody limits).Meets (ConnectionPool.createConnection cfg) ok err g := by
  unfold ConnectionPool.createConnection
  split
  · rw [meets_bind, meets_ofExcept]
    cases cfg.pyrfcKwargs with
    | error exc => exact ⟨nofun, fun _ _ => herr _⟩
    | ok kwargs =>
      refine ⟨fun _ _ => ?_, nofun⟩
      rw [meets_bind]
      refine meets_op ⟨by rw [hstage]; rfl, hholding⟩ ?_
      rintro (e | conn)
      · exact herr _
      · exact hok conn
  · exact herr _

theorem meets_openAttempts (cfg : AppSettings) {ok : Conn → Custody → Prop}
    (hstage : g.stage = .idle) (hholding : g.holding = .opening)
    (hok : ∀ conn, ok conn { g with holding := .borrowed conn false }) (herr : ∀ e, err e g)
    (retries attempt : Nat) :
    (custody limits).Meets (ConnectionPool.openAttempts cfg attempt retries) ok err g := by
  induction retries generalizing attempt with
  | zero => exact meets_createConnection cfg hstage hholding hok herr
  | succ retries ih =>
    unfold ConnectionPool.openAttempts
    rw [meets_tryExcept]
    refine meets_createConnection cfg hstage hholding hok fun e => ?_
    split
    · rw [meets_bind]
      refine meets_neutral rfl (by rw [hstage]; rfl) fun _ => ?_
      exact ih (attempt + 1)
    · exact herr e

theorem meets_checkout (cfg : AppSettings) {ok : Conn → Custody → Prop} (hstage : g.stage = .idle)
    (hlocks : g.locks = []) (hholding : g.holding = .nothing)
    (hok : ∀ conn, ok conn { g with holding := .borrowed conn false }) (herr : ∀ e, err e g) :
    (custody limits).Meets (ConnectionPool.checkout cfg) ok err g := by
  have hover : g.stage.isOver = false := by rw [hstage]; rfl
  have hreturned : g.stage.returned = false := by rw [hstage]; rfl
  have hleaf : ∀ l' ∈ g.locks, l'.isActive = true := by simp [hlocks]
  have hsame : { g with holding := .nothing } = g := by rw [← hholding]
  unfold ConnectionPool.checkout
  rw [meets_bind]
  refine meets_op ⟨hreturned, hstage, hlocks, hholding⟩ ?_
  rintro (_ | _)
  · exact herr _
  -- A permit is held; the exceptions below all give it back.
  rw [if_pos rfl, meets_tryExcept, meets_bind]
  refine meets_section rfl rfl hover hleaf rfl ?_
  have hback : ∀ (h : Holding) (e : PyExc), h = .permit ∨ h = .opening →
      (custody limits).Meets (perform .semRelease >>= fun _ => Action.raise e) ok err
        { g with holding := h } := by
    intro h e hh
    rw [meets_bind]
    refine meets_op ⟨hreturned, hh⟩ fun _ => ?_
    rw [meets_raise]
    exact hsame ▸ herr e
  rintro (_ | conn)
  · exact meets_openAttempts (g := { g with holding := .opening }) cfg hstage rfl hok
      (fun e => hback .opening e (.inr rfl)) _ _
  · exact hok conn

/-- The part of `release` after the connection has been passed to it. -/
theorem meets_giveBack {conn : Conn} {reusable : Bool} {ok : Unit → Custody → Prop}
    (hholding : g.holding = .returning conn) (hover : g.stage.isOver = false)
    (hleaf : ∀ l' ∈ g.locks, l'.isActive = true) (hok : ok () { g with holding := .nothing }) :
    (custody limits).Meets
      (Action.tryFinally
        (if reusable then withLock .pool (perform (.appendIdle conn))
          else ConnectionPool.closeQuietly conn)
        (perform .semRelease)) ok err g := by
  have hreturned : g.stage.returned = false := Stage.returned_of_isOver hover
  have hpermit : (custody limits).Meets (perform .semRelease) (fun _ g' => ok () g') err
      { g with holding := .permit } := meets_op ⟨hreturned, .inl rfl⟩ fun _ => hok
  rw [meets_tryFinally]
  split
  · exact meets_section rfl rfl hover hleaf hholding fun _ => hpermit
  · refine meets_op ⟨hreturned, .inl hholding⟩ fun _ => ?_
    simp only [Custody.after, hholding, if_true]
    exact hpermit

theorem meets_release {conn : Conn} {reusable : Bool} {luw : Option Entry}
    {ok : Unit → Custody → Prop} (hbusy : g.busy = none) (hover : g.stage.isOver = false)
    (hleaf : ∀ l' ∈ g.locks, l'.isActive = true) (hmay : g.MayRelease conn luw)
    (hok : ok () { g.afterRelease conn luw with holding := .nothing }) :
    (custody limits).Meets (ConnectionPool.release conn reusable luw) ok err g := by
  have hreturned : g.stage.returned = false := Stage.returned_of_isOver hover
  unfold ConnectionPool.release
  rw [meets_bind]
  refine meets_op ⟨hreturned, hbusy, hmay⟩ fun _ => ?_
  cases luw with
  | none => exact meets_giveBack rfl hover hleaf hok
  | some e => exact meets_giveBack rfl hover hleaf hok

theorem afterBegin_returned (conn : Conn) (p : Purpose) (h : g.stage.returned = false) :
    (g.afterBegin conn p).stage.returned = false := by
  cases p <;> first | exact h | rfl

theorem meets_call {conn : Conn} {p : Purpose} {f : String} {kwargs : PyDict}
    {ok : PyDict → Custody → Prop} (hreturned : g.stage.returned = false) (hbusy : g.busy = none)
    (hmay : g.MayCall conn p) (hok : ∀ r, ok r ((g.afterBegin conn p).afterEnd (.ok r)))
    (herr : ∀ e, err e ((g.afterBegin conn p).afterEnd (.error e))) :
    (custody limits).Meets (conn.call p f kwargs) ok err g := by
  unfold Conn.call
  rw [meets_bind]
  refine meets_op ⟨hreturned, hbusy, hmay⟩ fun _ => ?_
  rw [meets_bind]
  refine meets_op ⟨afterBegin_returned conn p hreturned, p, g.afterBegin_busy conn p⟩ fun r => ?_
  rw [meets_ofExcept]
  refine ⟨fun a ha => ?_, fun e he => ?_⟩
  · subst ha
    exact hok a
  · subst he
    exact herr e

/-- `conn.call` on a connection that was borrowed for one operation. -/
theorem meets_call_borrowed {conn : Conn} {p : Purpose} {f : String} {kwargs : PyDict}
    {used : Bool} {ok : PyDict → Custody → Prop} (hp : p = .read ∨ p = .discovery)
    (hstage : g.stage = .idle) (hbusy : g.busy = none) (hholding : g.holding = .borrowed conn used)
    (hok : ∀ r, ok r { g with holding := .borrowed conn true })
    (herr : ∀ e, err e { g with holding := .borrowed conn true }) :
    (custody limits).Meets (conn.call p f kwargs) ok err g := by
  have hreturned : g.stage.returned = false := by rw [hstage]; rfl
  have hend : ∀ r, (g.afterBegin conn p).afterEnd r =
      { g with holding := .borrowed conn true } := by
    intro r
    rcases hp with rfl | rfl <;> simp only [Custody.afterBegin, Custody.afterEnd, hstage, ← hbusy]
  refine meets_call hreturned hbusy ?_ (fun r => ?_) fun e => ?_
  · rcases hp with rfl | rfl <;> exact ⟨used, hholding⟩
  · rw [hend]
    exact hok r
  · rw [hend]
    exact herr e

/-- A ready thread that has borrowed `conn` since. -/
def Custody.Lent (conn : Conn) (g : Custody) : Prop :=
  ∃ (h : Custody) (used : Bool), h.Ready ∧ g = { h with holding := .borrowed conn used }

/-- Borrowing a connection for `body`, which only calls on it. -/
theorem calm_acquire (cfg : AppSettings) {body : Conn → Act α}
    (hbody : ∀ conn (g : Custody), g.Ready →
      (custody limits).Meets (body conn)
        (fun _ => Custody.Lent conn) (fun _ => Custody.Lent conn)
        { g with holding := .borrowed conn false }) :
    Calm limits (ConnectionPool.acquire cfg body) := by
  intro g hg
  unfold ConnectionPool.acquire
  rw [meets_bind]
  refine meets_checkout cfg hg.stage hg.locks hg.holding (fun conn => ?_) fun _ => hg
  have hrelease : ∀ (reusable : Bool) {β : Type} (next : Act β) (ok : β → Custody → Prop)
      (h : Custody) (used : Bool), h.Ready →
      (custody limits).Meets next ok (fun _ => Custody.Ready) h →
      (custody limits).Meets (ConnectionPool.release conn reusable none >>= fun _ => next)
        ok (fun _ => Custody.Ready) { h with holding := .borrowed conn used } := by
    intro reusable β next ok h used hh hnext
    have hsame : { h with holding := .nothing } = h := by rw [← hh.holding]
    have hover : h.stage.isOver = false := by rw [hh.stage]; rfl
    have hleaf : ∀ l' ∈ h.locks, l'.isActive = true := by simp [hh.locks]
    rw [meets_bind]
    refine meets_release hh.busy hover hleaf ⟨used, rfl⟩ ?_
    simp only [Custody.afterRelease, hsame]
    exact hnext
  rw [meets_bind, meets_tryExcept]
  refine (hbody conn g hg).mono ?_ ?_
  · rintro a _ ⟨h, used, hh, rfl⟩
    exact hrelease true _ _ h used hh hh
  · rintro e _ ⟨h, used, hh, rfl⟩
    exact hrelease false _ _ h used hh hh

theorem calm_pooledCall (cfg : AppSettings) (f : String) (params : PyDict) :
    Calm limits (PooledCaller.call cfg (connectionPool cfg) f params) := by
  refine calm_acquire cfg fun conn g hg => ?_
  rw [meets_tryExcept]
  refine meets_call_borrowed (.inr rfl) hg.stage hg.busy rfl ?_ ?_
  · exact fun _ => ⟨g, true, hg, rfl⟩
  · exact fun _ => ⟨g, true, hg, rfl⟩

theorem calm_closeAll (cfg : AppSettings) : Calm limits (connectionPool cfg).closeAll := by
  intro g hg
  have hover : g.stage.isOver = false := by rw [hg.stage]; rfl
  have hreturned : g.stage.returned = false := by rw [hg.stage]; rfl
  show (custody limits).Meets (ConnectionPool.closeAll) _ _ g
  unfold ConnectionPool.closeAll
  rw [meets_bind]
  refine meets_section rfl rfl hover (by simp [hg.locks]) ⟨hg.stage, hg.closing⟩ fun idle => ?_
  refine (meets_forEach (fun rest g' => g' = { g with closing := rest }) idle _ rfl ?_).mono
    ?_ fun _ _ h => h
  · rintro conn rest _ rfl
    refine meets_op ⟨hreturned, .inr (by simp)⟩ fun _ => ?_
    simp [Custody.after, hg.holding]
  · rintro _ _ rfl
    rw [← hg.closing]
    exact hg

end Pool

end RfcMcp
