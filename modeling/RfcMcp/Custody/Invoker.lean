import RfcMcp.Custody.Pool
import RfcMcp.Execution.Routine
import RfcMcp.Mcp.Server

namespace RfcMcp

open Framework Framework.Protocol

/-- The thread found no transaction under the ID it was given, and says so. -/
def Custody.Lost (cfg : AppSettings) (exc : PyExc) (g : Custody) : Prop :=
  ∃ id, g.Settled ∧ g.locks = [] ∧ g.stage = .doomed id ∧
    exc = ExecutionInvoker.transactionNotFound cfg id

/-- What a finished request leaves behind, and what its caller is told. -/
def Custody.Outcome (cfg : AppSettings) (reply : Except PyExc Answer) (g : Custody) : Prop :=
  g.Settled ∧ g.locks = [] ∧ match g.stage with
    | .idle => True
    | .doomed id => reply = .error (ExecutionInvoker.transactionNotFound cfg id)
    | .written e value => reply = .ok (.written value (some e.1))
    | _ => False

theorem Custody.Outcome.idle_or {g : Custody} {cfg : AppSettings} {reply : Except PyExc Answer}
    (h : g.Outcome cfg reply) :
    g.stage = .idle ∨
      (∃ id, g.stage = .doomed id ∧ reply = .error (ExecutionInvoker.transactionNotFound cfg id)) ∨
      ∃ e value, g.stage = .written e value ∧ reply = .ok (.written value (some e.1)) := by
  obtain ⟨_, _, hreply⟩ := h
  cases hs : g.stage with
  | idle => exact .inl rfl
  | doomed id =>
    rw [hs] at hreply
    exact .inr (.inl ⟨id, rfl, hreply⟩)
  | written e value =>
    rw [hs] at hreply
    exact .inr (.inr ⟨e, value, rfl, hreply⟩)
  | _ =>
    rw [hs] at hreply
    exact hreply.elim

theorem Custody.Ready.outcome {g : Custody} (hg : g.Ready) (cfg : AppSettings)
    (reply : Except PyExc Answer) : g.Outcome cfg reply := by
  refine ⟨hg.toSettled, hg.locks, ?_⟩
  rw [hg.stage]
  trivial

theorem Custody.Lost.outcome {g : Custody} {cfg : AppSettings} {exc : PyExc} (hg : g.Lost cfg exc) :
    g.Outcome cfg (.error exc) := by
  obtain ⟨id, hsettled, hlocks, hstage, rfl⟩ := hg
  refine ⟨hsettled, hlocks, ?_⟩
  rw [hstage]

theorem Custody.Ready.under {g : Custody} (hg : g.Ready) (ref : Nat) :
    (g.afterLock (.active ref)).Under ref (.locked ref) := by
  have hstage : (g.afterLock (.active ref)).stage = .locked ref := by
    simp [Custody.afterLock, hg.removed]
  exact ⟨{ hg.toSettled with }, by simp [Custody.afterLock, hg.locks], hstage⟩

section Invoker

variable {limits : ResultLimitPolicy} {g : Custody} (cfg : AppSettings)

theorem calm_read (f : String) (kwargs : PyDict) (mode : String) :
    Calm limits ((connectionPool cfg).acquire fun conn =>
      ExecutionInvoker.callOnConnection cfg conn .read f kwargs mode none) := by
  refine calm_acquire cfg fun conn g hg => ?_
  have hover : g.stage.isOver = false := by rw [hg.stage]; rfl
  have hlent : Custody.Lent conn { g with holding := .borrowed conn true } := ⟨g, true, hg, rfl⟩
  unfold ExecutionInvoker.callOnConnection
  rw [meets_bind, meets_tryExcept]
  refine meets_call_borrowed (.inl rfl) hg.stage hg.busy rfl (fun r => ?_) fun e => ?_
  · rw [meets_bind]
    exact meets_log hover hlent
  · rw [meets_bind]
    exact meets_log hover hlent

theorem calm_routine (limits : ResultLimitPolicy) :
    Routine cfg (custody limits) Custody.Ready where
  cacheGet id key := ⟨calm_section (o := .cacheGet id key) rfl rfl rfl⟩
  cacheSet id key value := ⟨calm_section (o := .cacheSet id key value) rfl rfl rfl⟩
  log record _ := ⟨calm_log record⟩
  note record _ := ⟨calm_log record⟩
  pooledCall f params := ⟨calm_pooledCall cfg f params⟩
  read f kwargs mode := ⟨calm_read cfg f kwargs mode⟩

theorem meets_findTransaction (id : TxId) (hg : g.Ready) :
    (custody limits).Meets (ExecutionInvoker.findTransaction cfg id)
      (fun e g' => g'.Ready ∧ g'.found = some e) (Custody.Lost cfg) g := by
  have hover : g.stage.isOver = false := by rw [hg.stage]; rfl
  unfold ExecutionInvoker.findTransaction
  rw [meets_bind]
  refine meets_section rfl rfl hover (by simp [hg.locks]) hg.stage ?_
  rintro (_ | a)
  · exact ⟨id, { hg.toSettled with }, hg.locks, rfl, rfl⟩
  · exact ⟨{ hg with }, rfl⟩

theorem meets_createTransaction (hg : g.Ready) :
    (custody limits).Meets (ExecutionInvoker.createTransaction (connectionPool cfg))
      (fun e g' => g'.Ready ∧ g'.found = some e) (fun _ => Custody.Ready) g := by
  have hover : g.stage.isOver = false := by rw [hg.stage]; rfl
  have hreturned : g.stage.returned = false := by rw [hg.stage]; rfl
  unfold ExecutionInvoker.createTransaction
  rw [meets_bind]
  refine meets_checkout cfg hg.stage hg.locks hg.holding (fun conn => ?_) fun _ => hg
  rw [meets_bind]
  refine meets_op ⟨hreturned, hg.stage, hg.token⟩ fun id => ?_
  rw [meets_bind]
  refine meets_neutral rfl hover fun now => ?_
  rw [meets_bind]
  refine meets_op ⟨hreturned, hg.fresh, rfl⟩ fun ref => ?_
  rw [meets_bind]
  have hleaf : ∀ l' ∈ g.locks, l'.isActive = true := by simp [hg.locks]
  refine meets_section rfl rfl hover hleaf ⟨rfl, rfl, rfl⟩ fun _ => ?_
  rw [meets_bind]
  exact meets_log hover ⟨{ hg with token := rfl, fresh := rfl, holding := rfl }, rfl⟩

theorem meets_getOrCreateTransaction (id : Option TxId) (hg : g.Ready) :
    (custody limits).Meets (ExecutionInvoker.getOrCreateTransaction cfg (connectionPool cfg) id)
      (fun e g' => g'.Ready ∧ g'.found = some e) (fun exc g' => g'.Ready ∨ g'.Lost cfg exc) g := by
  cases id with
  | none => exact (meets_createTransaction cfg hg).mono (fun _ _ h => h) fun _ _ h => .inl h
  | some id => exact (meets_findTransaction cfg id hg).mono (fun _ _ h => h) fun _ _ h => .inr h

/-- Passing the connection of a removed transaction to the pool, under the transaction's lock. -/
theorem meets_releaseRemoved {e : Entry} {reusable : Bool} {ok : Unit → Custody → Prop}
    {err : PyExc → Custody → Prop} (hholding : g.holding = .nothing) (hbusy : g.busy = none)
    (hlocks : g.locks = [.active e.2.ref]) (hremoved : e ∈ g.removed)
    (hstage : g.stage = .idle ∨ g.stage = .ended e)
    (hok : ok () { g with removed := g.removed.erase e, released := e :: g.released }) :
    (custody limits).Meets (ConnectionPool.release e.2.connection reusable (some e)) ok err g := by
  have hover : g.stage.isOver = false := by rcases hstage with h | h <;> rw [h] <;> rfl
  have hleaf : ∀ l' ∈ g.locks, l'.isActive = true := by simp [hlocks]
  refine meets_release hbusy hover hleaf ⟨hholding, rfl, hremoved, by simp [hlocks], hstage⟩ ?_
  simp only [Custody.afterRelease, ← hholding]
  exact hok

theorem meets_discardTransaction {e : Entry} {err : PyExc → Custody → Prop} {stage : Stage}
    (hstage : (∃ raw, stage = .wrote e raw) ∨ stage = .failed e) (hg : g.Under e.2.ref stage) :
    (custody limits).Meets (ExecutionInvoker.discardTransaction (connectionPool cfg) e)
      (fun _ g' => g'.Under e.2.ref .idle) err g := by
  have hover : g.stage.isOver = false := by
    rw [hg.stage]
    rcases hstage with ⟨raw, rfl⟩ | rfl <;> rfl
  have hleaf : ∀ l' ∈ g.locks, l'.isActive = true := by simp [hg.locks]
  have hremove : g.MayRemove e := by
    refine ⟨by simp [hg.locks], .inr ?_⟩
    rwa [hg.stage]
  have hafter : ∀ removed, g.afterRemove e removed =
      { (if removed then g.remove e else g) with stage := .idle } := by
    intro removed
    unfold Custody.afterRemove
    rw [hg.stage]
    rcases hstage with ⟨raw, rfl⟩ | rfl <;> rfl
  unfold ExecutionInvoker.discardTransaction ExecutionInvoker.removeIfCurrent
  rw [meets_bind]
  refine meets_section rfl rfl hover hleaf hremove fun removed => ?_
  simp only [Custody.after, hafter]
  cases removed with
  | false => exact ⟨{ hg.toSettled with }, hg.locks, rfl⟩
  | true =>
    simp only [if_true, Custody.remove]
    rw [meets_bind]
    refine meets_releaseRemoved hg.holding hg.busy hg.locks (by simp) (.inl rfl) ?_
    refine meets_log rfl ⟨{ hg.toSettled with removed := ?_ }, hg.locks, rfl⟩
    simp [hg.removed]

/-- The write itself: its RFC and the check of its result. -/
theorem meets_attempt (f : String) (callKwargs : PyDict) (mode : String) (e : Entry)
    (hg : g.Under e.2.ref (.current e)) :
    (custody limits).Meets
      (do
        let rawResult ← ExecutionInvoker.callOnConnection cfg e.2.connection (.write e) f
          callKwargs mode (some e.1)
        ExecutionInvoker.applyResultLimits cfg f mode rawResult)
      (fun value g' => ∃ raw, g'.Under e.2.ref (.wrote e raw) ∧
        cfg.limits.apply (.dict raw) = .ok value)
      (fun _ g' => ∃ stage, ((∃ raw, stage = .wrote e raw) ∨ stage = .failed e) ∧
        g'.Under e.2.ref stage) g := by
  have hreturned : g.stage.returned = false := by rw [hg.stage]; rfl
  have hwrote : ∀ raw, ((g.afterBegin e.2.connection (.write e)).afterEnd (.ok raw)).Under
      e.2.ref (.wrote e raw) :=
    fun raw => ⟨{ hg.toSettled with busy := rfl }, hg.locks, rfl⟩
  have hfailed : ∀ exc, ((g.afterBegin e.2.connection (.write e)).afterEnd (.error exc)).Under
      e.2.ref (.failed e) :=
    fun exc => ⟨{ hg.toSettled with busy := rfl }, hg.locks, rfl⟩
  unfold ExecutionInvoker.callOnConnection
  rw [meets_bind, meets_bind, meets_tryExcept]
  refine meets_call hreturned hg.busy ⟨rfl, hg.stage⟩ (fun raw => ?_) fun exc => ?_
  · rw [meets_bind]
    refine meets_log rfl ?_
    show (custody limits).Meets (ExecutionInvoker.applyResultLimits cfg f mode raw) _ _ _
    unfold ExecutionInvoker.applyResultLimits
    split
    · rename_i value hvalue
      exact ⟨raw, hwrote raw, hvalue⟩
    · rw [meets_bind]
      exact meets_log rfl ⟨_, .inl ⟨raw, rfl⟩, hwrote raw⟩
    · exact ⟨_, .inl ⟨raw, rfl⟩, hwrote raw⟩
  · rw [meets_bind]
    exact meets_log rfl ⟨_, .inr rfl, hfailed exc⟩

theorem meets_writeLocked (f : String) (callKwargs : PyDict) (mode : String) (e : Entry)
    (hg : g.Under e.2.ref (.locked e.2.ref)) (hfound : g.found = some e) :
    (custody cfg.limits).Meets
      (ExecutionInvoker.writeLocked cfg (connectionPool cfg) f callKwargs mode e)
      (fun value g' => g'.Under e.2.ref (.accepted e value))
      (fun exc g' => g'.Under e.2.ref .idle ∨ g'.Under e.2.ref (.refused e.1) ∧
        exc = ExecutionInvoker.transactionNotFound cfg e.1) g := by
  have hover : g.stage.isOver = false := by rw [hg.stage]; rfl
  have hleaf : ∀ l' ∈ g.locks, l'.isActive = true := by simp [hg.locks]
  unfold ExecutionInvoker.writeLocked ExecutionInvoker.isCurrentTransaction
  rw [meets_bind]
  refine meets_section rfl rfl hover hleaf ⟨hg.stage, hfound⟩ ?_
  rintro (_ | _)
  · exact .inr ⟨⟨{ hg.toSettled with }, hg.locks, rfl⟩, rfl⟩
  have hcurrent : (g.after cfg.limits (.isCurrent e.1 e.2) true).Under e.2.ref (.current e) :=
    ⟨{ hg.toSettled with }, hg.locks, rfl⟩
  rw [if_neg (by simp), meets_bind, meets_tryExcept]
  refine (meets_attempt cfg f callKwargs mode e hcurrent).mono ?_ ?_
  · rintro value g' ⟨raw, hwrote, hvalue⟩
    rw [meets_bind]
    refine meets_neutral rfl (by rw [hwrote.stage]; rfl) fun now => ?_
    rw [meets_bind]
    refine meets_op ⟨by rw [hwrote.stage]; rfl, e, raw, value, hwrote.stage, rfl, hvalue⟩
      fun _ => ?_
    refine ⟨{ hwrote.toSettled with }, hwrote.locks, ?_⟩
    simp only [Custody.after, Custody.afterAccept, hwrote.stage, hvalue]
  · rintro exc g' ⟨stage, hstage, hg'⟩
    rw [meets_bind]
    exact (meets_discardTransaction cfg hstage hg').mono (fun _ _ h => .inl h) fun _ _ h => h

theorem mayLock_active {e : Entry} (hg : g.Ready) :
    g.allows limits (.acquire (.active e.2.ref)) := by
  have hover : g.stage.isOver = false := by rw [hg.stage]; rfl
  have hreturned : g.stage.returned = false := by rw [hg.stage]; rfl
  exact ⟨hreturned, hover, hg.locks, hg.holding, hg.stage⟩

theorem Custody.Under.unlock {ref : Nat} {stage next : Stage} (hg : g.Under ref stage)
    (limits : ResultLimitPolicy) (hstage : stage.returned = false)
    (hnext : stage.afterUnlock = some next) :
    g.allows limits (.release (.active ref)) ∧ (g.afterUnlock (.active ref)).Settled ∧
      (g.afterUnlock (.active ref)).locks = [] ∧ (g.afterUnlock (.active ref)).stage = next := by
  refine ⟨⟨by rw [hg.stage]; exact hstage, by simp [hg.locks], fun _ => ⟨hg.busy, ?_⟩⟩,
    { hg.toSettled with }, ?_, ?_⟩
  · rw [hg.stage, hnext]
    simp
  · simp [Custody.afterUnlock, hg.locks]
  · simp [Custody.afterUnlock, hg.stage, hnext, -Stage.afterUnlock]

theorem meets_write (f : String) (parameters : PyDict) (id : Option TxId) (hg : g.Ready) :
    (custody cfg.limits).Meets
      (ExecutionInvoker.write cfg (connectionPool cfg) f parameters id)
      (fun reply => Custody.Outcome cfg (.ok (.written reply.1 reply.2)))
      (fun exc => Custody.Outcome cfg (.error exc)) g := by
  have hroutine := calm_routine cfg cfg.limits
  unfold ExecutionInvoker.write
  rw [meets_bind]
  refine ((hroutine.authorize _ _ _ _ _).meets g hg).mono (fun _ g hg => ?_)
    fun _ _ h => h.outcome cfg _
  rw [meets_bind]
  refine ((hroutine.getInterface f).meets g hg).mono (fun interface g hg => ?_)
    fun _ _ h => h.outcome cfg _
  rw [meets_bind]
  refine (calm_ofExcept _ g hg).mono (fun callKwargs g hg => ?_) fun _ _ h => h.outcome cfg _
  rw [meets_bind]
  refine (meets_getOrCreateTransaction cfg id hg).mono (fun e g hg => ?run) ?raised
  obtain ⟨hg, hfound⟩ := hg
  case raised =>
    rintro exc g (h | h)
    · exact h.outcome cfg _
    · exact h.outcome
  rw [meets_bind]
  refine meets_withLock (mayLock_active hg) ?_
  refine (meets_writeLocked cfg f callKwargs "write" e (hg.under e.2.ref) hfound).mono ?_ ?_
  · intro value g hg
    obtain ⟨hallowed, hsettled, hlocks, hstage⟩ := hg.unlock cfg.limits rfl rfl
    refine ⟨hallowed, hsettled, hlocks, ?_⟩
    rw [hstage]
  · rintro exc g (hg | ⟨hg, rfl⟩)
    · obtain ⟨hallowed, hsettled, hlocks, hstage⟩ := hg.unlock cfg.limits rfl rfl
      exact ⟨hallowed, Custody.Ready.outcome ⟨hsettled, hlocks, hstage⟩ cfg _⟩
    · obtain ⟨hallowed, hsettled, hlocks, hstage⟩ := hg.unlock cfg.limits rfl rfl
      exact ⟨hallowed, Custody.Lost.outcome ⟨_, hsettled, hlocks, hstage, rfl⟩⟩

/-- The COMMIT or ROLLBACK of a transaction that this thread has taken out of the table. -/
theorem meets_control {e : Entry} {p : Purpose} {f : String} {kwargs : PyDict}
    {ok : PyDict → Custody → Prop} {err : PyExc → Custody → Prop} (hbusy : g.busy = none)
    (hp : p.controls = some e) (hstage : g.stage = .idle ∨ g.stage = .ended e)
    (hmay : g.MayCall e.2.connection p)
    (hok : ∀ r, ok r { g with
      uncontrolled := g.uncontrolled.erase e, controlled := p :: g.controlled })
    (herr : ∀ exc, err exc { g with
      uncontrolled := g.uncontrolled.erase e, controlled := p :: g.controlled }) :
    (custody limits).Meets (e.2.connection.call p f kwargs) ok err g := by
  have hreturned : g.stage.returned = false := by rcases hstage with h | h <;> rw [h] <;> rfl
  have hend : ∀ r, (g.afterBegin e.2.connection p).afterEnd r = { g with
      uncontrolled := g.uncontrolled.erase e, controlled := p :: g.controlled } := by
    intro r
    cases p <;> simp only [Purpose.controls, reduceCtorEq, Option.some.injEq] at hp <;> subst hp <;>
      rcases hstage with h | h <;>
      simp only [Custody.afterBegin, Custody.afterEnd, h, ← hbusy]
  refine meets_call hreturned hbusy hmay (fun r => ?_) fun exc => ?_
  · rw [hend]
    exact hok r
  · rw [hend]
    exact herr exc

/-- Once the lock of a candidate is taken, the sweep lets go of everything again. -/
theorem meets_expireLocked (cutoff : Time) (e : Entry) (hg : g.Under e.2.ref .idle) :
    (custody limits).Meets (ExecutionInvoker.expireLocked (connectionPool cfg) cutoff e)
      (fun _ g' => g'.Under e.2.ref .idle) (fun _ _ => False) g := by
  have hover : g.stage.isOver = false := by rw [hg.stage]; rfl
  have hleaf : ∀ l' ∈ g.locks, l'.isActive = true := by simp [hg.locks]
  have hlock : LockId.active e.2.ref ∈ g.locks := by simp [hg.locks]
  unfold ExecutionInvoker.expireLocked
  rw [meets_bind]
  refine meets_section rfl rfl hover hleaf ⟨hg.stage, hlock⟩ ?_
  rintro (_ | _)
  · exact hg
  have hstage : (g.remove e).stage = .idle := hg.stage
  have hmay : (g.remove e).MayCall e.2.connection (.expire e) :=
    ⟨⟨rfl, by simp [Custody.remove], by simp [Custody.remove], hlock⟩, hstage⟩
  rw [if_pos rfl, meets_bind, meets_tryExcept, meets_bind]
  show (custody limits).Meets _ _ _ (g.remove e)
  have hrest : ∀ reusable, (custody limits).Meets
      (do
        ConnectionPool.release e.2.connection reusable (some e)
        log (ExecutionInvoker.warning "TRANSACTION EXPIRED transaction_id=%s" [e.1]))
      (fun _ g' => g'.Under e.2.ref .idle) (fun _ _ => False)
      { g.remove e with
        uncontrolled := (g.remove e).uncontrolled.erase e
        controlled := .expire e :: (g.remove e).controlled } := by
    intro reusable
    rw [meets_bind]
    refine meets_releaseRemoved hg.holding hg.busy hg.locks (by simp [Custody.remove])
      (.inl hg.stage) ?_
    refine meets_log hover ⟨{ hg.toSettled with removed := ?_ }, hg.locks, hg.stage⟩
    simp [Custody.remove, hg.removed]
  refine meets_control hg.busy rfl (.inl hstage) hmay (fun _ => hrest true) fun exc => ?_
  rw [meets_bind]
  exact meets_log hover (hrest false)

theorem meets_expireTransactions (hg : g.Ready) :
    (custody limits).Meets (ExecutionInvoker.expireTransactions cfg (connectionPool cfg))
      (fun _ => Custody.Ready) (fun _ _ => False) g := by
  have hover : g.stage.isOver = false := by rw [hg.stage]; rfl
  unfold ExecutionInvoker.expireTransactions
  rw [meets_bind]
  refine meets_neutral rfl hover fun now => ?_
  rw [meets_bind]
  refine meets_section rfl rfl hover (by simp [hg.locks]) hover fun candidates => ?_
  refine meets_forEach_const (P := custody limits) Custody.Ready candidates _ hg fun e g hg => ?_
  have hover : g.stage.isOver = false := by rw [hg.stage]; rfl
  have hreturned : g.stage.returned = false := by rw [hg.stage]; rfl
  unfold ExecutionInvoker.expireCandidate
  rw [meets_bind]
  refine meets_neutral rfl hover fun lastUsed => ?_
  split
  · exact hg
  rw [meets_bind]
  refine meets_op ⟨hreturned, hover, rfl, hg.locks, hg.holding, hg.stage⟩ ?_
  rintro (_ | _)
  · exact hg
  rw [if_pos rfl, meets_tryFinally]
  have hunder : Custody.Under { g with locks := .active e.2.ref :: g.locks } e.2.ref .idle :=
    ⟨{ hg.toSettled with }, by rw [hg.locks], hg.stage⟩
  refine (meets_expireLocked cfg _ e hunder).mono ?_ fun _ _ h => h.elim
  intro _ g hg
  obtain ⟨hallowed, hsettled, hlocks, hstage⟩ := hg.unlock limits rfl rfl
  exact meets_op hallowed fun _ => ⟨hsettled, hlocks, hstage⟩

theorem calm_expireTransactions :
    Calm limits (ExecutionInvoker.expireTransactions cfg (connectionPool cfg)) :=
  fun _ hg => (meets_expireTransactions cfg hg).mono (fun _ _ h => h) fun _ _ h => h.elim

theorem meets_controlAction {e : Entry} {ok : PyDict → Custody → Prop}
    {err : PyExc → Custody → Prop} (action : ExecutionInvoker.ControlAction)
    (hbusy : g.busy = none) (hstage : g.stage = .ended e) (hmay : g.MayControl e.2.connection e)
    (hok : ∀ p r, ok r { g with
      uncontrolled := g.uncontrolled.erase e, controlled := p :: g.controlled })
    (herr : ∀ p exc, err exc { g with
      uncontrolled := g.uncontrolled.erase e, controlled := p :: g.controlled }) :
    (custody limits).Meets (ExecutionInvoker.control action e) ok err g := by
  cases action with
  | commit wait => exact meets_control hbusy rfl (.inr hstage) ⟨hmay, hstage⟩ (hok _) (herr _)
  | rollback => exact meets_control hbusy rfl (.inr hstage) ⟨hmay, hstage⟩ (hok _) (herr _)

theorem meets_finishLocked (action : ExecutionInvoker.ControlAction) (e : Entry)
    (hg : g.Under e.2.ref (.locked e.2.ref)) (hfound : g.found = some e) :
    (custody limits).Meets (ExecutionInvoker.finishLocked cfg (connectionPool cfg) action e)
      (fun _ g' => g'.Under e.2.ref (.ended e))
      (fun exc g' => g'.Under e.2.ref (.ended e) ∨ g'.Under e.2.ref (.refused e.1) ∧
        exc = ExecutionInvoker.transactionNotFound cfg e.1) g := by
  have hover : g.stage.isOver = false := by rw [hg.stage]; rfl
  have hleaf : ∀ l' ∈ g.locks, l'.isActive = true := by simp [hg.locks]
  have hlock : LockId.active e.2.ref ∈ g.locks := by simp [hg.locks]
  have hafter : ∀ removed, g.afterRemove e removed = { (if removed then g.remove e else g) with
      stage := if removed then .ended e else .refused e.1 } := by
    intro removed
    unfold Custody.afterRemove
    rw [hg.stage]
  unfold ExecutionInvoker.finishLocked ExecutionInvoker.removeIfCurrent
  rw [meets_bind]
  refine meets_section rfl rfl hover hleaf ⟨hlock, .inl ⟨hg.stage, hfound⟩⟩ ?_
  simp only [Custody.after, hafter]
  rintro (_ | _)
  · exact .inr ⟨⟨{ hg.toSettled with }, hg.locks, rfl⟩, rfl⟩
  have hmay : Custody.MayControl { g.remove e with stage := .ended e } e.2.connection e :=
    ⟨rfl, by simp [Custody.remove], by simp [Custody.remove], hlock⟩
  have hended : ∀ p : Purpose, Custody.Under { g.remove e with
      stage := .ended e
      removed := (g.remove e).removed.erase e
      released := e :: (g.remove e).released
      uncontrolled := (g.remove e).uncontrolled.erase e
      controlled := p :: (g.remove e).controlled } e.2.ref (.ended e) := by
    intro p
    refine ⟨{ hg.toSettled with removed := ?_ }, hg.locks, rfl⟩
    simp [Custody.remove, hg.removed]
  rw [if_neg (by simp), meets_bind, meets_tryExcept]
  refine meets_controlAction action hg.busy rfl hmay (fun p result => ?_) fun p exc => ?_
  · rw [meets_bind]
    exact meets_releaseRemoved hg.holding hg.busy hg.locks (by simp [Custody.remove]) (.inr rfl)
      (hended p)
  · rw [meets_bind]
    refine meets_log rfl ?_
    rw [meets_bind]
    exact meets_releaseRemoved hg.holding hg.busy hg.locks (by simp [Custody.remove]) (.inr rfl)
      (.inl (hended p))

theorem meets_finishTransaction (id : TxId) (action : ExecutionInvoker.ControlAction)
    (hg : g.Ready) :
    (custody limits).Meets
      (ExecutionInvoker.finishTransaction cfg (connectionPool cfg) id action)
      (fun _ => Custody.Ready) (fun exc g' => g'.Ready ∨ g'.Lost cfg exc) g := by
  unfold ExecutionInvoker.finishTransaction
  rw [meets_bind]
  refine (meets_expireTransactions cfg hg).mono ?_ fun _ _ h => h.elim
  intro _ g hg
  rw [meets_bind]
  refine (meets_findTransaction cfg id hg).mono ?_ fun _ _ h => .inr h
  rintro e g ⟨hg, hfound⟩
  rw [meets_bind]
  refine meets_withLock (mayLock_active hg) ?_
  refine (meets_finishLocked cfg action e (hg.under e.2.ref) hfound).mono ?_ ?_
  · intro result g hg
    obtain ⟨hallowed, hsettled, hlocks, hstage⟩ := hg.unlock limits rfl rfl
    have hready : Custody.Ready _ := ⟨hsettled, hlocks, hstage⟩
    refine ⟨hallowed, ?_⟩
    rw [meets_bind]
    refine meets_log (by rw [hstage]; rfl) ?_
    rw [meets_ofExcept]
    exact ⟨fun _ _ => hready, fun _ _ => .inl hready⟩
  · rintro exc g (hg | ⟨hg, rfl⟩)
    · obtain ⟨hallowed, hsettled, hlocks, hstage⟩ := hg.unlock limits rfl rfl
      exact ⟨hallowed, .inl ⟨hsettled, hlocks, hstage⟩⟩
    · obtain ⟨hallowed, hsettled, hlocks, hstage⟩ := hg.unlock limits rfl rfl
      exact ⟨hallowed, .inr ⟨_, hsettled, hlocks, hstage, rfl⟩⟩

theorem meets_commit (id : TxId) (wait : Bool) (hg : g.Ready) :
    (custody limits).Meets (ExecutionInvoker.commit cfg (connectionPool cfg) id wait)
      (fun _ => Custody.Ready) (fun exc g' => g'.Ready ∨ g'.Lost cfg exc) g := by
  unfold ExecutionInvoker.commit
  rw [meets_bind]
  refine (((calm_routine cfg limits).authorizeTransactionControl _).meets g hg).mono
    (fun _ g hg => ?_) fun _ _ h => .inl h
  exact meets_finishTransaction cfg id _ hg

theorem meets_rollback (id : TxId) (hg : g.Ready) :
    (custody limits).Meets (ExecutionInvoker.rollback cfg (connectionPool cfg) id)
      (fun _ => Custody.Ready) (fun exc g' => g'.Ready ∨ g'.Lost cfg exc) g := by
  unfold ExecutionInvoker.rollback
  rw [meets_bind]
  refine (((calm_routine cfg limits).authorizeTransactionControl _).meets g hg).mono
    (fun _ g hg => ?_) fun _ _ h => .inl h
  exact meets_finishTransaction cfg id _ hg

/-- In `close` the entries were taken out together, and each waits for its lock. -/
theorem meets_shutdownLocked {e : Entry} {rest : List Entry} {ok : Unit → Custody → Prop}
    {err : PyExc → Custody → Prop} (hholding : g.holding = .nothing) (hbusy : g.busy = none)
    (hstage : g.stage = .idle) (hlocks : g.locks = [.active e.2.ref])
    (hremoved : g.removed = e :: rest) (huncontrolled : g.uncontrolled = e :: rest)
    (hok : ok () { g with
      removed := rest
      uncontrolled := rest
      released := e :: g.released
      controlled := .shutdown e :: g.controlled }) :
    (custody limits).Meets (ExecutionInvoker.shutdownLocked (connectionPool cfg) e) ok err g := by
  have hover : g.stage.isOver = false := by rw [hstage]; rfl
  have hmay : g.MayCall e.2.connection (.shutdown e) :=
    ⟨⟨rfl, by simp [hremoved], by simp [huncontrolled], by simp [hlocks]⟩, hstage⟩
  unfold ExecutionInvoker.shutdownLocked Transaction.rollback
  rw [meets_bind, meets_tryExcept, meets_bind]
  have hrest : ∀ reusable, (custody limits).Meets
      (ConnectionPool.release e.2.connection reusable (some e)) ok err
      { g with
        uncontrolled := g.uncontrolled.erase e
        controlled := .shutdown e :: g.controlled } := by
    intro reusable
    refine meets_releaseRemoved hholding hbusy hlocks (by simp [hremoved]) (.inl hstage) ?_
    simp only [hremoved, huncontrolled, List.erase_cons_head]
    exact hok
  refine meets_control hbusy rfl (.inl hstage) hmay (fun _ => ?_) fun exc => ?_
  · rw [meets_bind]
    exact meets_log hover (hrest true)
  · rw [meets_bind]
    exact meets_log hover (hrest false)

theorem calm_close : Calm limits (ExecutionInvoker.close (connectionPool cfg)) := by
  intro g hg
  have hover : g.stage.isOver = false := by rw [hg.stage]; rfl
  unfold ExecutionInvoker.close
  rw [meets_bind]
  refine meets_section rfl rfl hover (by simp [hg.locks]) ⟨hg.stage, hg.removed⟩ fun pending => ?_
  -- While `rest` is still to come, exactly `rest` has been taken out and not been dealt with.
  refine (meets_forEach (fun rest (g' : Custody) => g'.removed = rest ∧ g'.uncontrolled = rest ∧
    Custody.Ready { g' with removed := [] }) pending _ ⟨rfl, rfl, ?start⟩ ?step).mono ?done
    fun _ _ h => h
  case start => exact ⟨{ hg.toSettled with removed := rfl }, hg.locks, hg.stage⟩
  case step =>
    rintro e rest g ⟨hremoved, huncontrolled, hg⟩
    have hreturned : g.stage.returned = false := by rw [show g.stage = .idle from hg.stage]; rfl
    have hover : g.stage.isOver = false := by rw [show g.stage = .idle from hg.stage]; rfl
    refine meets_withLock ⟨hreturned, hover, hg.locks, hg.holding, hg.stage⟩ ?_
    have hstage : (g.afterLock (.active e.2.ref)).stage = .idle := by
      simp only [Custody.afterLock, hremoved, List.any_cons, beq_self_eq_true, Bool.true_or]
      exact hg.stage
    have hlocks : (g.afterLock (.active e.2.ref)).locks = [.active e.2.ref] := by
      simp only [Custody.afterLock, show g.locks = [] from hg.locks]
    refine meets_shutdownLocked cfg hg.holding hg.busy hstage hlocks hremoved huncontrolled ?_
    have hunlocks : (g.afterLock (.active e.2.ref)).stage.returned = false := by rw [hstage]; rfl
    refine ⟨⟨hunlocks, by simp [hlocks], fun _ => ⟨hg.busy, by simp [hstage]⟩⟩, rfl, rfl, ?_⟩
    refine ⟨{ hg.toSettled with removed := rfl }, ?_, ?_⟩
    · simp [Custody.afterUnlock, hlocks]
    · simp [Custody.afterUnlock, hstage]
  case done =>
    rintro _ g ⟨hremoved, _, hg⟩
    exact ⟨{ hg.toSettled with removed := hremoved }, hg.locks, hg.stage⟩

theorem meets_callTransactional (f : String) (parameters : PyDict) (mode : String)
    (id : Option TxId) (hg : g.Ready) :
    (custody cfg.limits).Meets
      (ExecutionInvoker.callTransactional cfg (connectionPool cfg) f parameters mode id)
      (fun reply => Custody.Outcome cfg (.ok (.written reply.1 reply.2)))
      (fun exc => Custody.Outcome cfg (.error exc)) g := by
  unfold ExecutionInvoker.callTransactional
  rw [meets_bind]
  refine (meets_expireTransactions cfg hg).mono ?_ fun _ _ h => h.elim
  intro _ g hg
  split
  · split
    · exact hg.outcome cfg _
    · rw [meets_bind]
      exact (((calm_routine cfg cfg.limits).call f parameters mode).meets g hg).mono
        (fun _ g hg => hg.outcome cfg _) fun _ _ h => h.outcome cfg _
  split
  · exact hg.outcome cfg _
  · exact meets_write cfg f parameters id hg

theorem keeps_outcome {α : Type} {x : Act α} (hx : (custody cfg.limits).Keeps Custody.Ready x)
    (answer : α → Answer) (hg : g.Ready) :
    (custody cfg.limits).Meets (x >>= fun a => pure (answer a))
      (fun reply => Custody.Outcome cfg (.ok reply)) (fun exc => Custody.Outcome cfg (.error exc))
      g := by
  rw [meets_bind]
  exact (hx.meets g hg).mono (fun _ _ h => h.outcome cfg _) fun _ _ h => h.outcome cfg _

/-- Every request follows the custody discipline. -/
theorem program_follows (request : Request) :
    (custody cfg.limits).Follows (fun reply => Custody.Outcome cfg reply)
      (request.program cfg (connectionPool cfg)) {} := by
  have hstart : Custody.Ready {} := Custody.ready_start
  have hroutine := calm_routine cfg cfg.limits
  have hmeets : (custody cfg.limits).Meets (request.program cfg (connectionPool cfg))
      (fun reply => Custody.Outcome cfg (.ok reply)) (fun exc => Custody.Outcome cfg (.error exc))
      {} := by
    cases request with
    | call f parameters mode => exact keeps_outcome cfg (hroutine.call f parameters mode) _ hstart
    | callTransactional f parameters mode id =>
      show (custody cfg.limits).Meets (_ >>= _) _ _ _
      rw [meets_bind]
      exact meets_callTransactional cfg f parameters mode id hstart
    | commit id wait =>
      show (custody cfg.limits).Meets (_ >>= _) _ _ _
      rw [meets_bind]
      refine (meets_commit cfg id wait hstart).mono (fun _ _ h => h.outcome cfg _) ?_
      rintro exc g (h | h)
      · exact h.outcome cfg _
      · exact h.outcome
    | rollback id =>
      show (custody cfg.limits).Meets (_ >>= _) _ _ _
      rw [meets_bind]
      refine (meets_rollback cfg id hstart).mono (fun _ _ h => h.outcome cfg _) ?_
      rintro exc g (h | h)
      · exact h.outcome cfg _
      · exact h.outcome
    | search pattern group limit =>
      exact keeps_outcome cfg (hroutine.search pattern group limit) _ hstart
    | getInterface f => exact keeps_outcome cfg (hroutine.getInterface f) _ hstart
    | readSource objectType name =>
      exact keeps_outcome cfg (hroutine.readViaRfc objectType name) _ hstart
    | expireTransactions =>
      exact keeps_outcome cfg (calm_iff.mp (calm_expireTransactions cfg)) _ hstart
    | close => exact keeps_outcome cfg (calm_iff.mp (calm_close cfg)) _ hstart
    | closeAll => exact keeps_outcome cfg (calm_iff.mp (calm_closeAll cfg)) _ hstart
  refine Follows.mono hmeets ?_
  rintro (exc | reply) g h <;> exact h

end Invoker

end RfcMcp
