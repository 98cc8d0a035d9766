import RfcMcp.Custody.Deadlock
import RfcMcp.Framework.Record
import RfcMcp.Framework.Solo

namespace RfcMcp

open Framework Framework.System Framework.Protocol

section Traces

/-- The RFC that is issued: the connection, the function and its arguments. -/
def Op.calls : (o : Op) → o.Res → List (Conn × String × PyDict)
  | .rfcBegin conn _ f kwargs, _ => [(conn, f, kwargs)]
  | _, _ => []

def rollbackCall (e : Entry) : Conn × String × PyDict :=
  (e.2.connection, "BAPI_TRANSACTION_ROLLBACK", [])

def Op.isBegin : Op → Bool
  | .rfcBegin _ _ _ _ => true
  | _ => false

def Op.keepsTable : Op → Bool
  | .register _ _ => false
  | .removeIfCurrent _ _ => false
  | .removeIfExpired _ _ _ => false
  | .drain => false
  | _ => true

/-- `close` takes the table as it is, once. -/
def closeGuard (o : Op) (trace : Trace Effects) : Prop :=
  o.keepsTable = true ∨ (o = .drain ∧ ∀ pending : List Entry, ⟨.drain, pending⟩ ∉ trace)

/-- `close` has taken `pending` out of the table and rolled `done` back. -/
structure Closing (pending done : List Entry) (trace : Trace Effects) : Prop where
  drained : ⟨.drain, pending⟩ ∈ trace
  calls : trace.flatMap (fun did => did.1.calls did.2) = (done.map rollbackCall).reverse

variable {pending done : List Entry} {trace : Trace Effects} {α : Type}
  {err : PyExc → Trace Effects → Prop} {cfg : AppSettings}

theorem Closing.cons (h : Closing pending done trace) {o : Op} (ho : o.isBegin = false)
    (v : o.Res) : Closing pending done (⟨o, v⟩ :: trace) := by
  have hcalls : o.calls v = [] := by cases o <;> first | rfl | cases ho
  refine ⟨List.mem_cons_of_mem _ h.drained, ?_⟩
  rw [List.flatMap_cons, hcalls]
  exact h.calls

theorem closing_op (h : Closing pending done trace) {o : Op} (htable : o.keepsTable = true)
    (ho : o.isBegin = false) {ok : o.Res → Trace Effects → Prop}
    (hok : ∀ v trace, Closing pending done trace → ok v trace) :
    (tracing closeGuard).Meets (perform o) ok err trace :=
  traced_op (Or.inl htable) fun v => hok v _ (h.cons ho v)

theorem closing_withLock (done' : List Entry) (h : Closing pending done trace) {l : LockId}
    {x : Act α} {ok : α → Trace Effects → Prop}
    (hx : ∀ trace, Closing pending done trace → (tracing closeGuard).Meets x
      (fun a trace => Closing pending done' trace ∧
        ∀ trace, Closing pending done' trace → ok a trace) (fun _ _ => False) trace) :
    (tracing closeGuard).Meets (withLock l x) ok err trace := by
  rw [withLock, meets_bind]
  refine closing_op h rfl rfl fun _ trace htrace => ?_
  rw [meets_tryFinally]
  refine (hx trace htrace).mono ?_ fun _ _ hfalse => hfalse.elim
  intro a trace hdone
  exact closing_op hdone.1 rfl rfl fun _ trace htrace => hdone.2 trace htrace

theorem closing_release (h : Closing pending done trace) (conn : Conn) (reusable : Bool)
    (luw : Option Entry) : (tracing closeGuard).Meets (ConnectionPool.release conn reusable luw)
      (fun _ => Closing pending done) err trace := by
  rw [ConnectionPool.release, meets_bind]
  refine closing_op h rfl rfl fun _ trace htrace => ?_
  rw [meets_tryFinally]
  have hlast : ∀ trace, Closing pending done trace → (tracing closeGuard).Meets
      (perform .semRelease) (fun _ => Closing pending done) err trace :=
    fun trace htrace => closing_op htrace rfl rfl fun _ _ hdone => hdone
  cases reusable with
  | true =>
    rw [if_pos rfl]
    refine closing_withLock done htrace fun trace htrace => ?_
    exact closing_op htrace rfl rfl fun _ _ hdone => ⟨hdone, hlast⟩
  | false =>
    rw [if_neg Bool.false_ne_true]
    exact closing_op htrace rfl rfl fun _ _ hdone => hlast _ hdone

theorem closing_begin (h : Closing pending done trace) (e : Entry)
    {ok : Unit → Trace Effects → Prop}
    (hok : ∀ trace, Closing pending (done ++ [e]) trace → ok () trace) :
    (tracing closeGuard).Meets (perform (.rfcBegin e.2.connection (.shutdown e)
      "BAPI_TRANSACTION_ROLLBACK" [])) ok err trace := by
  refine traced_op (Or.inl rfl) fun _ => hok _ ⟨List.mem_cons_of_mem _ h.drained, ?_⟩
  rw [List.flatMap_cons, h.calls, List.map_append, List.reverse_append]
  rfl

/-- The rollback is issued once, whether it fails or not. -/
theorem closing_shutdownLocked (h : Closing pending done trace) (e : Entry) :
    (tracing closeGuard).Meets (ExecutionInvoker.shutdownLocked (connectionPool cfg) e)
      (fun _ => Closing pending (done ++ [e])) err trace := by
  rw [ExecutionInvoker.shutdownLocked, meets_bind, meets_tryExcept, meets_bind,
    Transaction.rollback, Conn.call, meets_bind]
  refine closing_begin h e fun trace hissued => ?_
  rw [meets_bind]
  refine closing_op hissued rfl rfl fun r trace hdone => ?_
  have hrelease : ∀ reusable trace, Closing pending (done ++ [e]) trace →
      (tracing closeGuard).Meets ((connectionPool cfg).release e.2.connection reusable (some e))
        (fun _ => Closing pending (done ++ [e])) err trace :=
    fun reusable trace htrace => closing_release htrace _ reusable _
  rw [meets_ofExcept]
  constructor
  · intro result _
    rw [meets_bind]
    exact closing_op hdone rfl rfl fun _ trace hdone => hrelease true trace hdone
  · intro exc _
    rw [meets_bind]
    exact closing_op hdone rfl rfl fun _ trace hdone => hrelease false trace hdone

/-- `close` rolls back what it found in the table, each transaction once, and raises nothing. -/
theorem traced_close : (tracing closeGuard).Follows
    (fun reply trace => reply = .ok .done ∧ ∃ pending, Closing pending pending trace)
    (Request.program cfg (connectionPool cfg) .close) [] := by
  have hloop : ∀ pending trace, Closing pending [] trace → (tracing closeGuard).Meets
      (Action.forEach pending fun e => withLock (.active e.2.ref)
        (ExecutionInvoker.shutdownLocked (connectionPool cfg) e))
      (fun _ => Closing pending pending) (fun _ _ => False) trace := by
    intro pending trace htrace
    have hinv : (tracing closeGuard).Meets (Action.forEach pending fun e =>
        withLock (.active e.2.ref) (ExecutionInvoker.shutdownLocked (connectionPool cfg) e))
        (fun _ trace => ∃ done, pending = done ++ [] ∧ Closing pending done trace)
        (fun _ _ => False) trace := by
      refine meets_forEach (P := tracing closeGuard) (fun rest trace => ∃ done,
        pending = done ++ rest ∧ Closing pending done trace) pending _ ⟨[], rfl, htrace⟩ ?_
      intro e rest trace hrest
      obtain ⟨done, hpending, hdone⟩ := hrest
      refine closing_withLock (done ++ [e]) hdone fun trace htrace => ?_
      refine (closing_shutdownLocked htrace e).mono ?_ fun _ _ hfalse => hfalse
      intro _ trace hdone
      refine ⟨hdone, fun trace hdone => ⟨done ++ [e], ?_, hdone⟩⟩
      rw [hpending, List.append_assoc]
      rfl
    refine hinv.mono ?_ fun _ _ hfalse => hfalse
    intro _ trace hdone
    obtain ⟨done, hpending, hdone⟩ := hdone
    rw [List.append_nil] at hpending
    rw [← hpending] at hdone
    exact hdone
  have hclose : (tracing closeGuard).Meets (ExecutionInvoker.close (connectionPool cfg))
      (fun _ trace => ∃ pending, Closing pending pending trace) (fun _ _ => False) [] := by
    rw [ExecutionInvoker.close, meets_bind, withLock, meets_bind]
    refine traced_op (Or.inl rfl) fun _ => ?_
    rw [meets_tryFinally]
    refine traced_op (Or.inr ⟨rfl, fun pending hmem => ?_⟩) fun pending => ?_
    · cases hmem with
      | tail _ hmem => cases hmem
    · have hdrained : Closing pending [] (⟨.drain, pending⟩ :: [⟨.acquire .transactions, ()⟩]) :=
        ⟨List.mem_cons_self, rfl⟩
      refine closing_op hdrained rfl rfl fun _ trace hdone => ?_
      exact (hloop pending trace hdone).mono (fun _ _ hdone => ⟨pending, hdone⟩)
        fun _ _ hfalse => hfalse
  refine (follows_action (ExecutionInvoker.close (connectionPool cfg)) _).mpr ?_
  exact hclose.mono (fun _ trace hdone => ⟨rfl, hdone⟩) fun _ _ hfalse => hfalse.elim

/-- What `close_all` does: it takes the idle list and closes what is on it. -/
def Op.closesPool : Op → Bool
  | .acquire _ => true
  | .release _ => true
  | .swapIdle => true
  | .closeConnection _ => true
  | _ => false

/-- `close_all` has taken the idle list, and issued no RFC. -/
structure Emptying (trace : Trace Effects) : Prop where
  swapped : ∃ idle : List Conn, ⟨.swapIdle, idle⟩ ∈ trace
  calls : trace.flatMap (fun did => did.1.calls did.2) = []

theorem traced_closeAll : (tracing fun (o : Op) _ => o.closesPool = true).Follows
    (fun reply trace => reply = .ok .done ∧ Emptying trace)
    (Request.program cfg (connectionPool cfg) .closeAll) [] := by
  have hcloseAll : (tracing fun (o : Op) _ => o.closesPool = true).Meets ConnectionPool.closeAll
      (fun _ => Emptying) (fun _ _ => False) [] := by
    rw [ConnectionPool.closeAll, meets_bind, withLock, meets_bind]
    refine traced_op rfl fun _ => ?_
    rw [meets_tryFinally]
    refine traced_op rfl fun idle => ?_
    refine traced_op rfl fun _ => ?_
    refine meets_forEach_const (P := tracing fun (o : Op) _ => o.closesPool = true) Emptying idle
      ConnectionPool.closeQuietly ?_ ?_
    · exact ⟨⟨idle, List.mem_cons_of_mem _ List.mem_cons_self⟩, rfl⟩
    · intro conn trace htrace
      obtain ⟨⟨idle, hswapped⟩, hcalls⟩ := htrace
      unfold ConnectionPool.closeQuietly
      refine traced_op rfl fun _ => ?_
      exact ⟨⟨idle, List.mem_cons_of_mem _ hswapped⟩, hcalls⟩
  refine (follows_action ConnectionPool.closeAll _).mpr ?_
  exact hcloseAll.mono (fun _ trace hdone => ⟨rfl, hdone⟩) fun _ _ hfalse => hfalse.elim

end Traces

section Quiet

variable {cfg : AppSettings} {c d : Run cfg} {t : ℕ}

theorem ids_drawn (h : Reachable c) {e : Entry} (he : e ∈ c.shared.table) :
    e.1 ∈ c.shared.tokens := by
  have hlaw := Hands.ids_conserved (hands_reachable (@program_follows cfg) h) e.1
  have hpos : 0 < (hands c).shared.table.countP (hasId e.1) :=
    List.countP_pos_iff.mpr ⟨e, he, decide_eq_true rfl⟩
  by_contra hnot
  have hzero := hlaw.trans (if_neg hnot)
  omega

theorem ref_lt (h : Reachable c) {e : Entry} (he : e ∈ c.shared.table) :
    e.2.ref < c.shared.nextRef := by
  have hlaw := Hands.refs_conserved (hands_reachable (@program_follows cfg) h) e.2.ref
  have hpos : 0 < (hands c).shared.table.countP (hasRef e.2.ref) :=
    List.countP_pos_iff.mpr ⟨e, he, decide_eq_true rfl⟩
  by_contra hnot
  have hzero := hlaw.trans (if_neg hnot)
  omega

/-- No request is in flight. -/
def Quiet (c : Run cfg) : Prop :=
  ∀ (t : ℕ) (request : Request) (p : Program Effects (Except PyExc Answer)),
    c.threads[t]? = some (request, p) → ∃ reply, p = .ret reply

theorem settled_of_quiet (h : Reachable c) (hquiet : Quiet c) (t : ℕ) :
    ((hands c).locals t).Settled := by
  by_cases hlt : t < c.threads.length
  · have hthread : c.threads[t]? = some (c.threads[t].1, c.threads[t].2) :=
      List.getElem?_eq_getElem hlt
    obtain ⟨reply, hreply⟩ := hquiet t _ _ hthread
    rw [hreply] at hthread
    have hfollows := h.disciplined (P := fun _ => custody cfg.limits) (@program_follows cfg) t _ _
      hthread
    have houtcome : ((hands c).locals t).Outcome cfg reply := hfollows
    exact houtcome.1
  · rw [(hands_reachable (@program_follows cfg) h).unborn (Nat.le_of_not_lt hlt)]
    exact Custody.ready_start.toSettled

theorem total_of_quiet (h : Reachable c) (hquiet : Quiet c) {f : Custody → ℕ}
    (hf : ∀ g : Custody, g.Settled → f g = 0) : (hands c).total f = 0 :=
  Finset.sum_eq_zero fun t _ => hf _ (settled_of_quiet h hquiet t)

/-- With nothing in anybody's hands, every connection is idle, with a transaction, or closed. -/
theorem connections_of_quiet (h : Reachable c) (hquiet : Quiet c) (conn : Conn) :
    c.shared.idle.count conn + c.shared.closed.count conn + c.shared.table.countP (hasConn conn) =
      if conn < c.shared.nextConn then 1 else 0 := by
  have hlaw := Hands.connections_conserved (hands_reachable (@program_follows cfg) h) conn
  have hzero : (hands c).total (Custody.connCount conn) = 0 := by
    refine total_of_quiet h hquiet fun g hg => ?_
    simp [Custody.connCount, hg.holding, hg.closing, hg.removed, Holding.conn]
  rw [hzero] at hlaw
  exact hlaw

theorem permits_of_quiet (h : Reachable c) (hquiet : Quiet c) :
    c.shared.permits + c.shared.table.length = cfg.poolSize := by
  have hlaw := Hands.permits_conserved (hands_reachable (@program_follows cfg) h)
  have hzero : (hands c).total Custody.permits = 0 := by
    refine total_of_quiet h hquiet fun g hg => ?_
    simp [Custody.permits, hg.holding, hg.removed, Holding.permits]
  rw [hzero] at hlaw
  exact hlaw

/-- A thread is not blocked while all the others are done. -/
theorem performs_of_alone (h : Reachable c) {request : Request} {o : Op}
    {next : o.Res → Program Effects (Except PyExc Answer)}
    (hthread : c.threads[t]? = some (request, .call o next))
    (halone : ∀ (u : ℕ) (request : Request) (p : Program Effects (Except PyExc Answer)), u ≠ t →
      c.threads[u]? = some (request, p) → ∃ reply, p = .ret reply) :
    ∃ o v c', Performs c t o v c' := by
  have hfree : ∀ l, o = .acquire l → c.shared.holder l = none := by
    intro l hl
    cases hholder : c.shared.holder l with
    | none => rfl
    | some u =>
      exfalso
      subst hl
      by_cases hut : u = t
      · rw [hut] at hholder
        obtain ⟨_, _, hmay⟩ := allowed_of_call h hthread
        exact hmay.notMem ((mem_locks_iff h l).mpr hholder)
      · obtain ⟨_, _, _, hunfinished⟩ := unfinished_of_holder h hholder
        obtain ⟨_, hret⟩ := halone u _ _ hut hunfinished
        cases hret
  obtain ⟨ch, v, s, hperform⟩ := perform_of_free cfg t c.shared hfree
  exact ⟨o, v, _, .mk hthread hperform⟩

/-- A request that runs while no other one is in flight ends, whatever happens to it. -/
theorem ends_of_quiet (h : Reachable c) (hquiet : Quiet c) (request : Request)
    {Q : Except PyExc Answer → Run cfg → Prop}
    (hq : ∀ d reply, Solo c.threads.length (c.spawn request) d → Reachable d → Quiet d →
      d.threads[c.threads.length]? = some (request, .ret reply) → Q reply d) :
    Ends c.threads.length Q (c.spawn request) := by
  have hspawn : Reachable (c.spawn request) := h.step (.start (Y := server cfg) request)
  have halone : ∀ d, Solo c.threads.length (c.spawn request) d → ∀ (u : ℕ) (request : Request)
      (p : Program Effects (Except PyExc Answer)), u ≠ c.threads.length →
      d.threads[u]? = some (request, p) → ∃ reply, p = .ret reply := by
    intro d hsolo u request' p hu hget
    rw [hsolo.others hu] at hget
    have hlt : u < c.threads.length := by
      have hlen := (List.getElem?_eq_some_iff.mp hget).1
      simp only [Config.spawn, List.length_append, List.length_singleton] at hlen
      omega
    rw [Config.spawn, List.getElem?_append_left hlt] at hget
    exact hquiet u request' p hget
  refine ends_of_solo (spawn_new c request) ?_ ?_
  · intro d o next hsolo hget
    exact performs_of_alone (hspawn.leads hsolo.leads) hget (halone d hsolo)
  · intro d reply hsolo hget
    refine hq d reply hsolo (hspawn.leads hsolo.leads) ?_ hget
    intro u request' p hget'
    by_cases hu : u = c.threads.length
    · rw [hu, hget] at hget'
      cases hget'
      exact ⟨reply, rfl⟩
    · exact halone d hsolo u request' p hu hget'

end Quiet

section Phases

variable {cfg : AppSettings} {c d : Run cfg} {t : ℕ}

theorem table_of_keepsTable {s s' : Shared} {o : Op} {v : o.Res} (hdoes : Does cfg t s o v s')
    (ho : o.keepsTable = true) : s'.table = s.table := by
  cases hdoes <;> first | rfl | cases ho

theorem record_eq_traceOf {R α : Type} {pick : (o : Op) → o.Res → List α} {later : History R}
    (h : ∀ ev ∈ later, ∃ o v, ev = .did t o v) :
    record pick later = (traceOf t later).flatMap fun did => pick did.1 did.2 := by
  induction later with
  | nil => rfl
  | cons ev later ih =>
    obtain ⟨o, v, rfl⟩ := h ev (by simp)
    rw [traceOf_did, List.flatMap_cons, ← ih fun ev hev => h ev (by simp [hev])]
    rfl

/-- The table while `close` runs alone: as it was, or drained. -/
structure Drains (c d : Run cfg) (trace : Trace Effects) : Prop where
  before : (∀ pending : List Entry, ⟨.drain, pending⟩ ∉ trace) → d.shared.table = c.shared.table
  after : ∀ pending : List Entry, ⟨.drain, pending⟩ ∈ trace →
    pending = c.shared.table ∧ d.shared.table = []

theorem drains_of_solo (h : Reachable c)
    (hsolo : Solo c.threads.length (c.spawn .close) d) :
    Drains c d (traceOf c.threads.length d.history) := by
  have hspawn : Reachable (c.spawn .close) := h.step (.start (Y := server cfg) .close)
  have hnew : traceOf c.threads.length c.history = [] := h.traced_unborn (Nat.le_refl _)
  induction hsolo with
  | refl =>
    have htrace : traceOf c.threads.length (c.spawn .close).history = [] := hnew
    rw [htrace]
    exact ⟨fun _ => rfl, fun _ hmem => absurd hmem List.not_mem_nil⟩
  | @tail d d' hsolo hs ih =>
    obtain ⟨o, v, hp⟩ := hs
    have hd : Reachable d := hspawn.leads (Solo.leads hsolo)
    obtain ⟨p, hget⟩ := Leads.request (Solo.leads hsolo) (spawn_new c .close)
    obtain ⟨o', next, v', rfl, _⟩ := hp.next hget
    have hguard := (hd.traced traced_close hget).1
    obtain ⟨hthread, hperform⟩ := hp
    rw [hget] at hthread
    cases hthread
    have hdoes := Shared.perform_does hperform
    rw [traceOf_did]
    cases hguard with
    | inl hkeeps =>
      have htable := table_of_keepsTable hdoes hkeeps
      have hmem : ∀ pending : List Entry, ⟨.drain, pending⟩ ∈
          (⟨o, v⟩ :: traceOf c.threads.length d.history : Trace Effects) →
          ⟨.drain, pending⟩ ∈ traceOf c.threads.length d.history := by
        intro pending hmem
        cases List.mem_cons.mp hmem with
        | inl hnow => cases hnow; cases hkeeps
        | inr hpast => exact hpast
      constructor
      · intro hnone
        refine htable.trans (ih.before ?_)
        exact fun pending hpast => hnone pending (List.mem_cons_of_mem _ hpast)
      · intro pending hpending
        obtain ⟨hsame, hempty⟩ := ih.after pending (hmem pending hpending)
        exact ⟨hsame, htable.trans hempty⟩
    | inr hdrain =>
      obtain ⟨rfl, hfirst⟩ := hdrain
      have hbefore := ih.before hfirst
      cases hdoes
      constructor
      · intro hnone
        exact absurd List.mem_cons_self (hnone d.shared.table)
      · intro pending hpending
        refine ⟨?_, rfl⟩
        cases List.mem_cons.mp hpending with
        | inl hnow =>
          cases hnow
          exact hbefore
        | inr hpast => exact absurd hpast (hfirst pending)

/-- What `close_all` leaves, once it has taken the idle list. -/
theorem empties_of_solo (h : Reachable c)
    (hsolo : Solo c.threads.length (c.spawn .closeAll) d) : d.shared.table = c.shared.table ∧
      ∀ idle : List Conn, ⟨.swapIdle, idle⟩ ∈ traceOf c.threads.length d.history →
        d.shared.idle = [] := by
  have hspawn : Reachable (c.spawn .closeAll) := h.step (.start (Y := server cfg) .closeAll)
  have hnew : traceOf c.threads.length c.history = [] := h.traced_unborn (Nat.le_refl _)
  induction hsolo with
  | refl =>
    have htrace : traceOf c.threads.length (c.spawn .closeAll).history = [] := hnew
    rw [htrace]
    exact ⟨rfl, fun _ hmem => absurd hmem List.not_mem_nil⟩
  | @tail d d' hsolo hs ih =>
    obtain ⟨o, v, hp⟩ := hs
    have hd : Reachable d := hspawn.leads (Solo.leads hsolo)
    obtain ⟨p, hget⟩ := Leads.request (Solo.leads hsolo) (spawn_new c .closeAll)
    obtain ⟨o', next, v', rfl, _⟩ := hp.next hget
    have hcloses := (hd.traced traced_closeAll hget).1
    obtain ⟨hthread, hperform⟩ := hp
    rw [hget] at hthread
    cases hthread
    have hdoes := Shared.perform_does hperform
    rw [traceOf_did]
    cases hdoes with
    | swapIdle => exact ⟨ih.1, fun _ _ => rfl⟩
    | acquire hfree | release | closeConnection =>
      refine ⟨ih.1, fun idle hmem => ih.2 idle ?_⟩
      cases List.mem_cons.mp hmem with
      | inl hnow => cases hnow
      | inr hpast => exact hpast
    | _ => cases hcloses

end Phases

section Shutdown

variable {cfg : AppSettings} {c : Run cfg}

/-- What the shutdown leaves behind: `c` is the state before it and `d` the one after. -/
structure CleanShutdown (c d : Run cfg) : Prop where
  table : d.shared.table = []
  /-- One rollback for each open transaction, and no other RFC. -/
  calls : ∃ later, d.history = later ++ c.history ∧
    record Op.calls later = (c.shared.table.map rollbackCall).reverse
  /-- The open transactions have a connection each. -/
  connections : (c.shared.table.map fun e => e.2.connection).Nodup
  /-- All connections that were ever opened have been closed, each once. -/
  closed : ∀ conn, d.shared.closed.count conn = if conn < d.shared.nextConn then 1 else 0
  idle : d.shared.idle = []
  permits : d.shared.permits = cfg.poolSize

theorem connections_nodup (h : Reachable c) :
    (c.shared.table.map fun e => e.2.connection).Nodup := by
  refine List.nodup_iff_count_le_one.mpr fun conn => ?_
  have hlaw := Hands.connections_conserved (hands_reachable (@program_follows cfg) h) conn
  change (c.shared.idle.count conn + c.shared.closed.count conn +
    c.shared.table.countP (hasConn conn)) + _ = _ at hlaw
  have hcount : (c.shared.table.map fun e => e.2.connection).count conn =
      c.shared.table.countP (hasConn conn) := by
    rw [List.count, List.countP_map]
    refine List.countP_congr fun e _ => ?_
    simp [hasConn]
  rw [hcount]
  split at hlaw <;> omega

/-- What a request did while it ran alone is its thread's trace. -/
theorem Solo.trace {request : Request} {d : Run cfg} (h : Reachable c)
    (hsolo : Solo c.threads.length (c.spawn request) d) :
    ∃ later, d.history = later ++ .start c.threads.length request :: c.history ∧
      record Op.calls later = (traceOf c.threads.length d.history).flatMap
        fun did => did.1.calls did.2 := by
  obtain ⟨later, hlater, honly⟩ := Solo.later hsolo
  have hnew : traceOf c.threads.length c.history = [] := h.traced_unborn (Nat.le_refl _)
  refine ⟨later, hlater, ?_⟩
  rw [hlater, traceOf_append, record_eq_traceOf honly]
  simp [Config.spawn, traceOf, hnew]

theorem clean_shutdown (h : Reachable c) (hquiet : Quiet c) :
    Ends c.threads.length (fun (reply : Except PyExc Answer) d => reply = .ok .done ∧
      Ends d.threads.length (fun (reply : Except PyExc Answer) d' => reply = .ok .done ∧
        CleanShutdown c d') (d.spawn .closeAll)) (c.spawn .close) := by
  refine ends_of_quiet h hquiet .close ?_
  intro d reply hsolo hd hquiet' hget
  obtain ⟨hreply, pending, hclosing⟩ := hd.traced traced_close hget
  obtain ⟨hpending, htable⟩ := (drains_of_solo h hsolo).after pending hclosing.drained
  obtain ⟨later, hlater, hcalls⟩ := Solo.trace h hsolo
  refine ⟨hreply, ends_of_quiet hd hquiet' .closeAll ?_⟩
  intro d' reply' hsolo' hd' hquiet'' hget'
  obtain ⟨hreply', ⟨idle, hswapped⟩, hnocalls⟩ := hd'.traced traced_closeAll hget'
  obtain ⟨htable', hidle⟩ := empties_of_solo hd hsolo'
  obtain ⟨later', hlater', hcalls'⟩ := Solo.trace hd hsolo'
  have hempty : d'.shared.table = [] := htable'.trans htable
  have hnone : d'.shared.idle = [] := hidle idle hswapped
  refine ⟨hreply', hempty, ?_, connections_nodup h, ?_, hnone, ?_⟩
  · refine ⟨later' ++ .start d.threads.length .closeAll ::
      (later ++ [.start c.threads.length .close]), ?_, ?_⟩
    · rw [hlater', hlater]
      simp
    · rw [record_append, hcalls', hnocalls, record_start, record_append, hcalls, hclosing.calls,
        hpending]
      simp [record]
  · intro conn
    have hplaces := connections_of_quiet hd' hquiet'' conn
    rw [hempty, hnone] at hplaces
    simpa using hplaces
  · have hpermits := permits_of_quiet hd' hquiet''
    rw [hempty] at hpermits
    exact hpermits

def isDone {α : Type} : Program Effects α → Bool
  | .ret _ => true
  | .call _ _ => false

theorem quiet_of_all (h : (c.threads.all fun thread => isDone thread.2) = true) : Quiet c := by
  intro t request p hget
  have hdone := List.all_eq_true.mp h _ (List.mem_of_getElem? hget)
  cases p with
  | ret reply => exact ⟨reply, rfl⟩
  | call o next => cases hdone

/-- The shutdown with one open transaction. -/
theorem clean_shutdown_write : ∃ c,
    execute (server sampleSettings).initial (sampleWrite 0) = some c ∧ c.shared.table ≠ [] ∧
      Ends c.threads.length (fun (reply : Except PyExc Answer) d => reply = .ok .done ∧
        Ends d.threads.length (fun (reply : Except PyExc Answer) d' => reply = .ok .done ∧
          CleanShutdown c d') (d.spawn .closeAll)) (c.spawn .close) := by
  have hrun : ((execute (server sampleSettings).initial (sampleWrite 0)).any fun c =>
      (c.threads.all fun thread => isDone thread.2) && !c.shared.table.isEmpty) = true := by
    decide +kernel
  obtain ⟨c, hc, hrest⟩ := (Option.any_eq_true _ _).mp hrun
  obtain ⟨hdone, htable⟩ := Bool.and_eq_true_iff.mp hrest
  refine ⟨c, hc, by simpa using htable, ?_⟩
  exact clean_shutdown (execute_reachable hc) (quiet_of_all hdone)

end Shutdown

end RfcMcp
