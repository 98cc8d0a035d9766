import RfcMcp.Expiry.Reclaim
import RfcMcp.Expiry.Spares
import RfcMcp.Expiry.Waiting

namespace RfcMcp

open Framework Framework.System Framework.Protocol

section Policy

variable {cfg : AppSettings} {trace : Trace Effects}

/-- No transaction is created. -/
@[reducible] def creationless : Protocol Effects := tracing fun o _ => o.area ≠ .create

theorem creationless_within {α : Type} {areas : List Area} {x : Act α} (hx : Within areas x)
    (hareas : areas.contains Area.create = false) :
    creationless.Meets x (fun _ _ => True) (fun _ _ => True) trace := by
  have hkept : creationless.Keeps (fun _ => True) x := by
    refine hx.keeps fun o ho => ⟨fun _ _ => ⟨fun heq => ?_, fun _ => trivial⟩⟩
    rw [heq] at ho
    rw [List.contains_iff_mem.mpr ho] at hareas
    cases hareas
  exact hkept.meets trace trivial

/-- A server that is not in read-write mode refuses every write. -/
theorem creationless_authorize (hmode : cfg.policy.mode ≠ .readWrite) (f : String)
    (parameters : PyDict) : creationless.Meets
      (ExecutionPolicy.authorize cfg.text cfg.policy f "write" parameters) (fun _ _ => False)
      (fun _ _ => True) trace := by
  have hdenied : ∀ table, ∃ reason, ExecutionPolicy.authorizeUnlogged cfg.text cfg.policy f "write"
      table = .error (.policyDenied f "write" reason) := by
    intro table
    unfold ExecutionPolicy.authorizeUnlogged
    split
    · exact ⟨_, rfl⟩
    · exact ⟨_, rfl⟩
  obtain ⟨reason, hreason⟩ := hdenied
    (ExecutionPolicy.genericTableReaderTarget cfg.text cfg.policy f parameters)
  unfold ExecutionPolicy.authorize
  simp only [hreason]
  rw [meets_bind]
  refine And.intro ?_ fun _ => trivial
  simp [Op.area]

theorem creationless_callTransactional (hmode : cfg.policy.mode ≠ .readWrite) (f mode : String)
    (parameters : PyDict) (id : Option TxId) : creationless.Meets
      (ExecutionInvoker.callTransactional cfg (connectionPool cfg) f parameters mode id)
      (fun _ _ => True) (fun _ _ => True) trace := by
  unfold ExecutionInvoker.callTransactional
  rw [meets_bind]
  refine (creationless_within (within_expireTransactions cfg) rfl).mono (fun _ trace _ => ?_)
    fun _ _ _ => trivial
  by_cases hread : mode = "read"
  · rw [if_pos hread]
    split
    · trivial
    · rw [meets_bind]
      exact (creationless_within (within_invokerCall cfg f parameters mode) rfl).mono
        (fun _ _ _ => trivial) fun _ _ _ => trivial
  · rw [if_neg hread]
    split
    · trivial
    · unfold ExecutionInvoker.write
      rw [meets_bind]
      exact (creationless_authorize hmode f parameters).mono (fun _ _ hfalse => hfalse.elim)
        fun _ _ _ => trivial

theorem creationless_program (hmode : cfg.policy.mode ≠ .readWrite) (request : Request) :
    creationless.Follows (fun _ _ => True) (request.program cfg (connectionPool cfg)) [] := by
  have hbind : ∀ {α β : Type} {x : Act α} {answer : α → β},
      creationless.Meets x (fun _ _ => True) (fun _ _ => True) [] →
      creationless.Follows (fun _ _ => True) (do
        let a ← x
        pure (answer a) : Act β) [] := by
    intro α β x answer hx
    have hmeets : creationless.Meets (do
        let a ← x
        pure (answer a) : Act β) (fun _ _ => True) (fun _ _ => True) [] := by
      rw [meets_bind]
      exact hx.mono (fun _ _ _ => trivial) fun _ _ _ => trivial
    exact Follows.mono hmeets fun _ _ _ => trivial
  have hfinish : ∀ id action, Within finishAreas (do
      ExecutionPolicy.authorizeTransactionControl cfg.policy
      ExecutionInvoker.finishTransaction cfg (connectionPool cfg) id action) := fun id action =>
    within_bind ((within_authorizeTransactionControl cfg).mono rfl) fun _ =>
      within_finishTransaction cfg id action
  cases request with
  | call f parameters mode =>
    exact hbind (creationless_within (within_invokerCall cfg f parameters mode) rfl)
  | callTransactional f parameters mode id =>
    exact hbind (creationless_callTransactional hmode f mode parameters id)
  | commit id wait => exact hbind (creationless_within (hfinish id _) rfl)
  | rollback id => exact hbind (creationless_within (hfinish id _) rfl)
  | search pattern group limit =>
    exact hbind (creationless_within (within_search cfg pattern group limit) rfl)
  | getInterface f => exact hbind (creationless_within (within_getInterface cfg f) rfl)
  | readSource objectType objectName =>
    exact hbind (creationless_within (within_readViaRfc cfg objectType objectName) rfl)
  | expireTransactions => exact hbind (creationless_within (within_expireTransactions cfg) rfl)
  | close => exact hbind (creationless_within (within_close cfg) rfl)
  | closeAll => exact hbind (creationless_within within_closeAll rfl)

/-- Where a transaction is open, writes are allowed. -/
theorem readWrite_of_registered {c : Run cfg} {e : Entry} (h : Reachable c)
    (he : e ∈ c.shared.table) : cfg.policy.mode = .readWrite := by
  by_contra hmode
  have hw := hands_reachable (@program_follows cfg) h
  have hseen : (hands c).Seen e := ((Hands.open_iff hw).mpr (.inl he)).seen
  obtain ⟨t, o, v, hdid, hregisters⟩ :=
    mem_record.mp ((mem_registers (@program_follows cfg) h).mpr hseen)
  obtain ⟨later, earlier, hh⟩ := List.append_of_mem hdid
  obtain ⟨_, _, _, hallowed⟩ := h.allowed (P := fun _ => creationless)
    (creationless_program hmode) hh
  cases o with
  | register id a => exact hallowed rfl
  | _ => cases hregisters

end Policy

section Reclaiming

variable {cfg : AppSettings} {c d : Run cfg} {e : Entry} {request : Request}
  {later : History Request}

/-- Thread `t` has done what it does when it asks for a connection, or it has returned. -/
def Served (d : Run cfg) (t : ℕ) : Prop :=
  (∃ request reply, d.threads[t]? = some (request, .ret reply)) ∨
    ∃ acquired, .did t .semAcquire acquired ∈ d.history

/-- `e` is not open any more, thread `t` has rolled it back or closed its connection, and has
returned its permit. -/
structure ReclaimedBy (d : Run cfg) (t : ℕ) (e : Entry) : Prop where
  closed : e ∉ d.shared.table
  reclaimed : Reclaimed (traceOf t d.history) e

/-- `e` is open, nobody has its lock, and at `start` it has been unused for longer than the TTL. -/
structure LeftIdle (c : Run cfg) (e : Entry) (start : Time) : Prop where
  registered : e ∈ c.shared.table
  unlocked : c.shared.holder (.active e.2.ref) = none
  unused : cfg.transactionTtl < start - c.shared.lastUsed e.2.ref

/-- A thread takes out of the table what it expires, as long as it sweeps. -/
theorem expired_of_removes {t : ℕ} {h : History Request}
    (hareas : ∀ did ∈ traceOf t h, did.1.area ∈ reclaimAreas) (he : e ∈ recordOf Op.removes t h) :
    Expired (traceOf t h) e := by
  obtain ⟨o, v, hdid, hremoves⟩ := mem_recordOf.mp he
  have hmem := mem_traceOf.mpr hdid
  have harea := hareas _ hmem
  cases o with
  | removeIfExpired id a cutoff =>
    cases v with
    | true => cases List.mem_singleton.mp hremoves; exact ⟨cutoff, hmem⟩
    | false => cases hremoves
  | removeIfCurrent id a => exact absurd harea (by simp [Op.area, reclaimAreas])
  | drain => exact absurd harea (by simp [Op.area, reclaimAreas])
  | _ => cases hremoves

/-- At every step of the new thread the transaction still waits. -/
theorem waiting_at (h : Reachable c) (he : e ∈ c.shared.table)
    (hfree : c.shared.holder (.active e.2.ref) = none) (hlead : Leads (c.spawn request) d)
    (hlater : d.history = later ++ (c.spawn request).history)
    (huntouched : Untouched c.threads.length e later) {o : Op} {v : o.Res}
    {after before : Trace Effects}
    (htrace : traceOf c.threads.length d.history = after ++ ⟨o, v⟩ :: before) :
    ∃ b b', Reachable b ∧ Performs b c.threads.length o v b' ∧ Waiting c b c.threads.length e ∧
      traceOf c.threads.length b.history = before := by
  rw [hlater, traceOf_append, h.traced_new, List.append_nil] at htrace
  obtain ⟨rest, earlier, rfl, _, hbefore⟩ := traceOf_split htrace
  rw [List.append_assoc] at hlater
  obtain ⟨b, b', hb, hp, _, hhistory⟩ := hlead.performed hlater
  have hspawn : Reachable (c.spawn request) := h.step (.start (Y := server cfg) request)
  refine ⟨b, b', hspawn.leads hb, hp, ?_, ?_⟩
  · refine waiting_of_leads h he hfree hb hhistory fun u o v hdid => ?_
    exact huntouched u o v (List.mem_append_right _ (List.mem_cons_of_mem _ hdid))
  · rw [hhistory, traceOf_append, h.traced_new, List.append_nil]
    exact hbefore

/-- A sweep that comes first expires every abandoned transaction. -/
theorem expired_of_swept {start : Time} (h : Reachable c) (hidle : LeftIdle c e start)
    (hlead : Leads (c.spawn request) d) (hlater : d.history = later ++ (c.spawn request).history)
    (hclock : ∀ now ∈ record Op.readings later, start ≤ now)
    (huntouched : Untouched c.threads.length e later) {sweep : Trace Effects}
    (hswept : Swept cfg.transactionTtl sweep)
    (hsuffix : sweep <:+ traceOf c.threads.length d.history) : Expired sweep e := by
  by_contra hnot
  obtain ⟨rest, hrest⟩ := hsuffix
  -- whatever the sweep has done so far, the transaction is as it was
  have hat : ∀ {o : Op} {v : o.Res} {after before : Trace Effects},
      sweep = after ++ ⟨o, v⟩ :: before → ∃ b b' : Run cfg, Reachable b ∧
        Performs b c.threads.length o v b' ∧ e ∈ b.shared.table ∧
        (∀ u, b.shared.holder (.active e.2.ref) = some u → u = c.threads.length) ∧
        lastUse b.history e = some (b.shared.lastUsed e.2.ref) ∧
        b.shared.lastUsed e.2.ref = c.shared.lastUsed e.2.ref := by
    intro o v after before hsweep
    have htrace : traceOf c.threads.length d.history = (rest ++ after) ++ ⟨o, v⟩ :: before := by
      rw [← hrest, hsweep, List.append_assoc]
    obtain ⟨b, b', hb, hp, hwaiting, hbefore⟩ := waiting_at h hidle.registered
      hidle.unlocked hlead hlater huntouched htrace
    have hpast : ∀ did ∈ traceOf c.threads.length b.history, did ∈ sweep := by
      intro did hdid
      rw [hbefore] at hdid
      rw [hsweep]
      exact List.mem_append_right _ (List.mem_cons_of_mem _ hdid)
    refine ⟨b, b', hb, hp, ?_, hwaiting.unlocked, lastUse_eq hb hwaiting.known, ?_⟩
    · refine hwaiting.registered.resolve_right fun hremoved => hnot ?_
      obtain ⟨cutoff, hexpired⟩ :=
        expired_of_removes (fun did hdid => hswept.areas did (hpast did hdid)) hremoved
      exact ⟨cutoff, hpast _ hexpired⟩
    · refine hwaiting.unused.resolve_right fun hused => ?_
      obtain ⟨a, now, hdid⟩ := hused
      have harea := hswept.areas _ (hpast _ (mem_traceOf.mpr hdid))
      exact absurd harea (by simp [Op.area, reclaimAreas])
  obtain ⟨now, candidates, hsweep⟩ := hswept.begun
  have hcandidate : e ∈ candidates := by
    obtain ⟨later, earlier, htrace⟩ := hsweep
    have hsnapshot : sweep = later ++ (⟨.snapshot, candidates⟩ : Σ o : Op, o.Res) ::
        ([⟨.acquire .transactions, ()⟩, ⟨.monotonic, now⟩] ++ earlier) := by
      rw [← htrace]
      simp
    obtain ⟨b, b', hb, hp, htable, _⟩ := hat hsnapshot
    obtain ⟨_, hperform⟩ := hp
    cases Shared.perform_does hperform with
    | snapshot => exact htable
  have hnow : start ≤ now := by
    have hmem : ⟨.monotonic, now⟩ ∈ traceOf c.threads.length d.history := by
      rw [← hrest]
      exact List.mem_append_right _ (hsweep.subset (by simp))
    rw [hlater, traceOf_append, h.traced_new, List.append_nil] at hmem
    exact hclock now (mem_record.mpr ⟨_, _, _, mem_traceOf.mp hmem, List.mem_singleton.mpr rfl⟩)
  obtain ⟨after, o, v, before, htrace, _, hsettles⟩ :=
    hswept.dealt now candidates hsweep e hcandidate
  obtain ⟨b, b', hb, hp, htable, hfree, hage, hsame⟩ := hat htrace
  have hunused : cfg.transactionTtl < now - b.shared.lastUsed e.2.ref := by
    have hint : ∀ start now ttl last : Int, ttl < start - last → start ≤ now →
        ttl < now - last := by omega
    rw [hsame]
    exact hint start now cfg.transactionTtl _ hidle.unused hnow
  have hids := Hands.ids_nodup (hands_reachable (@program_follows cfg) hb)
  have habandoned : Abandoned b c.threads.length e now :=
    ⟨hfree, lookup_eq_some hids htable, _, hage, hunused⟩
  rw [removed_of_settles hb hp hage habandoned hsettles] at htrace
  refine hnot ⟨now - cfg.transactionTtl, ?_⟩
  rw [htrace]
  exact List.mem_append_right _ List.mem_cons_self

/-- The requests of clients, which may need a pooled connection. -/
def Request.borrows : Request → Bool
  | .call _ _ _ | .callTransactional _ _ _ _ | .commit _ _ | .rollback _ | .search _ _ _
  | .getInterface _ | .readSource _ _ => true
  | .expireTransactions | .close | .closeAll => false

/-- A request without a sweep takes nothing out of the table. -/
theorem removes_of_sweepless (hborrows : request.borrows = true) (hsweeps : request.sweeps = false)
    (hd : Reachable d) {t : ℕ} {p : Program Effects (Except PyExc Answer)}
    (hthread : d.threads[t]? = some (request, p)) : e ∉ recordOf Op.removes t d.history := by
  have hwithin : Within callAreas (request.program cfg (connectionPool cfg)) := by
    cases request with
    | call f parameters mode =>
      exact within_bind (within_invokerCall cfg f parameters mode) fun _ => within_pure _
    | search pattern group limit =>
      exact (within_bind (within_search cfg pattern group limit) fun _ => within_pure _).mono rfl
    | getInterface f =>
      exact (within_bind (within_getInterface cfg f) fun _ => within_pure _).mono rfl
    | readSource objectType objectName =>
      exact within_bind (within_readViaRfc cfg objectType objectName) fun _ => within_pure _
    | callTransactional _ _ _ _ | commit _ _ | rollback _ => cases hsweeps
    | expireTransactions | close | closeAll => cases hborrows
  intro hremoved
  obtain ⟨o, v, hdid, hremoves⟩ := mem_recordOf.mp hremoved
  have harea : o.area ∈ callAreas := hd.only hthread hwithin.area hdid
  cases o with
  | removeIfCurrent id a => exact absurd harea (by simp [Op.area, callAreas])
  | removeIfExpired id a cutoff => exact absurd harea (by simp [Op.area, callAreas])
  | drain => exact absurd harea (by simp [Op.area, callAreas])
  | _ => cases hremoves

/-- When a request that sweeps has asked for a connection or returned, its sweep is over. -/
theorem sweptFirst_of_served (hsweeps : request.sweeps = true)
    (hmode : cfg.policy.mode = .readWrite) (h : Reachable c) (hlead : Leads (c.spawn request) d)
    (hserved : Served d c.threads.length) :
    SweptFirst cfg.transactionTtl (traceOf c.threads.length d.history) := by
  have hspawn : Reachable (c.spawn request) := h.step (.start (Y := server cfg) request)
  have hfollows := sweepFirst_program hmode hsweeps
  cases hserved with
  | inl hreturned =>
    obtain ⟨r, reply, hthread⟩ := hreturned
    obtain ⟨p, hp⟩ := Leads.request hlead (spawn_new c request)
    rw [hp] at hthread
    cases hthread
    exact (hspawn.leads hlead).traced hfollows hp
  | inr hasked =>
    obtain ⟨acquired, hdid⟩ := hasked
    obtain ⟨after, before, htrace⟩ := List.append_of_mem (mem_traceOf.mpr hdid)
    obtain ⟨sweep, hdone, hsuffix⟩ := hlead.guarded h hfollows htrace rfl
    refine ⟨sweep, hdone, hsuffix.trans ?_⟩
    rw [htrace]
    exact (List.suffix_cons _ _).trans (List.suffix_append _ _)

/-- An abandoned transaction is reclaimed before the request asks for a connection or returns,
exactly if the request is one that sweeps. -/
theorem reclaimed_iff (h : Reachable c) (request : Request) (hborrows : request.borrows = true)
    (e : Entry) (start : Time) (hidle : LeftIdle c e start) (d : Run cfg)
    (hlead : Leads (c.spawn request) d) (later : History Request)
    (hlater : d.history = later ++ (c.spawn request).history)
    (hclock : ∀ now ∈ record Op.readings later, start ≤ now)
    (huntouched : Untouched c.threads.length e later) (hserved : Served d c.threads.length) :
    ReclaimedBy d c.threads.length e ↔ request.sweeps = true := by
  have hspawn : Reachable (c.spawn request) := h.step (.start (Y := server cfg) request)
  have hd := hspawn.leads hlead
  constructor
  · intro hreclaimed
    by_contra hnot
    have hsweeps : request.sweeps = false := Bool.eq_false_iff.mpr hnot
    have hwaiting := waiting_of_leads h hidle.registered hidle.unlocked hlead hlater huntouched
    obtain ⟨p, hthread⟩ := Leads.request hlead (spawn_new c request)
    cases hwaiting.registered with
    | inl htable => exact hreclaimed.closed htable
    | inr hremoved => exact removes_of_sweepless hborrows hsweeps hd hthread hremoved
  · intro hsweeps
    have hmode := readWrite_of_registered h hidle.registered
    obtain ⟨sweep, hswept, hsuffix⟩ := sweptFirst_of_served hsweeps hmode h hlead hserved
    have hexpired := expired_of_swept h hidle hlead hlater hclock huntouched hswept hsuffix
    constructor
    · obtain ⟨cutoff, hremoved⟩ := hexpired
      have hdid := mem_traceOf.mp (hsuffix.subset hremoved)
      have hremoves : e ∈ record Op.removes d.history :=
        mem_record.mpr ⟨_, _, _, hdid, List.mem_singleton.mpr rfl⟩
      exact (seen_of_mem_removes (@program_follows cfg) hd hremoves).2
    · obtain ⟨rest, hrest⟩ := hsuffix
      rw [← hrest]
      exact (hswept.reclaimed e hexpired).append rest

end Reclaiming

section Examples

/-- The transaction of the sample write. -/
def sampleEntry : Entry := ("T", ⟨0, 0⟩)

/-- Thread 1 searches for functions, 1000 seconds later. -/
def sampleSearch : List Choice := [.go, .time 1000, .go, .timeout]

/-- What a request has failed with. -/
def failure : Program Effects (Except PyExc Answer) → Option PyExc
  | .ret (.error exc) => some exc
  | .ret (.ok _) | .call _ _ => none

theorem eq_of_failure {p : Program Effects (Except PyExc Answer)} {exc : PyExc}
    (h : failure p = some exc) : p = .ret (.error exc) := by
  cases p with
  | ret r =>
    cases r with
    | ok a => cases h
    | error exc' => cases h; rfl
  | call o next => cases h

theorem leftIdle_sample {c : Run sampleSettings} (hmem : sampleEntry ∈ c.shared.table)
    (hfree : c.shared.holder (.active 0) = none) (hlast : c.shared.lastUsed 0 = 2) :
    LeftIdle c sampleEntry 1000 := by
  refine ⟨hmem, hfree, ?_⟩
  have hunused : sampleSettings.transactionTtl < 1000 - c.shared.lastUsed 0 := by
    rw [hlast]
    decide
  exact hunused

theorem served_of_failure {cfg : AppSettings} {d : Run cfg} {t : ℕ} {exc : PyExc}
    (h : (d.threads[t]?.bind fun thread => failure thread.2) = some exc) : Served d t := by
  obtain ⟨thread, hthread, hfailed⟩ := Option.bind_eq_some_iff.mp h
  left
  rw [hthread]
  exact ⟨thread.1, .error exc, by rw [← eq_of_failure hfailed]⟩

/-- The only permit is held by an expired transaction, and the search fails for want of one. -/
theorem search_times_out : ∃ c d : Run sampleSettings,
    execute (server sampleSettings).initial (sampleWrite 0) = some c ∧
      LeftIdle c sampleEntry 1000 ∧ c.threads.length = 1 ∧
      Solo 1 (c.spawn (.search "Z*" none 10)) d ∧
      (d.threads[1]?.bind fun thread => failure thread.2) =
        some (ConnectionPool.poolTimeout sampleSettings) ∧
      record Op.readings d.history = record Op.readings c.history ∧
      sampleEntry ∈ d.shared.table := by
  have hrun : ((execute (server sampleSettings).initial (sampleWrite 0)).any fun c =>
      decide (sampleEntry ∈ c.shared.table ∧ c.shared.holder (.active 0) = none ∧
        c.shared.lastUsed 0 = 2 ∧ c.threads.length = 1) &&
      (execute (c.spawn (.search "Z*" none 10)) (sampleSearch.map (.run 1))).any fun d =>
        decide ((d.threads[1]?.bind fun thread => failure thread.2) =
            some (ConnectionPool.poolTimeout sampleSettings) ∧
          record Op.readings d.history = record Op.readings c.history ∧
          sampleEntry ∈ d.shared.table)) = true := by
    decide +kernel
  obtain ⟨c, hc, hboth⟩ := (Option.any_eq_true _ _).mp hrun
  obtain ⟨hidle, hsearch⟩ := Bool.and_eq_true_iff.mp hboth
  obtain ⟨hmem, hfree, hlast, hlength⟩ := of_decide_eq_true hidle
  obtain ⟨d, hd, hfails⟩ := (Option.any_eq_true _ _).mp hsearch
  exact ⟨c, d, hc, leftIdle_sample hmem hfree hlast, hlength, solo_of_execute hd,
    of_decide_eq_true hfails⟩

/-- What one thread alone has done, no other has touched. -/
theorem untouched_of_solo {t : ℕ} {e : Entry} {later : History Request}
    (h : ∀ ev ∈ later, ∃ o v, ev = .did t o v) : Untouched t e later := by
  intro u o v hdid hne
  obtain ⟨o', v', heq⟩ := h _ hdid
  cases heq
  exact absurd rfl hne

/-- A search leaves an abandoned transaction open. -/
theorem search_leaves_abandoned : ¬∀ (cfg : AppSettings) (c d : Run cfg) (request : Request)
    (e : Entry) (start : Time) (later : History Request), Reachable c → request.borrows = true →
      LeftIdle c e start → Leads (c.spawn request) d →
      d.history = later ++ (c.spawn request).history →
      (∀ now ∈ record Op.readings later, start ≤ now) → Untouched c.threads.length e later →
      Served d c.threads.length → ReclaimedBy d c.threads.length e := by
  intro hall
  obtain ⟨c, d, hc, hidle, hlength, hsolo, hfailure, hreadings, hkept⟩ := search_times_out
  obtain ⟨later, hlater, honly⟩ := hsolo.later
  have hclock : ∀ now ∈ record Op.readings later, (1000 : Time) ≤ now := by
    rw [hlater, record_append] at hreadings
    have hnone : record Op.readings later = [] := List.self_eq_append_left.mp hreadings.symm
    rw [hnone]
    exact fun _ hnow => absurd hnow List.not_mem_nil
  have huntouched : Untouched c.threads.length sampleEntry later := by
    rw [hlength]
    exact untouched_of_solo honly
  have hserved : Served d c.threads.length := by
    rw [hlength]
    exact served_of_failure hfailure
  have hreclaimed := hall sampleSettings c d _ sampleEntry 1000 later (execute_reachable hc) rfl
    hidle hsolo.leads hlater hclock huntouched hserved
  exact hreclaimed.closed hkept

/-- A commit of the expired transaction reclaims it first. -/
def lateCommit : List Choice :=
  [.go, .time 1000, .go, .go, .go, .go, .go, .go, .go, .go, .go, .answer (.ok []), .go, .go, .go,
    .go, .go, .go, .go, .go, .go, .go]

theorem commit_reclaims : ∃ c d : Run sampleSettings,
    execute (server sampleSettings).initial (sampleWrite 0) = some c ∧
      Solo 1 (c.spawn (.commit "T" true)) d ∧ ReclaimedBy d 1 sampleEntry := by
  have hrun : ((execute (server sampleSettings).initial (sampleWrite 0)).any fun c =>
      decide (sampleEntry ∈ c.shared.table ∧ c.shared.holder (.active 0) = none ∧
        c.shared.lastUsed 0 = 2 ∧ c.threads.length = 1) &&
      (execute (c.spawn (.commit "T" true)) (lateCommit.map (.run 1))).any fun d =>
        decide ((d.threads[1]?.bind fun thread => failure thread.2) =
            some (ExecutionInvoker.transactionNotFound sampleSettings "T") ∧
          record Op.readings d.history = 1000 :: record Op.readings c.history)) = true := by
    decide +kernel
  obtain ⟨c, hc, hboth⟩ := (Option.any_eq_true _ _).mp hrun
  obtain ⟨hidle, hcommit⟩ := Bool.and_eq_true_iff.mp hboth
  obtain ⟨hmem, hfree, hlast, hlength⟩ := of_decide_eq_true hidle
  obtain ⟨d, hd, hends⟩ := (Option.any_eq_true _ _).mp hcommit
  obtain ⟨hfailure, hreadings⟩ := of_decide_eq_true hends
  have hsolo : Solo 1 (c.spawn (.commit "T" true)) d := solo_of_execute hd
  obtain ⟨later, hlater, honly⟩ := hsolo.later
  have hclock : ∀ now ∈ record Op.readings later, (1000 : Time) ≤ now := by
    rw [hlater, record_append] at hreadings
    have hone : record Op.readings later = [1000] :=
      List.append_cancel_right (hreadings.trans (List.singleton_append).symm)
    rw [hone]
    decide
  have hserved : Served d c.threads.length := by
    rw [hlength]
    exact served_of_failure hfailure
  have huntouched : Untouched c.threads.length sampleEntry later := by
    rw [hlength]
    exact untouched_of_solo honly
  have hreclaimed := (reclaimed_iff (execute_reachable hc) (.commit "T" true) rfl sampleEntry 1000
    (leftIdle_sample hmem hfree hlast) d hsolo.leads later hlater hclock huntouched hserved).mpr rfl
  rw [hlength] at hreclaimed
  exact ⟨c, d, hc, hsolo, hreclaimed⟩

end Examples

end RfcMcp
