import RfcMcp.Custody.Shutdown
import RfcMcp.Expiry.EntryPoints

namespace RfcMcp

open Framework Framework.Protocol Framework.System

section Rest

variable {cfg : AppSettings} {c d : Run cfg}

/-- What is not with an open transaction is with the pool: its permits, its connections, and every
lock is free. -/
structure AtRest (c : Run cfg) : Prop where
  permits : c.shared.permits + c.shared.table.length = cfg.poolSize
  places : ∀ conn, conn < c.shared.nextConn → c.shared.idle.count conn +
    c.shared.closed.count conn + c.shared.table.countP (hasConn conn) = 1
  unlocked : ∀ l, c.shared.holder l = none

theorem atRest_of_quiet (h : Reachable c) (hquiet : Quiet c) : AtRest c := by
  refine ⟨permits_of_quiet h hquiet, fun conn hconn => ?_, fun l => ?_⟩
  · have hplaces := connections_of_quiet h hquiet conn
    rw [if_pos hconn] at hplaces
    exact hplaces
  · cases hholder : c.shared.holder l with
    | none => rfl
    | some t =>
      obtain ⟨request, o, next, hthread⟩ := unfinished_of_holder h hholder
      obtain ⟨reply, hreply⟩ := hquiet t _ _ hthread
      cases hreply

end Rest

section Sweep

variable {cfg : AppSettings} {c d : Run cfg}

theorem enters_of_area {o : Op} (ho : o.area ≠ .create) : o.enters = none := by
  cases o <;> first | rfl | exact absurd rfl ho

/-- A sweep does nothing but reclaim. -/
theorem area_of_sweep (h : Reachable c)
    (hsolo : Solo c.threads.length (c.spawn .expireTransactions) d) {d' : Run cfg} {o : Op}
    {v : o.Res} (hp : Performs d c.threads.length o v d') : o.area ∈ reclaimAreas := by
  have hspawn : Reachable (c.spawn .expireTransactions) :=
    h.step (.start (Y := server cfg) .expireTransactions)
  have hlead := (Solo.leads hsolo).tail (.run hp)
  obtain ⟨p, hget⟩ := Leads.request hlead (spawn_new c .expireTransactions)
  have hwithin : Within reclaimAreas
      (Request.program cfg (connectionPool cfg) .expireTransactions) :=
    within_bind (within_expireTransactions cfg) fun _ => within_pure _
  have hdid : .did c.threads.length o v ∈ d'.history := by
    cases hp
    exact List.mem_cons_self
  exact (hspawn.leads hlead).only hget hwithin.area hdid

/-- A sweep that runs alone opens no connection, -/
theorem nextConn_of_sweep (h : Reachable c)
    (hsolo : Solo c.threads.length (c.spawn .expireTransactions) d) :
    d.shared.nextConn = c.shared.nextConn := by
  induction hsolo with
  | refl => rfl
  | @tail d d' hsolo hs ih =>
    obtain ⟨o, v, hp⟩ := hs
    have harea := area_of_sweep h hsolo hp
    obtain ⟨_, hperform⟩ := hp
    have hdoes := Shared.perform_does hperform
    cases hdoes <;> first | exact ih | simp [Op.area, reclaimAreas] at harea

/-- and no transaction. -/
theorem table_of_sweep (h : Reachable c)
    (hsolo : Solo c.threads.length (c.spawn .expireTransactions) d) {e : Entry}
    (he : e ∈ d.shared.table) : e ∈ c.shared.table := by
  have hspawn : Reachable (c.spawn .expireTransactions) :=
    h.step (.start (Y := server cfg) .expireTransactions)
  induction hsolo with
  | refl => exact he
  | @tail d d' hsolo hs ih =>
    obtain ⟨o, v, hp⟩ := hs
    have hd : Reachable d := hspawn.leads (Solo.leads hsolo)
    have harea := area_of_sweep h hsolo hp
    have henters : o.enters = none := by
      refine enters_of_area fun hcreate => ?_
      rw [hcreate] at harea
      exact absurd harea (by decide)
    have hlt := hp.lt
    obtain ⟨hthread, hperform⟩ := hp
    have hfresh := Hands.enters_fresh (hands_reachable (@program_follows cfg) hd) hlt
      (allowed_of_call hd hthread)
    rcases mem_table_of_does (Shared.perform_does hperform) he hfresh with hold | hnew
    · exact ih hold
    · rw [henters] at hnew
      cases hnew

theorem sweptFirst_of_sweep : (sweepFirst cfg).Follows
    (fun reply trace => reply = .ok .done ∧ SweptFirst cfg.transactionTtl trace)
    (Request.program cfg (connectionPool cfg) .expireTransactions) [] := by
  refine (follows_action (ExecutionInvoker.expireTransactions cfg (connectionPool cfg)) _).mpr ?_
  refine (sweepFirst_expireTransactions (by simp)).mono (fun _ _ hswept => ?_)
    fun _ _ hfalse => hfalse.elim
  exact ⟨rfl, hswept⟩

/-- What a sweep leaves behind that has run alone from `c`. -/
structure Recovered (c d : Run cfg) : Prop where
  rest : AtRest d
  opened : d.shared.nextConn = c.shared.nextConn
  kept : ∀ e ∈ d.shared.table, e ∈ c.shared.table
  emptied : ∀ later, d.history = later ++ (c.spawn .expireTransactions).history →
    (∀ now ∈ record Op.readings later, ∀ e ∈ c.shared.table,
      cfg.transactionTtl < now - c.shared.lastUsed e.2.ref) →
    d.shared.table = [] ∧ d.shared.permits = cfg.poolSize

theorem recovered_of_sweep (h : Reachable c) (hrest : AtRest c)
    (hsolo : Solo c.threads.length (c.spawn .expireTransactions) d) (hquiet : Quiet d)
    (hswept : SweptFirst cfg.transactionTtl (traceOf c.threads.length d.history)) :
    Recovered c d := by
  have hspawn : Reachable (c.spawn .expireTransactions) :=
    h.step (.start (Y := server cfg) .expireTransactions)
  have hd : Reachable d := hspawn.leads hsolo.leads
  have hrest' : AtRest d := atRest_of_quiet hd hquiet
  refine ⟨hrest', nextConn_of_sweep h hsolo, fun e he => table_of_sweep h hsolo he,
    fun later hlater hlate => ?_⟩
  have hempty : d.shared.table = [] := by
    refine List.eq_nil_iff_forall_not_mem.mpr fun e he => ?_
    have hopen := table_of_sweep h hsolo he
    obtain ⟨sweep, hdone, hsuffix⟩ := hswept
    have honly : ∀ ev ∈ later, ∃ o v, ev = .did c.threads.length o v := by
      obtain ⟨later', hlater', honly⟩ := Solo.later hsolo
      rw [hlater, List.append_cancel_right_eq] at hlater'
      rw [hlater']
      exact honly
    -- the moment from which on the transaction has been unused for too long
    have hidle : LeftIdle c e (c.shared.lastUsed e.2.ref + cfg.transactionTtl + 1) :=
      ⟨hopen, hrest.unlocked _, by
        have hint : ∀ last ttl : Int, ttl < last + ttl + 1 - last := by omega
        exact hint _ _⟩
    have hclock : ∀ now ∈ record Op.readings later,
        c.shared.lastUsed e.2.ref + cfg.transactionTtl + 1 ≤ now := by
      intro now hnow
      have hint : ∀ now last ttl : Int, ttl < now - last → last + ttl + 1 ≤ now := by omega
      exact hint _ _ _ (hlate now hnow e hopen)
    obtain ⟨cutoff, hremoved⟩ := expired_of_swept h hidle hsolo.leads hlater hclock
      (untouched_of_solo honly) hdone hsuffix
    have hdid := mem_traceOf.mp (hsuffix.subset hremoved)
    have hremoves : e ∈ record Op.removes d.history :=
      mem_record.mpr ⟨_, _, _, hdid, List.mem_singleton.mpr rfl⟩
    exact (seen_of_mem_removes (@program_follows cfg) hd hremoves).2 he
  have hpermits := hrest'.permits
  rw [hempty] at hpermits
  exact ⟨hempty, hpermits⟩

end Sweep

section Recovery

variable {cfg : AppSettings} {c : Run cfg}

/-- However the requests interleave and whatever SAP answers, they all return, and nothing is lost
on the way: the permits and connections that are not the pool's are those of open transactions, and
one sweep after their time brings these back as well. -/
theorem capacity_recovers (h : Reachable c) :
    Finishes (fun d => AtRest d ∧
      Ends d.threads.length (fun (reply : Except PyExc Answer) d' => reply = .ok .done ∧
        Recovered d d') (d.spawn .expireTransactions)) c := by
  refine finishes_of_reachable h fun d hlead hreturned => ?_
  have hd : Reachable d := h.leads hlead
  have hrest : AtRest d := atRest_of_quiet hd hreturned
  refine ⟨hrest, ends_of_quiet hd hreturned .expireTransactions ?_⟩
  intro d' reply hsolo hd' hquiet hget
  obtain ⟨hreply, hswept⟩ := hd'.traced sweptFirst_of_sweep hget
  exact ⟨hreply, recovered_of_sweep hd hrest hsolo hquiet hswept⟩

/-- In the middle of a write, with its connection borrowed. -/
theorem capacity_recovers_write : ∃ c,
    execute (server sampleSettings).initial (script 0 (.callTransactional "Z_WRITE" [] "write" none)
        (writeAnswers.take 40)) = some c ∧ c.shared.permits = 0 ∧
      Finishes (fun d => AtRest d ∧
        Ends d.threads.length (fun (reply : Except PyExc Answer) d' => reply = .ok .done ∧
          Recovered d d') (d.spawn .expireTransactions)) c := by
  have hrun : ((execute (server sampleSettings).initial
      (script 0 (.callTransactional "Z_WRITE" [] "write" none) (writeAnswers.take 40))).any
      fun c => c.shared.permits == 0) = true := by decide +kernel
  obtain ⟨c, hc, hpermits⟩ := (Option.any_eq_true _ _).mp hrun
  exact ⟨c, hc, eq_of_beq hpermits, capacity_recovers (execute_reachable hc)⟩

end Recovery

end RfcMcp
