import RfcMcp.Caching.Uncached
import RfcMcp.Custody.Deadlock
import RfcMcp.Expiry.EntryPoints
import RfcMcp.Writes.Further

namespace RfcMcp

open Framework Framework.System

section Runs

variable {cfg : AppSettings} {c d : Run cfg} {e : Entry} {f : String} {parameters : PyDict}

/-- The request for a further write on `e`. -/
def furtherWrite (e : Entry) (f : String) (parameters : PyDict) : Request :=
  .callTransactional f parameters "write" (some e.1)

/-- `e` is open, and no operation on it is in flight. -/
structure OpenIdle (c : Run cfg) (e : Entry) : Prop where
  registered : e ∈ c.shared.table
  unlocked : c.shared.holder (.active e.2.ref) = none

/-- Since the further write came in at `c`, no other request has taken the transaction up, and when
the write swept, the transaction was not expired. -/
structure Undisturbed (c d : Run cfg) (e : Entry) (f : String) (parameters : PyDict) : Prop where
  untouched : ∀ later, d.history = later ++ (c.spawn (furtherWrite e f parameters)).history →
    Untouched c.threads.length e later
  unexpired : ∀ now candidates, Sweep (traceOf c.threads.length d.history) now candidates →
    now - cfg.transactionTtl ≤ c.shared.lastUsed e.2.ref

section Steps

variable (h : Reachable c) (hidle : OpenIdle c e)
  (hlead : Leads (c.spawn (furtherWrite e f parameters)) d)
  (hundisturbed : Undisturbed c d e f parameters)
include h hidle hlead hundisturbed

/-- The sweep of the further write lets an unexpired transaction be. -/
theorem not_expired {cutoff : Time} {after before : Trace Effects}
    (htrace : traceOf c.threads.length d.history =
      after ++ ⟨.removeIfExpired e.1 e.2 cutoff, true⟩ :: before)
    (hareas : ∀ did ∈ before, did.1.area ∈ reclaimAreas) : False := by
  obtain ⟨later, hlater⟩ := history_suffix hlead
  obtain ⟨b, b', hb, hp, hwaiting, hbefore⟩ := waiting_at h hidle.registered hidle.unlocked hlead
    hlater.symm (hundisturbed.untouched later hlater.symm) htrace
  have hsweeping := @sweeping_program cfg (furtherWrite e f parameters)
  obtain ⟨now, candidates, rfl, hsweep, _⟩ := hlead.guarded h hsweeping htrace
  have hage : now - cfg.transactionTtl ≤ c.shared.lastUsed e.2.ref := by
    apply hundisturbed.unexpired now candidates
    rw [htrace]
    exact hsweep.trans ((List.suffix_cons _ _).trans (List.suffix_append _ _)).isInfix
  obtain ⟨_, hperform⟩ := hp
  cases Shared.perform_does hperform with
  | expired _ hcutoff =>
    cases hwaiting.unused with
    | inl hsame =>
      rw [hsame] at hcutoff
      exact absurd hage (Int.not_le.mpr hcutoff)
    | inr hused =>
      obtain ⟨a, last, hdid⟩ := hused
      have hmem := mem_traceOf.mpr hdid
      rw [hbefore] at hmem
      exact absurd (hareas _ hmem) (by simp [Op.area, reclaimAreas])

variable (hallowed : ExecutionPolicy.authorizeUnlogged cfg.text cfg.policy f "write"
    (ExecutionPolicy.genericTableReaderTarget cfg.text cfg.policy f parameters) = .ok ())
  (hcached : ¬ Missed cfg f (traceOf c.threads.length d.history))
include hallowed hcached

/-- Until the further write has issued its RFC, the transaction is open. -/
theorem open_or_executed {o : Op} {v : o.Res} {after before : Trace Effects}
    (htrace : traceOf c.threads.length d.history = after ++ ⟨o, v⟩ :: before) :
    (∃ b b' : Run cfg, Reachable b ∧ Performs b c.threads.length o v b' ∧ e ∈ b.shared.table) ∨
      Executed cfg f parameters (traceOf c.threads.length d.history) e := by
  obtain ⟨later, hlater⟩ := history_suffix hlead
  obtain ⟨b, b', hb, hp, hwaiting, hbefore⟩ := waiting_at h hidle.registered hidle.unlocked hlead
    hlater.symm (hundisturbed.untouched later hlater.symm) htrace
  cases hwaiting.registered with
  | inl htable => exact .inl ⟨b, b', hb, hp, htable⟩
  | inr hremoved =>
    right
    obtain ⟨o', v', hdid, hremoves⟩ := mem_recordOf.mp hremoved
    obtain ⟨between, earlier, hsplit⟩ := List.append_of_mem (mem_traceOf.mpr hdid)
    have hwhole : traceOf c.threads.length d.history =
        (after ++ ⟨o, v⟩ :: between) ++ ⟨o', v'⟩ :: earlier := by
      rw [htrace, ← hbefore, hsplit]
      simp
    have hpast : ∀ did ∈ earlier, did ∈ traceOf c.threads.length d.history := by
      intro did hmem
      rw [hwhole]
      exact List.mem_append_right _ (List.mem_cons_of_mem _ hmem)
    have hguard := (hlead.guarded h (continuing_program hallowed e.1) hwhole).resolve_left
      fun hmissed => hcached (hpast _ hmissed)
    cases o' with
    | removeIfCurrent id a =>
      cases v' with
      | false => cases hremoves
      | true =>
        cases List.mem_singleton.mp hremoves
        have hexecuted : Executed cfg f parameters earlier (id, a) := hguard
        rw [hwhole, List.append_cons]
        exact hexecuted.append _
    | removeIfExpired id a cutoff =>
      cases v' with
      | false => cases hremoves
      | true =>
        cases List.mem_singleton.mp hremoves
        exact (not_expired h hidle hlead hundisturbed hwhole hguard).elim
    | drain => exact hguard.elim
    | _ => cases hremoves

theorem lookup_answer {v : Option ActiveTransaction}
    (hdid : ⟨.lookup e.1, v⟩ ∈ traceOf c.threads.length d.history) :
    v = some e.2 ∨ Executed cfg f parameters (traceOf c.threads.length d.history) e := by
  obtain ⟨after, before, htrace⟩ := List.append_of_mem hdid
  refine (open_or_executed h hidle hlead hundisturbed hallowed hcached htrace).imp_left ?_
  rintro ⟨b, b', hb, ⟨_, hperform⟩, htable⟩
  have hids := Hands.ids_nodup (hands_reachable (@program_follows cfg) hb)
  cases Shared.perform_does hperform
  exact lookup_eq_some hids htable

theorem isCurrent_answer {v : Bool}
    (hdid : ⟨.isCurrent e.1 e.2, v⟩ ∈ traceOf c.threads.length d.history) :
    v = true ∨ Executed cfg f parameters (traceOf c.threads.length d.history) e := by
  obtain ⟨after, before, htrace⟩ := List.append_of_mem hdid
  refine (open_or_executed h hidle hlead hundisturbed hallowed hcached htrace).imp_left ?_
  rintro ⟨b, b', hb, ⟨_, hperform⟩, htable⟩
  have hids := Hands.ids_nodup (hands_reachable (@program_follows cfg) hb)
  cases Shared.perform_does hperform
  exact decide_eq_true (lookup_eq_some hids htable)

theorem executed_of_settled
    (hsettled : RefusedOrExecuted cfg f parameters (traceOf c.threads.length d.history) e.1) :
    Executed cfg f parameters (traceOf c.threads.length d.history) e := by
  have hlookup : ∀ v, ⟨.lookup e.1, v⟩ ∈ traceOf c.threads.length d.history →
      v = some e.2 ∨ Executed cfg f parameters (traceOf c.threads.length d.history) e :=
    fun v hdid => lookup_answer h hidle hlead hundisturbed hallowed hcached hdid
  cases hsettled with
  | inl hrefused =>
    cases hrefused with
    | inl hnone =>
      refine (hlookup none hnone).resolve_left ?_
      simp
    | inr hgone =>
      obtain ⟨a, hfound, hother⟩ := hgone
      cases hlookup (some a) hfound with
      | inr hexecuted => exact hexecuted
      | inl ha =>
        cases ha
        refine (isCurrent_answer h hidle hlead hundisturbed hallowed hcached hother).resolve_left ?_
        simp
  | inr hissued =>
    obtain ⟨a, hfound, hexecuted⟩ := hissued
    cases hlookup (some a) hfound with
    | inr hexecuted => exact hexecuted
    | inl ha => cases ha; exact hexecuted

end Steps

/-- Besides, the cache has answered the catalog whenever it was asked, and the parameters do for
the interface. -/
structure FromCache (c d : Run cfg) (e : Entry) (f : String) (parameters : PyDict) : Prop
    extends Undisturbed c d e f parameters where
  cached : ¬ Missed cfg f (traceOf c.threads.length d.history)
  fitting : ∀ found, CacheHit cfg f (traceOf c.threads.length d.history) found →
    ∃ kwargs, buildCallKwargs cfg.text found parameters = .ok kwargs

/-- The further write of thread `t` goes on without another permit, and it comes to its RFC. -/
structure Continues (d : Run cfg) (t : ℕ) (e : Entry) (f : String) (parameters : PyDict) :
    Prop where
  permitless : ∀ acquired, .did t .semAcquire acquired ∉ d.history
  timely : ∀ request exc, d.threads[t]? = some (request, .ret (.error exc)) →
    isPoolTimeout exc = false
  executed : ∀ request reply, d.threads[t]? = some (request, .ret reply) →
    Executed cfg f parameters (traceOf t d.history) e

/-- An open transaction continues on its own connection, as long as the interface of the function
is in the cache: the write asks for no permit, and when it has returned, it has issued its RFC
there. And it does return. -/
theorem continues (h : Reachable c) (e : Entry) (hidle : OpenIdle c e) (f : String)
    (parameters : PyDict)
    (hallowed : ExecutionPolicy.authorizeUnlogged cfg.text cfg.policy f "write"
      (ExecutionPolicy.genericTableReaderTarget cfg.text cfg.policy f parameters) = .ok ()) :
    (∀ d, Leads (c.spawn (furtherWrite e f parameters)) d → FromCache c d e f parameters →
        Continues d c.threads.length e f parameters) ∧
      Finishes (fun d => FromCache c d e f parameters →
          Executed cfg f parameters (traceOf c.threads.length d.history) e)
        (c.spawn (furtherWrite e f parameters)) := by
  have hspawn : Reachable (c.spawn (furtherWrite e f parameters)) :=
    h.step (.start (Y := server cfg) _)
  have hconcluded : ∀ d, Leads (c.spawn (furtherWrite e f parameters)) d →
      FromCache c d e f parameters → ∀ request reply,
      d.threads[c.threads.length]? = some (request, .ret reply) →
      Executed cfg f parameters (traceOf c.threads.length d.history) e ∧
        ∀ exc, reply = .error exc → isPoolTimeout exc = false := by
    intro d hlead hfrom request reply hthread
    obtain ⟨p, hp⟩ := Leads.request hlead (spawn_new c (furtherWrite e f parameters))
    rw [hp] at hthread
    cases hthread
    have hfollows := continuing_program hallowed e.1
    have hdone := (hspawn.leads hlead).traced hfollows hp
    obtain ⟨hsettled, htimely⟩ := (Or.resolve_left hdone hfrom.cached).resolve_left
      fun ⟨found, hhit, hnone⟩ => by
        obtain ⟨kwargs, hkwargs⟩ := hfrom.fitting found hhit
        exact hnone kwargs hkwargs
    exact ⟨executed_of_settled h hidle hlead hfrom.toUndisturbed hallowed hfrom.cached hsettled,
      htimely⟩
  constructor
  · intro d hlead hfrom
    constructor
    · intro acquired hdid
      obtain ⟨after, before, htrace⟩ := List.append_of_mem (mem_traceOf.mpr hdid)
      have hguard := hlead.guarded h (continuing_program hallowed e.1) htrace
      refine hguard.elim (fun hmissed => hfrom.cached ?_) fun hfalse => hfalse
      rw [htrace]
      exact List.mem_append_right _ (List.mem_cons_of_mem _ hmissed)
    · intro request exc hthread
      exact (hconcluded d hlead hfrom request _ hthread).2 exc rfl
    · intro request reply hthread
      exact (hconcluded d hlead hfrom request reply hthread).1
  · apply finishes_of_reachable hspawn
    intro d hlead hreturned hfrom
    obtain ⟨p, hp⟩ := Leads.request hlead (spawn_new c (furtherWrite e f parameters))
    obtain ⟨reply, rfl⟩ := hreturned _ _ p hp
    exact (hconcluded d hlead hfrom _ reply hp).1

end Runs

section Examples

theorem undisturbed_of_solo {cfg : AppSettings} {c d : Run cfg} {e : Entry} {f : String}
    {parameters : PyDict} (hsolo : Solo c.threads.length (c.spawn (furtherWrite e f parameters)) d)
    (hreadings : ∀ now ∈ record Op.readings d.history,
      now - cfg.transactionTtl ≤ c.shared.lastUsed e.2.ref) : Undisturbed c d e f parameters := by
  constructor
  · intro later hlater
    obtain ⟨later', hlater', honly⟩ := hsolo.later
    rw [List.append_cancel_right (hlater.symm.trans hlater')]
    exact untouched_of_solo honly
  · intro now candidates hsweep
    have hmem : ⟨.monotonic, now⟩ ∈ traceOf c.threads.length d.history := hsweep.subset (by simp)
    exact hreadings now (mem_record.mpr ⟨_, _, _, mem_traceOf.mp hmem, List.mem_singleton.mpr rfl⟩)

/-- What the cache has answered about interfaces. -/
def Op.interfaces : (o : Op) → o.Res → List (Option FunctionInterface)
  | .cacheGet .interface _, cached => [cached]
  | _, _ => []

/-- The parameters do for the interface that the cache has answered with. -/
def isFitting (T : PyText) (parameters : PyDict) : Option FunctionInterface → Bool
  | some found => (buildCallKwargs T found parameters).isOk
  | none => false

theorem fromCache_of_recorded {cfg : AppSettings} {c d : Run cfg} {e : Entry} {f : String}
    {parameters : PyDict} (hundisturbed : Undisturbed c d e f parameters)
    (hrecord : ∀ cached ∈ recordOf Op.interfaces c.threads.length d.history,
      isFitting cfg.text parameters cached = true) : FromCache c d e f parameters := by
  have hanswer : ∀ cached : Option FunctionInterface,
      ⟨.cacheGet .interface (cfg.text.upper f), cached⟩ ∈ traceOf c.threads.length d.history →
      isFitting cfg.text parameters cached = true := by
    intro cached hdid
    apply hrecord
    exact mem_recordOf.mpr ⟨_, _, mem_traceOf.mp hdid, List.mem_singleton.mpr rfl⟩
  refine ⟨hundisturbed, fun hmissed => ?_, fun found hhit => ?_⟩
  · cases hanswer none hmissed
  · have hok : (buildCallKwargs cfg.text found parameters).isOk = true := hanswer (some found) hhit
    cases hkwargs : buildCallKwargs cfg.text found parameters with
    | ok kwargs => exact ⟨kwargs, rfl⟩
    | error exc => rw [hkwargs] at hok; cases hok

/-- The answers to a write on the open transaction, of a function in the cache. -/
def furtherAnswers : List Choice :=
  [.time 3, .go, .go, .go, .go, .go, .go, .time 3, .go, .go, .go, .go, .go, .go, .go, .go, .go,
    .answer (.ok []), .go, .time 4, .go, .go]

/-- The transaction holds the only permit, and continues. -/
theorem cached_write_continues : ∃ c d : Run sampleSettings,
    execute (server sampleSettings).initial (sampleWrite 0) = some c ∧ c.shared.permits = 0 ∧
      Solo 1 (c.spawn (furtherWrite sampleEntry "Z_WRITE" [])) d ∧
      Executed sampleSettings "Z_WRITE" [] (traceOf 1 d.history) sampleEntry ∧
      Finishes (fun d => FromCache c d sampleEntry "Z_WRITE" [] →
          Executed sampleSettings "Z_WRITE" [] (traceOf 1 d.history) sampleEntry)
        (c.spawn (furtherWrite sampleEntry "Z_WRITE" [])) := by
  have hrun : ((execute (server sampleSettings).initial (sampleWrite 0)).any fun c =>
      decide (sampleEntry ∈ c.shared.table ∧ c.shared.holder (.active 0) = none ∧
        c.shared.lastUsed 0 = 2 ∧ c.threads.length = 1 ∧ c.shared.permits = 0) &&
      (execute (c.spawn (furtherWrite sampleEntry "Z_WRITE" [])) (furtherAnswers.map (.run 1))).any
        fun d => decide (∀ now ∈ record Op.readings d.history, now - 300 ≤ 2) &&
          ((recordOf Op.interfaces 1 d.history).all (isFitting asciiText []) &&
          d.threads.all fun thread => isDone thread.2)) = true := by
    decide +kernel
  obtain ⟨c, hc, hboth⟩ := (Option.any_eq_true _ _).mp hrun
  obtain ⟨hidle, hwrite⟩ := Bool.and_eq_true_iff.mp hboth
  obtain ⟨hmem, hfree, hlast, hlength, hpermits⟩ := of_decide_eq_true hidle
  obtain ⟨d, hd, hends⟩ := (Option.any_eq_true _ _).mp hwrite
  obtain ⟨hreadings, hrest⟩ := Bool.and_eq_true_iff.mp hends
  obtain ⟨hfitting, hdone⟩ := Bool.and_eq_true_iff.mp hrest
  have hsolo : Solo 1 (c.spawn (furtherWrite sampleEntry "Z_WRITE" [])) d := solo_of_execute hd
  obtain ⟨hcontinues, hfinishes⟩ := continues (execute_reachable hc) sampleEntry ⟨hmem, hfree⟩
    "Z_WRITE" [] rfl
  have hundisturbed : Undisturbed c d sampleEntry "Z_WRITE" [] := by
    apply undisturbed_of_solo
    · rw [hlength]
      exact hsolo
    · intro now hnow
      have hlater := of_decide_eq_true hreadings now hnow
      rw [show c.shared.lastUsed sampleEntry.2.ref = 2 from hlast]
      exact hlater
  have hfrom : FromCache c d sampleEntry "Z_WRITE" [] := by
    apply fromCache_of_recorded hundisturbed
    rw [hlength]
    exact List.all_eq_true.mp hfitting
  obtain ⟨p, hp⟩ := Leads.request hsolo.leads (spawn_new c (furtherWrite sampleEntry "Z_WRITE" []))
  obtain ⟨reply, rfl⟩ := quiet_of_all hdone _ _ p hp
  have hexecuted := (hcontinues d hsolo.leads hfrom).executed _ reply hp
  rw [hlength] at hexecuted hfinishes
  exact ⟨c, d, hc, hpermits, hsolo, hexecuted, hfinishes⟩

/-- A backend that answers every RFC with nothing. -/
def answering : AppSettings := { sampleSettings with backend := some fun _ _ => .ok [] }

/-- A write opens a transaction. -/
def openingMoves : List (Move (server answering)) :=
  .start (.callTransactional "Z_WRITE" [] "write" none) :: writeAnswers.map (.run 0)

/-- The answers to a write on the open transaction, of a function that is not in the cache. -/
def uncachedAnswers : List Choice := [.time 3, .go, .go, .go, .go, .go, .go, .time 3, .go, .timeout]

/-- Without the interface in the cache, an open transaction that holds the only permit does not
continue. -/
theorem uncached_write_times_out : ¬∀ (cfg : AppSettings)
    (answer : String → PyDict → Except PyExc PyDict) (c d : Run cfg) (e : Entry) (f : String)
    (parameters : PyDict) (found : FunctionInterface) (kwargs : PyDict),
    cfg.backend = some answer →
    FunctionCatalog.doGetInterface cfg (constantCaller answer) f = Action.ofExcept (.ok found) →
    buildCallKwargs cfg.text found parameters = .ok kwargs →
    ExecutionPolicy.authorizeUnlogged cfg.text cfg.policy f "write"
      (ExecutionPolicy.genericTableReaderTarget cfg.text cfg.policy f parameters) = .ok () →
    Reachable c → OpenIdle c e → Leads (c.spawn (furtherWrite e f parameters)) d →
    Undisturbed c d e f parameters → ∀ request exc,
      d.threads[c.threads.length]? = some (request, .ret (.error exc)) →
      isPoolTimeout exc = false := by
  intro hall
  have hrun : ((execute (server answering).initial openingMoves).any fun c =>
      decide (sampleEntry ∈ c.shared.table ∧ c.shared.holder (.active 0) = none ∧
        c.shared.lastUsed 0 = 2 ∧ c.threads.length = 1) &&
      (execute (c.spawn (furtherWrite sampleEntry "Z_OTHER" [])) (uncachedAnswers.map (.run 1))).any
        fun d => decide ((∀ now ∈ record Op.readings d.history, now - 300 ≤ 2) ∧
          (d.threads[1]?.bind fun thread => failure thread.2) =
            some (ConnectionPool.poolTimeout answering))) = true := by
    decide +kernel
  obtain ⟨c, hc, hboth⟩ := (Option.any_eq_true _ _).mp hrun
  obtain ⟨hidle, hwrite⟩ := Bool.and_eq_true_iff.mp hboth
  obtain ⟨hmem, hfree, hlast, hlength⟩ := of_decide_eq_true hidle
  obtain ⟨d, hd, hends⟩ := (Option.any_eq_true _ _).mp hwrite
  obtain ⟨hreadings, hfailure⟩ := of_decide_eq_true hends
  have hsolo : Solo 1 (c.spawn (furtherWrite sampleEntry "Z_OTHER" [])) d := solo_of_execute hd
  have hundisturbed : Undisturbed c d sampleEntry "Z_OTHER" [] := by
    apply undisturbed_of_solo
    · rw [hlength]
      exact hsolo
    · intro now hnow
      rw [show c.shared.lastUsed sampleEntry.2.ref = 2 from hlast]
      exact hreadings now hnow
  obtain ⟨thread, hthread, hfailed⟩ := Option.bind_eq_some_iff.mp hfailure
  have hreturned : d.threads[c.threads.length]? =
      some (thread.1, .ret (.error (ConnectionPool.poolTimeout answering))) := by
    rw [hlength, hthread, ← eq_of_failure hfailed]
  have hnot := hall answering _ c d sampleEntry "Z_OTHER" []
    { name := "Z_OTHER", parameters := [], exceptions := [] } [] rfl rfl rfl rfl
    (execute_reachable hc) ⟨hmem, hfree⟩ hsolo.leads hundisturbed _ _ hreturned
  cases hnot

end Examples

end RfcMcp
