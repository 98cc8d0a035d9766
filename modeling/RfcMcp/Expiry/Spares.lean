import RfcMcp.Expiry.Ages

namespace RfcMcp

open Framework Framework.System

variable {cfg : AppSettings} {c d : Run cfg} {t : ℕ} {e : Entry} {now : Time}

/-- For a sweep of thread `t` that read the clock at `now`, `e` is abandoned: it is registered, no
other thread has its lock, and it was last used longer ago than the TTL. -/
structure Abandoned (b : Run cfg) (t : ℕ) (e : Entry) (now : Time) : Prop where
  unlocked : ∀ u, b.shared.holder (.active e.2.ref) = some u → u = t
  registered : b.shared.active e.1 = some e.2
  unused : ∃ last, lastUse b.history e = some last ∧ cfg.transactionTtl < now - last

/-- Thread `t` has the lock of `e`, and `e` was abandoned when a sweep of the thread, which has had
the lock since before, took it out of the table. -/
structure Reclaims (d : Run cfg) (t : ℕ) (e : Entry) : Prop where
  locked : d.shared.holder (.active e.2.ref) = some t
  abandoned : ∃ b now candidates, Reachable b ∧ Leads b d ∧
    Sweep (traceOf t b.history) now candidates ∧ e ∈ candidates ∧ Abandoned b t e now ∧
    b.shared.holder (.active e.2.ref) = some t ∧
    .did t (.removeIfExpired e.1 e.2 (now - cfg.transactionTtl)) true :: b.history <:+ d.history

/-- What the sweeps of a run do to the transactions. -/
structure ExpirySpares (c : Run cfg) : Prop where
  /-- Only an abandoned transaction is rolled back by a sweep. -/
  rolled_back : ∀ (later earlier : History Request) t conn e f kwargs,
    c.history = later ++ .did t (.rfcBegin conn (.expire e) f kwargs) () :: earlier →
    ∃ d, Reachable d ∧ Leads d c ∧ d.history = earlier ∧ Reclaims d t e
  /-- Only an abandoned transaction is released by a sweep. -/
  released : ∀ (later earlier : History Request) t conn reusable e cutoff,
    c.history = later ++ .did t (.poolRelease conn reusable (some e)) () :: earlier →
    .did t (.removeIfExpired e.1 e.2 cutoff) true ∈ earlier →
    ∃ d, Reachable d ∧ Leads d c ∧ d.history = earlier ∧ Reclaims d t e
  /-- When the request is done, its sweep has removed each candidate, or the candidate was not
  abandoned at the step that settled it. -/
  swept : ∀ t request reply, c.threads[t]? = some (request, .ret reply) → ∀ now candidates,
    Sweep (traceOf t c.history) now candidates → ∀ e ∈ candidates,
    .did t (.removeIfExpired e.1 e.2 (now - cfg.transactionTtl)) true ∈ c.history ∨
      ∃ b b' o v, Reachable b ∧ Performs b t o v b' ∧ Leads b' c ∧
        Sweep (traceOf t b.history) now candidates ∧ Settles (now - cfg.transactionTtl) e o v ∧
        ¬ Abandoned b t e now
  /-- Then it has no lock any more. -/
  unlocked : ∀ t request reply, c.threads[t]? = some (request, .ret reply) → ∀ l,
    c.shared.holder l ≠ some t
  /-- A write that succeeded is recorded as a use of its transaction. -/
  recorded : ∀ t request value id,
    c.threads[t]? = some (request, .ret (.ok (.written value (some id)))) →
    ∃ a now, .did t (.isCurrent id a) true ∈ c.history ∧ .did t (.setLastUsed a now) () ∈ c.history
  /-- The time of a use is read right after the write, that of the creation right before it. -/
  timed : ∀ (later earlier : History Request) t a now,
    c.history = later ++ .did t (.setLastUsed a now) () :: earlier →
    ∃ rest f kwargs result, traceOf t earlier = ⟨.monotonic, now⟩ :: rest ∧
      ⟨.rfcEnd a.connection f kwargs, .ok result⟩ ∈ rest
  created : ∀ (later earlier : History Request) t conn now ref,
    c.history = later ++ .did t (.newTransaction conn now) ref :: earlier →
    ∃ rest, traceOf t earlier = ⟨.monotonic, now⟩ :: rest

theorem sweepGuard_of (h : Reachable c) {later earlier : History Request} {o : Op} {v : o.Res}
    (hh : c.history = later ++ .did t o v :: earlier) :
    sweepGuard cfg.transactionTtl o (traceOf t earlier) := by
  obtain ⟨_, _, _, hguard⟩ := h.allowed (P := fun _ => sweeping cfg) sweeping_program hh
  rw [localOf_tracing] at hguard
  exact hguard

theorem overdue_iff {ttl last : Time} : ttl < now - last ↔ last < now - ttl := by
  have hint : ∀ now ttl last : Int, ttl < now - last ↔ last < now - ttl := by omega
  exact hint now ttl last

/-- The candidates of a sweep have been in use before. -/
theorem lastUse_candidate (h : Reachable c) {candidates : List Entry}
    (hsweep : Sweep (traceOf t c.history) now candidates) (he : e ∈ candidates) :
    lastUse c.history e = some (c.shared.lastUsed e.2.ref) := by
  have hmem : ⟨.snapshot, candidates⟩ ∈ traceOf t c.history := hsweep.subset List.mem_cons_self
  exact lastUse_eq h (candidate_ref_lt h (mem_traceOf.mp hmem) he)

/-- What a sweep takes out of the table is abandoned. -/
theorem reclaims_of_removed (h : Reachable d) {cutoff : Time}
    (hremoved : .did t (.removeIfExpired e.1 e.2 cutoff) true ∈ d.history)
    (hlocked : d.shared.holder (.active e.2.ref) = some t) : Reclaims d t e := by
  obtain ⟨later, earlier, hh⟩ := List.append_of_mem hremoved
  obtain ⟨now, candidates, rfl, hsweep, he⟩ := sweepGuard_of h hh
  obtain ⟨b, b', hb, hp, hlead, rfl, _⟩ := h.performed hh
  obtain ⟨_, _, hlocks⟩ := hp.allowed (@program_follows cfg) hb
  have hholder := (mem_locks_iff hb _).mp hlocks
  have hage := lastUse_candidate hb hsweep he
  have hleads : Leads b d := Relation.ReflTransGen.head (.run hp) hlead
  refine ⟨hlocked, b, now, candidates, hb, hleads, hsweep, he, ⟨?_, ?_, ?_⟩, hholder, later, ?_⟩
  · intro u hu
    rw [hholder] at hu
    exact (Option.some.inj hu).symm
  · obtain ⟨_, hperform⟩ := hp
    cases Shared.perform_does hperform with
    | expired hid => exact hid
  · refine ⟨_, hage, overdue_iff.mpr ?_⟩
    obtain ⟨_, hperform⟩ := hp
    cases Shared.perform_does hperform with
    | expired _ hcutoff => exact hcutoff
  · exact hh.symm

/-- The step that settles a candidate removes it if it is abandoned. -/
theorem removed_of_settles {b b' : Run cfg} {o : Op} {v : o.Res} (h : Reachable b)
    (hp : Performs b t o v b') (hage : lastUse b.history e = some (b.shared.lastUsed e.2.ref))
    (habandoned : Abandoned b t e now) (hsettles : Settles (now - cfg.transactionTtl) e o v) :
    (⟨o, v⟩ : Σ o : Op, o.Res) =
      ⟨.removeIfExpired e.1 e.2 (now - cfg.transactionTtl), true⟩ := by
  have hold : b.shared.lastUsed e.2.ref < now - cfg.transactionTtl := by
    obtain ⟨last, hlast, hunused⟩ := habandoned.unused
    rw [hage] at hlast
    cases hlast
    exact overdue_iff.mp hunused
  have hallowed := hp.allowed (@program_follows cfg) h
  obtain ⟨_, hperform⟩ := hp
  have hdoes := Shared.perform_does hperform
  cases hsettles with
  | used hused =>
    cases hdoes with
    | readLastUsed => exact absurd hused (Int.not_le.mpr hold)
  | locked =>
    cases hdoes with
    | tryFailed hbusy =>
      obtain ⟨u, hu⟩ := Option.ne_none_iff_exists'.mp hbusy
      obtain rfl := habandoned.unlocked u hu
      obtain ⟨_, _, _, hlocks, _⟩ := hallowed
      have hnone : ((hands b).locals u).locks = [] := hlocks
      have hmem := (mem_locks_iff h _).mpr hu
      rw [hnone] at hmem
      cases hmem
  | @decided removed =>
    cases removed with
    | true => rfl
    | false =>
      cases hdoes with
      | notExpired hnot =>
        cases hnot with
        | inl hgone => exact absurd habandoned.registered hgone
        | inr hyoung => exact absurd hyoung (Int.not_le.mpr hold)

/-- A candidate that a sweep has dealt with is removed, or it was not abandoned. -/
theorem swept_of_dealt (h : Reachable c) {candidates : List Entry} (he : e ∈ candidates)
    (hdealt : DealtWith cfg.transactionTtl (traceOf t c.history) now candidates e) :
    .did t (.removeIfExpired e.1 e.2 (now - cfg.transactionTtl)) true ∈ c.history ∨
      ∃ b b' o v, Reachable b ∧ Performs b t o v b' ∧ Leads b' c ∧
        Sweep (traceOf t b.history) now candidates ∧ Settles (now - cfg.transactionTtl) e o v ∧
        ¬ Abandoned b t e now := by
  obtain ⟨after, o, v, before, htrace, hsweep, hsettles⟩ := hdealt
  obtain ⟨later, earlier, hh, _, rfl⟩ := traceOf_split htrace
  obtain ⟨b, b', hb, hp, hlead, rfl, _⟩ := h.performed hh
  by_cases habandoned : Abandoned b t e now
  · have hremoved := removed_of_settles hb hp (lastUse_candidate hb hsweep he) habandoned hsettles
    cases hremoved
    refine .inl ?_
    rw [hh]
    exact List.mem_append_right _ List.mem_cons_self
  · exact .inr ⟨b, b', o, v, hb, hp, hlead, hsweep, hsettles, habandoned⟩

/-- Expiry never takes a transaction that is in use, and takes every one that is abandoned. -/
theorem expiry_spares (h : Reachable c) : ExpirySpares c := by
  have hdone : ∀ {t : ℕ} {request : Request} {reply : Except PyExc Answer},
      c.threads[t]? = some (request, .ret reply) →
      SweepsDone cfg.transactionTtl reply (traceOf t c.history) := by
    intro t request reply hthread
    have hfollows := h.follows_of (sweeping_program request) hthread
    rw [localOf_tracing] at hfollows
    exact hfollows
  constructor
  · intro later earlier t conn e f kwargs hh
    obtain ⟨cutoff, hremoved⟩ := sweepGuard_of h hh
    obtain ⟨d, d', hd, hp, hlead, rfl, _⟩ := h.performed hh
    obtain ⟨_, _, ⟨_, _, _, hlocks⟩, _⟩ := hp.allowed (@program_follows cfg) hd
    refine ⟨d, hd, Relation.ReflTransGen.head (.run hp) hlead, rfl, ?_⟩
    exact reclaims_of_removed hd (mem_traceOf.mp hremoved) ((mem_locks_iff hd _).mp hlocks)
  · intro later earlier t conn reusable e cutoff hh hremoved
    obtain ⟨d, d', hd, hp, hlead, rfl, _⟩ := h.performed hh
    obtain ⟨_, _, _, _, _, hlocks, _⟩ := hp.allowed (@program_follows cfg) hd
    refine ⟨d, hd, Relation.ReflTransGen.head (.run hp) hlead, rfl, ?_⟩
    exact reclaims_of_removed hd hremoved ((mem_locks_iff hd _).mp hlocks)
  · intro t request reply hthread now candidates hsweep e he
    exact swept_of_dealt h he ((hdone hthread).1 now candidates hsweep e he)
  · intro t request reply hthread l hl
    obtain ⟨request', o, next, hunfinished⟩ := unfinished_of_holder h hl
    rw [hthread] at hunfinished
    cases hunfinished
  · intro t request value id hthread
    obtain ⟨a, hcurrent, now, hset⟩ := (hdone hthread).2 value id rfl
    exact ⟨a, now, mem_traceOf.mp hcurrent, mem_traceOf.mp hset⟩
  · intro later earlier t a now hh
    exact sweepGuard_of h hh
  · intro later earlier t conn now ref hh
    exact sweepGuard_of h hh

/-- A sweep after the TTL finds the transaction of a write and rolls it back. -/
def sampleSweep (t : ℕ) : List (Move (server sampleSettings)) :=
  script t .expireTransactions [.time 1000, .go, .go, .go, .go, .go, .go, .go, .go, .go,
    .answer (.ok []), .go, .go, .go, .go, .go, .go, .go]

theorem expiry_spares_sweep : ∃ c,
    execute (server sampleSettings).initial (sampleWrite 0 ++ sampleSweep 1) = some c ∧
      c.shared.table = [] ∧ c.shared.permits = 1 ∧ ExpirySpares c := by
  have hrun : ((execute (server sampleSettings).initial
      (sampleWrite 0 ++ sampleSweep 1)).any fun c =>
      c.shared.table.isEmpty && c.shared.permits == 1) = true := by
    decide +kernel
  obtain ⟨c, hc, hrest⟩ := (Option.any_eq_true _ _).mp hrun
  obtain ⟨htable, hpermits⟩ := Bool.and_eq_true_iff.mp hrest
  refine ⟨c, hc, List.isEmpty_iff.mp htable, by simpa using hpermits, ?_⟩
  exact expiry_spares (execute_reachable hc)

end RfcMcp
