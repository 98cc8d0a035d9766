import RfcMcp.Caching.Register
import RfcMcp.Contracts.Asking
import RfcMcp.Contracts.Kwargs

namespace RfcMcp

open Framework Framework.System

section Runs

variable {cfg : AppSettings} {c c' d : Run cfg} {t : ℕ} {id : CacheId} {key : String}
  {value : id.Value}

/-- In `b` thread `t` has been given `value` for its lookup, and it had been stored last in `d`, not
longer than the TTL before. -/
structure GivenIn (t : ℕ) (id : CacheId) (key : String) (value : id.Value) (b d : Run cfg) :
    Prop where
  given : ∃ o v earlier, Gives id key value o v ∧ b.history = .did t o v :: earlier
  stored : Stored b id key value d
  fresh : b.shared.clock ≤ d.shared.clock + cfg.discoveryCacheTtl

theorem Stored.run {u : ℕ} {o : Op} {v : o.Res} (h : Stored c id key value d)
    (hp : Performs c u o v c') (ho : o.stores id key = false) : Stored c' id key value d := by
  obtain ⟨w, hlast, hlooked⟩ := h
  exact ⟨w, hlast.run hp ho, hlooked⟩

theorem stored_of_set (h : Reachable c) (hp : Performs c t (.cacheSet id key value) () c') :
    Stored c' id key value c' := by
  have hkind : Op.stores id key (.cacheSet id key value) = true := by simp [Op.stores]
  obtain ⟨value', hstored, hentry⟩ := stored_of_last (Last.of_performs h hp hkind)
  obtain ⟨_, hperform⟩ := hp
  have hset := entry_of_set (Shared.perform_does hperform)
  dsimp only at hentry
  rw [hset] at hentry
  cases hentry
  exact hstored

theorem given_of_provided (h : Reachable c)
    (hprovided : Provided id key value (traceOf t c.history)) :
    ∃ b d, Leads b c ∧ GivenIn t id key value b d := by
  obtain ⟨o, v, hgives, hmem⟩ := hprovided
  obtain ⟨later, earlier, hhistory⟩ := List.append_of_mem (mem_traceOf.mp hmem)
  obtain ⟨a, b, ha, hp, hlead, _, hb⟩ := h.performed hhistory
  cases hgives with
  | get =>
    obtain ⟨d, hstored, hfresh⟩ := stored_of_found ha hp
    exact ⟨b, d, hlead, ⟨_, _, earlier, .get, hb⟩, hstored.run hp rfl, hfresh⟩
  | set =>
    have hstored := stored_of_set ha hp
    have hfresh : b.shared.clock ≤ b.shared.clock + cfg.discoveryCacheTtl :=
      le_add_of_nonneg_right cfg.discoveryCacheTtl_pos.le
    exact ⟨b, b, hlead, ⟨_, _, earlier, .set, hb⟩, hstored, hfresh⟩

/-- Thread `t` has been given `interface` for a function, and that is what was stored last: made of
SAP's own description of the function, up to letter case. -/
def Described (c : Run cfg) (t : ℕ) (f : String) (interface : FunctionInterface)
    (answer : PyDict) : Prop :=
  ∃ b d u conn name, Leads b c ∧
    GivenIn t .interface (cfg.text.upper f) interface b d ∧
    cfg.text.upper name = cfg.text.upper f ∧
    .did u (.rfcEnd conn "RFC_GET_FUNCTION_INTERFACE" [("FUNCNAME", .str name)]) (.ok answer) ∈
      d.history ∧
    Announces cfg.text answer interface

theorem described_of_provided {f : String} {interface : FunctionInterface} (h : Reachable c)
    (hprovided : Provided .interface (cfg.text.upper f) interface (traceOf t c.history)) :
    ∃ answer, Described c t f interface answer ∧ Announces cfg.text answer interface := by
  obtain ⟨b, d, hlead, hgiven⟩ := given_of_provided h hprovided
  obtain ⟨u, _, after, mid, before, ⟨name, hname, hreplays⟩, htrace⟩ := hgiven.stored
  obtain ⟨conn, answer, hanswer, hannounced⟩ := replays_doGetInterface hreplays
  refine ⟨answer, ⟨b, d, u, conn, name, hlead, hgiven, hname, ?_, hannounced⟩,
    hannounced⟩
  have hmem : ⟨Op.rfcEnd conn "RFC_GET_FUNCTION_INTERFACE" [("FUNCNAME", .str name)],
      .ok answer⟩ ∈ traceOf u d.history := by
    rw [htrace]
    simp [hanswer]
  exact mem_traceOf.mp hmem

/-- What the server tells SAP and its clients about functions is what SAP has told it, not longer
than the TTL after it was stored. -/
structure Informed (c : Run cfg) : Prop where
  /-- A business RFC fits what SAP says about the function and what the client has supplied, -/
  sent : ∀ (b b' : Run cfg) (t : ℕ) conn p f kwargs, Reachable b →
    Performs b t (.rfcBegin conn p f kwargs) () b' → Leads b' c → p.isBusiness = true →
    ∃ request code parameters interface answer, b.threads[t]? = some (request, code) ∧
      request.AsksFor cfg.text f parameters ∧ Described b t f interface answer ∧
      MeetsContract cfg.text answer parameters kwargs
  /-- and the replies to the discovery tools are what was stored last. -/
  searched : ∀ (t : ℕ) pattern group limit found,
    c.threads[t]? = some (.search pattern group limit, .ret (.ok (.summaries found))) →
    ∃ b d, Leads b c ∧
      GivenIn t .search (FunctionCatalog.searchKey cfg.text pattern group limit) found b d
  introspected : ∀ (t : ℕ) f found,
    c.threads[t]? = some (.getInterface f, .ret (.ok (.interface found))) →
    ∃ answer, Described c t f found answer

theorem well_informed (h : Reachable c) : Informed c := by
  constructor
  · intro b b' t conn p f kwargs hb hp _ hbusiness
    obtain ⟨hthread, _⟩ := hp
    have hfollows := hb.disciplined (P := asking cfg) program_asks t _ _ hthread
    rw [localOf_tracing] at hfollows
    obtain ⟨parameters, interface, hasks, hprovided, hbuilt⟩ := hfollows.1 hbusiness
    obtain ⟨answer, hdescribed, hannounced⟩ := described_of_provided hb hprovided
    exact ⟨_, _, parameters, interface, answer, hthread, hasks, hdescribed,
      meetsContract_of_built hannounced hbuilt⟩
  · intro t pattern group limit found hthread
    have htold := h.disciplined (P := asking cfg) program_asks t _ _ hthread
    rw [localOf_tracing] at htold
    exact given_of_provided h htold
  · intro t f found hthread
    have htold := h.disciplined (P := asking cfg) program_asks t _ _ hthread
    rw [localOf_tracing] at htold
    obtain ⟨answer, hdescribed, _⟩ := described_of_provided h htold
    exact ⟨answer, hdescribed⟩

end Runs

section Sample

/-- Thread `t` sends a business RFC. -/
def sendsBusiness (t : ℕ) : Event Effects Request → Bool
  | .did u (.rfcBegin _ p _ _) _ => u == t && p.isBusiness
  | _ => false

theorem well_informed_write :
    ∃ c, execute (server sampleSettings).initial (sampleWrite 0) = some c ∧
      c.history.any (sendsBusiness 0) = true ∧ Informed c := by
  have hrun : ((execute (server sampleSettings).initial (sampleWrite 0)).any
      fun c => c.history.any (sendsBusiness 0)) = true := by decide +kernel
  obtain ⟨c, hc, hsends⟩ := (Option.any_eq_true _ _).mp hrun
  exact ⟨c, hc, hsends, well_informed (execute_reachable hc)⟩

end Sample

end RfcMcp
