import RfcMcp.Caching.Catalog
import RfcMcp.Framework.Trace
import RfcMcp.Mcp.Server

namespace RfcMcp

open Framework Framework.System

/-- The same answer, up to the letter case of the name that an interface is returned under. -/
def SameAnswer (T : PyText) : Except PyExc Found → Except PyExc Found → Prop
  | .ok (.interface f), .ok (.interface f') =>
    T.upper f.name = T.upper f'.name ∧ { f with name := f'.name } = f'
  | r, r' => r = r'

theorem SameAnswer.refl (T : PyText) (r : Except PyExc Found) : SameAnswer T r r := by
  unfold SameAnswer
  split
  · exact ⟨rfl, rfl⟩
  · rfl

section Calls

variable {cfg : AppSettings} {backend : String → PyDict → Except PyExc PyDict} {q : Query}
  {r : Except PyExc Found}

/-- The call goes through the cache, with what it would find without. -/
structure Cached (cfg : AppSettings) (backend : String → PyDict → Except PyExc PyDict) (q : Query)
    (id : CacheId) (key : String) (found : Except PyExc id.Value) (wrap : id.Value → Found) :
    Prop where
  program : q.program cfg backend = cachedCall id key found wrap
  uncached : q.uncached cfg backend = Action.ofExcept (found.map wrap)

theorem cached_search {p : String} {g : Option String} {l : Int}
    {found : Except PyExc (List FunctionSummary)}
    (h : FunctionCatalog.doSearch cfg (constantCaller backend) p g l = Action.ofExcept found) :
    Cached cfg backend (.search p g l) .search (FunctionCatalog.searchKey cfg.text p g l) found
      .summaries := by
  constructor
  · exact congrArg (fun x =>
      TTLCache.getOrSet .search (FunctionCatalog.searchKey cfg.text p g l) x >>= fun value =>
        (pure (.summaries value) : Act Found)) h
  · refine (congrArg (fun x => x >>= fun value => (pure (.summaries value) : Act Found)) h).trans ?_
    cases found <;> rfl

theorem cached_getInterface {name : String} {found : Except PyExc FunctionInterface}
    (h : FunctionCatalog.doGetInterface cfg (constantCaller backend) name = Action.ofExcept found) :
    Cached cfg backend (.getInterface name) .interface (cfg.text.upper name) found .interface := by
  constructor
  · exact congrArg (fun x => TTLCache.getOrSet .interface (cfg.text.upper name) x >>=
      fun value => (pure (.interface value) : Act Found)) h
  · refine (congrArg (fun x => x >>= fun value => (pure (.interface value) : Act Found)) h).trans ?_
    cases found <;> rfl

theorem Cached.fill {id : CacheId} {key : String} {found : Except PyExc id.Value}
    {wrap : id.Value → Found} (h : Cached cfg backend q id key found wrap) (t : ℕ) {s : Shared}
    (hfree : s.holder (.cache id) = none) (hmiss : (s.cache id).lookup key = none) : ∃ s',
      Outcome (catalog cfg backend) t s (q.program cfg backend) (found.map wrap) s' ∧
      s'.holder (.cache id) = none ∧ s'.clock = s.clock ∧ ∀ value, found = .ok value →
        (s'.cache id).lookup key = some (s.clock + cfg.discoveryCacheTtl, value) := by
  rw [h.program]
  exact outcome_fill hfree hmiss

theorem cached_of_query (cfg : AppSettings) (backend : String → PyDict → Except PyExc PyDict)
    (q : Query) : ∃ id key found wrap, Cached cfg backend q id key found wrap := by
  cases q with
  | search p g l =>
    obtain ⟨found, hfound⟩ := doSearch_result cfg backend p g l
    exact ⟨_, _, _, _, cached_search hfound⟩
  | getInterface name =>
    obtain ⟨found, hfound⟩ := doGetInterface_found cfg backend name
    exact ⟨_, _, _, _, cached_getInterface hfound⟩

theorem ofExcept_inj {r r' : Except PyExc Found}
    (h : (Action.ofExcept r : Act Found) = Action.ofExcept r') : r = r' := Program.ret.inj h

/-- A fresh catalog answers what is found without a cache. -/
theorem fresh_iff : Fresh cfg backend q r ↔ q.uncached cfg backend = Action.ofExcept r := by
  obtain ⟨id, key, found, wrap, hcached⟩ := cached_of_query cfg backend q
  unfold Fresh
  rw [hcached.program, hcached.uncached]
  constructor
  · intro h
    obtain ⟨s, h⟩ := h
    rw [outcome_miss rfl h]
  · intro h
    obtain ⟨s, hfill, _⟩ := hcached.fill (s := Shared.initial cfg) 0 rfl rfl
    rw [hcached.program] at hfill
    rw [← ofExcept_inj h]
    exact ⟨s, hfill⟩

end Calls

section Validity

variable (cfg : AppSettings) (backend : String → PyDict → Except PyExc PyDict)
  (asked : Query → Prop)

/-- A cache entry that some call may have left. -/
def Valid : (id : CacheId) → String → id.Value → Prop
  | .search, key, value => ∃ p g l, asked (.search p g l) ∧
      FunctionCatalog.searchKey cfg.text p g l = key ∧
      FunctionCatalog.doSearch cfg (constantCaller backend) p g l = Action.ofExcept (.ok value)
  | .interface, key, value => ∃ name, cfg.text.upper name = key ∧
      FunctionCatalog.doGetInterface cfg (constantCaller backend) name = Action.ofExcept (.ok value)

/-- The thread has got only such entries from the cache. -/
def Honest (trace : Trace Effects) : Prop :=
  ∀ (id : CacheId) (key : String) (value : id.Value), ⟨.cacheGet id key, some value⟩ ∈ trace →
    Valid cfg backend asked id key value

/-- Given honest entries, a call that was asked for puts honest entries into the cache. -/
def cacheGuard (q : Query) (o : Op) (trace : Trace Effects) : Prop :=
  match o with
  | .cacheSet id key value =>
    asked q → Honest cfg backend asked trace → Valid cfg backend asked id key value
  | _ => True

/-- The call is answered as without a cache. -/
def Answered (q : Query) (r : Except PyExc Found) : Prop :=
  ∃ r', q.uncached cfg backend = Action.ofExcept r' ∧ SameAnswer cfg.text r r'

variable {cfg backend asked} {q : Query}

theorem follows_cachedCall {id : CacheId} {key : String} {found : Except PyExc id.Value}
    {wrap : id.Value → Found}
    (hfound : asked q → ∀ value, found = .ok value → Valid cfg backend asked id key value)
    (hown : Answered cfg backend q (found.map wrap))
    (hhit : asked q → ∀ value, Valid cfg backend asked id key value →
      Answered cfg backend q (.ok (wrap value))) :
    (tracing (cacheGuard cfg backend asked q)).Follows
      (fun r trace => asked q → Honest cfg backend asked trace → Answered cfg backend q r)
      (cachedCall id key found wrap) [] := by
  rw [cachedCall_eq]
  refine ⟨trivial, fun _ => ⟨trivial, fun cached => ⟨trivial, fun _ => ?_⟩⟩⟩
  cases cached with
  | some value =>
    intro hasked hhonest
    refine hhit hasked value (hhonest id key value ?_)
    simp
  | none =>
    cases found with
    | error exc => exact fun _ _ => hown
    | ok value =>
      refine ⟨trivial, fun _ => ⟨fun hasked _ => hfound hasked value rfl, fun _ => ?_⟩⟩
      exact ⟨trivial, fun _ _ _ => hown⟩

/-- No two searches that were asked for have the same limit and, joined by the separator, the same
upper-cased pattern and group, unless the backend is asked the same for both. -/
def Unambiguous (T : PyText) (asked : Query → Prop) : Prop :=
  ∀ p g p' g' limit, asked (.search p g limit) → asked (.search p' g' limit) →
    T.upper p ++ "|" ++ T.upper (g.getD "") = T.upper p' ++ "|" ++ T.upper (g'.getD "") →
    upperArguments T (FunctionCatalog.searchKwargs p g) =
      upperArguments T (FunctionCatalog.searchKwargs p' g')

theorem answered_of_eq {r : Except PyExc Found}
    (h : q.uncached cfg backend = Action.ofExcept r) : Answered cfg backend q r :=
  ⟨r, h, .refl cfg.text r⟩

/-- Whatever a call finds in the cache, it answers as without one. -/
theorem follows_query (hbackend : UpperOnly cfg.text backend) (h : Unambiguous cfg.text asked)
    (q : Query) : (tracing (cacheGuard cfg backend asked q)).Follows
      (fun r trace => asked q → Honest cfg backend asked trace → Answered cfg backend q r)
      (q.program cfg backend) [] := by
  cases q with
  | search p g l =>
    obtain ⟨found, hfound⟩ := doSearch_result cfg backend p g l
    have hcached := cached_search hfound
    rw [hcached.program]
    refine follows_cachedCall (fun hasked value hvalue => ?_) (answered_of_eq hcached.uncached)
      fun hasked value hvalid => ?_
    · subst hvalue
      exact ⟨p, g, l, hasked, rfl, hfound⟩
    · obtain ⟨p', g', l', hasked', hkey, hfound'⟩ := hvalid
      obtain ⟨hquery, rfl⟩ := (searchKey_eq_iff cfg.text).mp hkey
      have hsame := h p' g' p g l' hasked' hasked hquery
      rw [doSearch_congr cfg hbackend hsame] at hfound'
      exact answered_of_eq (cached_search hfound').uncached
  | getInterface name =>
    obtain ⟨found, hfound⟩ := doGetInterface_found cfg backend name
    have hcached := cached_getInterface hfound
    rw [hcached.program]
    refine follows_cachedCall (fun _ value hvalue => ?_) (answered_of_eq hcached.uncached)
      fun _ value hvalid => ?_
    · subst hvalue
      exact ⟨name, rfl, hfound⟩
    · obtain ⟨name', hname, hfound'⟩ := hvalid
      obtain ⟨r, hr⟩ := doGetInterface_result cfg hbackend name
      rw [hr name' hname] at hfound'
      have hvalue : r.map (named name') = .ok value := Program.ret.inj hfound'
      obtain ⟨details, rfl, rfl⟩ : ∃ details, r = .ok details ∧ named name' details = value := by
        cases r with
        | ok details => exact ⟨details, rfl, Except.ok.inj hvalue⟩
        | error exc => cases hvalue
      have huncached := (cached_getInterface (hr name rfl)).uncached
      exact ⟨.ok (.interface (named name details)), huncached, hname, rfl⟩

end Validity

section Runs

variable {cfg : AppSettings} {backend : String → PyDict → Except PyExc PyDict}
  {asked : Query → Prop} {c : (catalog cfg backend).Config}

/-- All calls of the run were asked for. -/
def Asked (asked : Query → Prop) (c : (catalog cfg backend).Config) : Prop :=
  ∀ (t : ℕ) (q : Query) (p : Program Effects (Except PyExc Found)),
    c.threads[t]? = some (q, p) → asked q

theorem get_entries {α : Type} {store rest : CacheStore α} {now : Time} {key : String}
    {hit : Option α} (h : store.get now key = (hit, rest)) :
    (∀ e ∈ rest, e ∈ store) ∧
      ∀ value, hit = some value → ∃ expiresAt, (key, expiresAt, value) ∈ store := by
  unfold CacheStore.get at h
  cases hlookup : store.lookup key with
  | none =>
    rw [hlookup] at h
    cases h
    exact ⟨fun _ he => he, fun _ hvalue => by cases hvalue⟩
  | some entry =>
    obtain ⟨expiresAt, value⟩ := entry
    rw [hlookup] at h
    dsimp only at h
    by_cases hold : expiresAt < now
    · rw [if_pos hold] at h
      cases h
      exact ⟨fun _ he => (List.mem_filter.mp he).1, fun _ hvalue => by cases hvalue⟩
    · rw [if_neg hold] at h
      cases h
      refine ⟨fun _ he => he, fun value hvalue => ⟨expiresAt, ?_⟩⟩
      cases hvalue
      exact lookup_mem hlookup

variable {t : ℕ} {s s' : Shared} {I : (id : CacheId) → String → id.Value → Prop}

/-- What holds of all cache entries still does, if it holds of what is put there. -/
theorem cache_step {o : Op} {v : o.Res} (hdoes : Does cfg t s o v s')
    (hcaches : ∀ id, ∀ e ∈ s.cache id, I id e.1 e.2.2)
    (hset : ∀ id key value, o = .cacheSet id key value → I id key value) :
    ∀ id, ∀ e ∈ s'.cache id, I id e.1 e.2.2 := by
  have hupdate : ∀ (id' : CacheId) (store : CacheStore id'.Value),
      (∀ e ∈ store, I id' e.1 e.2.2) → ∀ id, ∀ e ∈ Function.update s.cache id' store id,
        I id e.1 e.2.2 := by
    intro id' store hstore id e he
    by_cases hid : id = id'
    · subst hid
      rw [Function.update_self] at he
      exact hstore e he
    · rw [Function.update_of_ne hid] at he
      exact hcaches id e he
  cases hdoes with
  | @cacheGet id' key now hit store _ hget =>
    exact hupdate id' store fun e he => hcaches id' e ((get_entries hget).1 e he)
  | @cacheSet id' key value now _ =>
    refine hupdate id' _ fun e he => ?_
    cases mem_set he with
    | inl hnew => rw [hnew]; exact hset id' key value rfl
    | inr hold => exact hcaches id' e hold
  | _ => exact hcaches

theorem cache_hit {id : CacheId} {key : String} {v : Option id.Value}
    (hdoes : Does cfg t s (.cacheGet id key) v s')
    (hcaches : ∀ id, ∀ e ∈ s.cache id, I id e.1 e.2.2)
    {value : id.Value} (hv : v = some value) : I id key value := by
  cases hdoes with
  | cacheGet _ hget =>
    obtain ⟨expiresAt, hmem⟩ := (get_entries hget).2 value hv
    exact hcaches id _ hmem

theorem Asked.before {c' : (catalog cfg backend).Config} {o : Op} {v : o.Res}
    (hp : Performs c t o v c') (h : Asked asked c') : Asked asked c := by
  intro u q p hget
  obtain ⟨hthread, _⟩ := hp
  by_cases hu : u = t
  · subst hu
    rw [hthread] at hget
    cases hget
    exact h u _ _ (List.getElem?_set_self (List.getElem?_eq_some_iff.mp hthread).1)
  · exact h u q p ((List.getElem?_set_ne (Ne.symm hu)).trans hget)

/-- The caches and what the threads have got from them are honest. -/
theorem honest_run (hbackend : UpperOnly cfg.text backend)
    (hunambiguous : Unambiguous cfg.text asked) (h : Reachable c) (hasked : Asked asked c) :
    (∀ id, ∀ e ∈ c.shared.cache id, Valid cfg backend asked id e.1 e.2.2) ∧
      ∀ t, Honest cfg backend asked (traceOf t c.history) := by
  refine Reachable.induction (I := fun c : (catalog cfg backend).Config => Asked asked c →
    (∀ id, ∀ e ∈ c.shared.cache id, Valid cfg backend asked id e.1 e.2.2) ∧
      ∀ t, Honest cfg backend asked (traceOf t c.history)) ?_ ?_ ?_ h hasked
  · intro _
    constructor
    · intro id e he
      cases he
    · intro t id key value hmem
      cases hmem
  · intro c q _ ih hasked
    refine ih fun t q p hget => hasked t q p ?_
    exact (List.getElem?_append_left (List.getElem?_eq_some_iff.mp hget).1).trans hget
  · intro c t o v c' hc ih hp hasked
    have hpast := hasked.before hp
    obtain ⟨hcaches, hhonest⟩ := ih hpast
    obtain ⟨hthread, hperform⟩ := hp
    have hdoes := Shared.perform_does hperform
    have hfollows := hc.follows_of (follows_query hbackend hunambiguous _) hthread
    rw [localOf_tracing] at hfollows
    constructor
    · refine cache_step hdoes hcaches fun id key value ho => ?_
      subst ho
      exact hfollows.1 (hpast t _ _ hthread) (hhonest t)
    · intro u id key value hmem
      rw [mem_traceOf] at hmem
      cases List.mem_cons.mp hmem with
      | inl hnow =>
        cases hnow
        exact cache_hit hdoes hcaches rfl
      | inr hold => exact hhonest u id key value (mem_traceOf.mpr hold)

/-- Every call that has returned was answered as by a catalog with an empty cache. -/
def Transparent (c : (catalog cfg backend).Config) : Prop :=
  ∀ (t : ℕ) (q : Query) (r : Except PyExc Found), c.threads[t]? = some (q, .ret r) →
    ∃ r', (∀ r'', Fresh cfg backend q r'' ↔ r'' = r') ∧ SameAnswer cfg.text r r'

theorem transparent_of_unambiguous (hbackend : UpperOnly cfg.text backend)
    (hunambiguous : Unambiguous cfg.text asked) (h : Reachable c) (hasked : Asked asked c) :
    Transparent c := by
  intro t q r hthread
  have hfollows := h.follows_of (follows_query hbackend hunambiguous q) hthread
  rw [localOf_tracing] at hfollows
  obtain ⟨r', huncached, hsame⟩ := hfollows (hasked t q _ hthread)
    ((honest_run hbackend hunambiguous h hasked).2 t)
  refine ⟨r', fun r'' => ?_, hsame⟩
  rw [fresh_iff, huncached]
  constructor
  · intro heq
    exact (ofExcept_inj heq).symm
  · intro heq
    rw [heq]

/-- A backend that has an answer for one search only. -/
noncomputable def onlyAnswers (T : PyText) (p : String) (g : Option String) (_function : String)
    (kwargs : PyDict) : Except PyExc PyDict :=
  open Classical in
  if upperArguments T kwargs = upperArguments T (FunctionCatalog.searchKwargs p g) then
    .ok [("FUNCTIONS", .list [])]
  else .error (.valueError "")

theorem onlyAnswers_upperOnly (T : PyText) (p : String) (g : Option String) :
    UpperOnly T (onlyAnswers T p g) := by
  intro function kwargs kwargs' hsame
  unfold onlyAnswers
  rw [hsame]

theorem searchRows_nil (T : PyText) (l : Int) :
    FunctionCatalog.searchRows T l [("FUNCTIONS", .list [])] = .ok [] := by
  have hnone : PyValue.takeTo l ([] : List PyValue) = [] := by
    unfold PyValue.takeTo
    split <;> exact List.take_nil
  show FunctionCatalog.searchSummaries T (PyValue.takeTo l []) = .ok []
  rw [hnone]
  rfl

/-- The run goes on with one more call. -/
theorem call_run (h : Reachable c) (hasked : Asked asked c) {q : Query} (hq : asked q)
    {r : Except PyExc Found} {s' : Shared}
    (hcall : Outcome (catalog cfg backend) c.threads.length c.shared (q.program cfg backend) r s') :
    ∃ d : (catalog cfg backend).Config, Reachable d ∧ Asked asked d ∧
      d.threads[c.threads.length]? = some (q, .ret r) ∧ d.shared = s' := by
  obtain ⟨d, hsolo, hret, hshared⟩ := solo_of_outcome (c := c.spawn q) hcall (spawn_new c q)
  refine ⟨d, (h.step (.start q)).leads hsolo.leads, ?_, hret, hshared⟩
  intro u q' p hget
  by_cases hu : u = c.threads.length
  · rw [hu, hret] at hget
    cases hget
    exact hq
  · rw [hsolo.others hu] at hget
    have hlt : u < c.threads.length := by
      have hlen := (List.getElem?_eq_some_iff.mp hget).1
      simp only [Config.spawn, List.length_append, List.length_singleton] at hlen
      omega
    rw [Config.spawn, List.getElem?_append_left hlt] at hget
    exact hasked u q' p hget

/-- The first call is answered by the backend, the second one by the entry that it has left. -/
theorem collision_run {p p' : String} {g g' : Option String} {l : Int}
    (hp : asked (.search p g l)) (hp' : asked (.search p' g' l))
    (hquery : cfg.text.upper p ++ "|" ++ cfg.text.upper (g.getD "") =
      cfg.text.upper p' ++ "|" ++ cfg.text.upper (g'.getD ""))
    (hdistinct : upperArguments cfg.text (FunctionCatalog.searchKwargs p g) ≠
      upperArguments cfg.text (FunctionCatalog.searchKwargs p' g')) :
    ∃ c : (catalog cfg (onlyAnswers cfg.text p g)).Config,
      Reachable c ∧ Asked asked c ∧ ¬ Transparent c := by
  have hfound : FunctionCatalog.doSearch cfg (constantCaller (onlyAnswers cfg.text p g)) p g l =
      Action.ofExcept (.ok []) := by
    unfold FunctionCatalog.doSearch constantCaller onlyAnswers
    rw [if_pos rfl]
    exact congrArg Action.ofExcept (searchRows_nil cfg.text l)
  have hfound' : FunctionCatalog.doSearch cfg (constantCaller (onlyAnswers cfg.text p g)) p' g' l =
      Action.ofExcept (.error (.valueError "")) := by
    unfold FunctionCatalog.doSearch constantCaller onlyAnswers
    rw [if_neg (Ne.symm hdistinct)]
    rfl
  have hkey : FunctionCatalog.searchKey cfg.text p g l =
      FunctionCatalog.searchKey cfg.text p' g' l :=
    (searchKey_eq_iff cfg.text).mpr ⟨hquery, rfl⟩
  have hcached' := cached_search hfound'
  rw [← hkey] at hcached'
  obtain ⟨s₁, hfirst, hfree, hclock, hentry⟩ :=
    (cached_search hfound).fill (s := Shared.initial cfg) 0 rfl rfl
  obtain ⟨d, hd, hasked, _, hshared⟩ := call_run .refl (fun u q p hget => by cases hget) hp hfirst
  have hlive : s₁.clock ≤ 0 + cfg.discoveryCacheTtl := by
    rw [hclock, Int.zero_add]
    exact Int.le_of_lt cfg.discoveryCacheTtl_pos
  obtain ⟨s₂, hsecond⟩ := outcome_hit (t := d.threads.length) hfree (hentry [] rfl) hlive
  rw [← hcached'.program, ← hshared] at hsecond
  obtain ⟨e, he, hasked', hret, _⟩ := call_run hd hasked hp' hsecond
  refine ⟨e, he, hasked', fun htransparent => ?_⟩
  obtain ⟨r, hfresh, hsame⟩ := htransparent _ _ _ hret
  have herror : r = .error (.valueError "") :=
    ((hfresh _).mp (fresh_iff.mpr hcached'.uncached)).symm
  rw [herror] at hsame
  cases hsame

/-- The cache is transparent for these calls exactly if the keys of the searches tell them apart. -/
theorem cache_transparent_iff (cfg : AppSettings) (asked : Query → Prop) :
    (∀ backend, UpperOnly cfg.text backend → ∀ c : (catalog cfg backend).Config,
      Reachable c → Asked asked c → Transparent c) ↔ Unambiguous cfg.text asked := by
  constructor
  · intro h p g p' g' l hp hp' hquery
    by_contra hdistinct
    obtain ⟨c, hc, hasked, hnot⟩ := collision_run hp hp' hquery hdistinct
    exact hnot (h _ (onlyAnswers_upperOnly cfg.text p g) c hc hasked)
  · intro h backend hbackend c hc hasked
    exact transparent_of_unambiguous hbackend h hc hasked

/-- Two searches with one key: the second is answered with what the first has found. -/
theorem cache_collision : UpperOnly asciiText (onlyAnswers asciiText "A|B" (some "C")) ∧
    ∃ c : (catalog sampleSettings (onlyAnswers asciiText "A|B" (some "C"))).Config,
      Reachable c ∧ Asked (fun q => q = .search "A|B" (some "C") 50 ∨
        q = .search "A" (some "B|C") 50) c ∧ ¬ Transparent c := by
  refine ⟨onlyAnswers_upperOnly _ _ _, ?_⟩
  refine collision_run (l := 50) (.inl rfl) (.inr rfl) (by decide +kernel) fun hsame => ?_
  have htexts := congrArg (List.map fun e : String × PyValue => asciiText.str e.2) hsame
  exact absurd htexts (by decide +kernel)

end Runs

end RfcMcp
