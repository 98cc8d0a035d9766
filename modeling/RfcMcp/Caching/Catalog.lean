import RfcMcp.Caching.Uncached
import RfcMcp.Framework.Runs
import RfcMcp.Python.Dict
import RfcMcp.Runtime.Does

namespace RfcMcp

open Framework Framework.System

/-- A call of a `FunctionCatalog`. -/
inductive Query
  | search (pattern : String) (group : Option String) (limit : Int)
  | getInterface (functionName : String)

inductive Found
  | summaries (found : List FunctionSummary)
  | interface (found : FunctionInterface)

section Catalog

variable (cfg : AppSettings) (backend : String → PyDict → Except PyExc PyDict)

def Query.program : Query → Act Found
  | .search pattern group limit => do
    let found ← FunctionCatalog.search cfg (constantCaller backend) pattern group limit
    pure (.summaries found)
  | .getInterface functionName => do
    let found ← FunctionCatalog.getInterface cfg (constantCaller backend) functionName
    pure (.interface found)

/-- A catalog that is called from any number of threads. -/
@[reducible] def catalog : System Effects := runtime cfg (Query.program cfg backend)

/-- What the same call finds without a cache. -/
def Query.uncached : Query → Act Found
  | .search pattern group limit => do
    let found ← FunctionCatalog.doSearch cfg (constantCaller backend) pattern group limit
    pure (.summaries found)
  | .getInterface functionName => do
    let found ← FunctionCatalog.doGetInterface cfg (constantCaller backend) functionName
    pure (.interface found)

/-- A catalog with an empty cache may answer `r`. -/
def Fresh (q : Query) (r : Except PyExc Found) : Prop :=
  ∃ s, Outcome (catalog cfg backend) 0 (Shared.initial cfg) (q.program cfg backend) r s

end Catalog

section Cached

variable {cfg : AppSettings} {backend : String → PyDict → Except PyExc PyDict} {t : ℕ}
  {s s' : Shared} {α β : Type} {r : Except PyExc Found}

theorem outcome_locked {Request Reply : Type} {program : Request → Program Effects Reply}
    {l : LockId} {o : Op} {f : o.Res → Act β} {b : Except PyExc β} :
    Outcome (runtime cfg program) t s (withLock l (perform o) >>= f : Act β) b s' ↔
      s.holder l = none ∧ ∃ ch v s₁,
        Shared.perform cfg t o ch { s with holder := Function.update s.holder l (some t) } =
          some (v, s₁) ∧
        Outcome (runtime cfg program) t { s₁ with holder := Function.update s₁.holder l none }
          (f v) b s' := by
  refine outcome_call.trans ⟨fun h => ?_, fun h => ?_⟩
  · obtain ⟨ch, v, s₁, hacquire, hrest⟩ := h
    have hfree : s.holder l = none := by
      cases Shared.perform_does hacquire with
      | acquire hfree => exact hfree
    refine ⟨hfree, ?_⟩
    cases Shared.perform_does hacquire
    obtain ⟨ch, v, s₂, hop, hrest⟩ := outcome_call.mp hrest
    obtain ⟨_, _, s₃, hrelease, hrest⟩ := outcome_call.mp hrest
    cases Shared.perform_does hrelease
    exact ⟨ch, v, s₂, hop, hrest⟩
  · obtain ⟨hfree, ch, v, s₁, hop, hrest⟩ := h
    refine ⟨.go, (), _, if_pos hfree, outcome_call.mpr ⟨ch, v, s₁, hop, ?_⟩⟩
    exact outcome_call.mpr ⟨.go, (), _, rfl, hrest⟩

section GetOrSet

variable {id : CacheId} {key : String} {found : Except PyExc id.Value} {wrap : id.Value → Found}

/-- What follows the lookup in the cache. -/
def afterGet (id : CacheId) (key : String) (found : Except PyExc id.Value)
    (wrap : id.Value → Found) : Option id.Value → Act Found
  | some value => pure (wrap value)
  | none => match found with
    | .ok value => withLock (.cache id) (perform (.cacheSet id key value)) >>= fun _ =>
      pure (wrap value)
    | .error exc => Action.raise exc

/-- A call of the catalog, as `get_or_set` handles it. -/
def cachedCall (id : CacheId) (key : String) (found : Except PyExc id.Value)
    (wrap : id.Value → Found) : Act Found :=
  TTLCache.getOrSet id key (Action.ofExcept found) >>= fun value => pure (wrap value)

theorem cachedCall_eq : cachedCall id key found wrap =
    withLock (.cache id) (perform (.cacheGet id key)) >>= afterGet id key found wrap := by
  show Program.call _ _ = Program.call _ _
  congr 1
  funext _
  show Program.call _ _ = Program.call _ _
  congr 1
  funext cached
  cases cached <;> cases found <;> rfl

/-- A call that misses the cache answers what it finds. -/
theorem outcome_miss (hmiss : (s.cache id).lookup key = none)
    (h : Outcome (catalog cfg backend) t s (cachedCall id key found wrap) r s') :
    r = found.map wrap := by
  rw [cachedCall_eq] at h
  obtain ⟨_, ch, v, s₁, hget, hrest⟩ := outcome_locked.mp h
  have hnone : v = none := by
    cases Shared.perform_does hget with
    | cacheGet _ hstore =>
      simp only [CacheStore.get, hmiss] at hstore
      exact (Prod.mk.inj hstore).1.symm
  subst hnone
  cases found with
  | error exc => exact (outcome_ret.mp hrest).1
  | ok value =>
    obtain ⟨_, ch, v, s₂, hset, hrest⟩ := outcome_locked.mp hrest
    exact (outcome_ret.mp hrest).1

theorem perform_cacheGet {hit : Option id.Value} {store : CacheStore id.Value}
    (hget : (s.cache id).get s.clock key = (hit, store)) :
    Shared.perform cfg t (.cacheGet id key) (.time s.clock) s =
      some (hit, { s with cache := Function.update s.cache id store }) := by
  simp only [Shared.perform, hget, Int.le_refl, if_true]

/-- A call that finds what it looks for in the cache. -/
theorem outcome_hit (hfree : s.holder (.cache id) = none) {expiresAt : Time} {value : id.Value}
    (hhit : (s.cache id).lookup key = some (expiresAt, value)) (hlive : s.clock ≤ expiresAt) :
    ∃ s', Outcome (catalog cfg backend) t s (cachedCall id key found wrap) (.ok (wrap value))
      s' := by
  rw [cachedCall_eq]
  have hget : CacheStore.get (s.cache id) s.clock key = (some value, s.cache id) := by
    simp only [CacheStore.get, hhit]
    exact if_neg (Int.not_lt.mpr hlive)
  exact ⟨_, outcome_locked.mpr ⟨hfree, _, _, _, perform_cacheGet hget, outcome_ret.mpr ⟨rfl, rfl⟩⟩⟩

theorem perform_cacheSet {value : id.Value} :
    Shared.perform cfg t (.cacheSet id key value) (.time s.clock) s = some ((), { s with
      cache := Function.update s.cache id
        ((s.cache id).set s.clock cfg.discoveryCacheTtl key value) }) := by
  simp only [Shared.perform, Int.le_refl, if_true]

/-- A call that misses the cache leaves there what it finds. -/
theorem outcome_fill (hfree : s.holder (.cache id) = none)
    (hmiss : (s.cache id).lookup key = none) : ∃ s',
      Outcome (catalog cfg backend) t s (cachedCall id key found wrap) (found.map wrap) s' ∧
      s'.holder (.cache id) = none ∧ s'.clock = s.clock ∧ ∀ value, found = .ok value →
        (s'.cache id).lookup key = some (s.clock + cfg.discoveryCacheTtl, value) := by
  rw [cachedCall_eq]
  have hget : CacheStore.get (s.cache id) s.clock key = (none, s.cache id) := by
    simp only [CacheStore.get, hmiss]
  cases found with
  | error exc =>
    refine ⟨_, outcome_locked.mpr ⟨hfree, _, _, _, perform_cacheGet hget,
      outcome_ret.mpr ⟨rfl, rfl⟩⟩, ?_⟩
    exact ⟨Function.update_self .., rfl, fun _ hvalue => by cases hvalue⟩
  | ok value =>
    refine ⟨_, outcome_locked.mpr ⟨hfree, _, _, _, perform_cacheGet hget, outcome_locked.mpr
      ⟨Function.update_self .., _, _, _, perform_cacheSet, outcome_ret.mpr ⟨rfl, rfl⟩⟩⟩, ?_⟩
    have hset : ∀ cache : (id : CacheId) → CacheStore id.Value,
        (Function.update cache id ((cache id).set s.clock cfg.discoveryCacheTtl key value)
          id).lookup key = some (s.clock + cfg.discoveryCacheTtl, value) := by
      intro cache
      rw [Function.update_self]
      exact lookup_set
    refine ⟨Function.update_self .., rfl, fun value' hvalue => ?_⟩
    cases hvalue
    exact hset _

end GetOrSet

end Cached

end RfcMcp
