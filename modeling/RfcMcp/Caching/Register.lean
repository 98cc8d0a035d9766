import RfcMcp.Caching.Lookups
import RfcMcp.Custody.History
import RfcMcp.Framework.Last
import RfcMcp.Python.Dict
import RfcMcp.Runtime.Does

namespace RfcMcp

open Framework Framework.System

section Entries

variable {cfg : AppSettings} {t : ℕ} {s s' : Shared} {id : CacheId} {key : String}

/-- The operation stores something under this key. -/
def Op.stores (id : CacheId) (key : String) : Op → Bool
  | .cacheSet id' key' _ => id' == id && key' == key
  | _ => false

/-- What has become of the entry under `key`, if it has not been stored again. -/
structure SlotKept (id : CacheId) (key : String) (a s : Shared) : Prop where
  clock : a.clock ≤ s.clock
  entry : (s.cache id).lookup key = (a.cache id).lookup key ∨ (s.cache id).lookup key = none ∧
    ∃ expiresAt value, (a.cache id).lookup key = some (expiresAt, value) ∧ expiresAt < s.clock

theorem SlotKept.refl (s : Shared) : SlotKept id key s s := ⟨le_rfl, .inl rfl⟩

theorem SlotKept.trans {a : Shared} (h : SlotKept id key a s) (h' : SlotKept id key s s') :
    SlotKept id key a s' := by
  refine ⟨h.clock.trans h'.clock, ?_⟩
  rcases h'.entry with hsame | ⟨hgone, expiresAt, value, hwas, hexpired⟩
  · rcases h.entry with hsame' | ⟨hgone', expiresAt, value, hwas, hexpired⟩
    · exact .inl (hsame.trans hsame')
    · exact .inr ⟨hsame.trans hgone', expiresAt, value, hwas, hexpired.trans_le h'.clock⟩
  · rcases h.entry with hsame' | ⟨hgone', _⟩
    · exact .inr ⟨hgone, expiresAt, value, hsame'.symm.trans hwas, hexpired⟩
    · rw [hgone'] at hwas
      cases hwas

theorem lookup_get {α : Type} {store store' : CacheStore α} {now : Time} {key' : String}
    {found : Option α} (h : store.get now key' = (found, store')) :
    store'.lookup key = store.lookup key ∨ store'.lookup key = none ∧
      ∃ expiresAt value, store.lookup key = some (expiresAt, value) ∧ expiresAt < now := by
  unfold CacheStore.get at h
  split at h
  · cases h
    exact .inl rfl
  · rename_i expiresAt value hlookup
    split at h
    · rename_i hexpired
      cases h
      by_cases hkey : key = key'
      · subst hkey
        exact .inr ⟨lookup_erase_self _ _, expiresAt, value, hlookup, hexpired⟩
      · exact .inl (lookup_erase_ne hkey)
    · cases h
      exact .inl rfl

theorem kept_of_does {o : Op} {v : o.Res} (h : Does cfg t s o v s')
    (ho : o.stores id key = false) : SlotKept id key s s' := by
  cases h with
  | monotonic hclock => exact ⟨hclock, .inl rfl⟩
  | @cacheGet id' key' now found store hclock hget =>
    refine ⟨hclock, ?_⟩
    by_cases hid : id = id'
    · subst hid
      simp only [Function.update_self]
      exact lookup_get hget
    · exact .inl (congrArg (List.lookup key) (Function.update_of_ne hid _ _))
  | @cacheSet id' key' value now hclock =>
    refine ⟨hclock, .inl ?_⟩
    by_cases hid : id = id'
    · subst hid
      have hkey : key ≠ key' := by
        rintro rfl
        simp [Op.stores] at ho
      simp only [Function.update_self]
      exact lookup_set_ne hkey
    · simp only [Function.update_of_ne hid]
  | _ => exact ⟨le_rfl, .inl rfl⟩

theorem found_of_get {α : Type} {store store' : CacheStore α} {now : Time} {found : Option α}
    (h : store.get now key = (found, store')) :
    found = (store.lookup key).bind fun entry =>
      if now ≤ entry.1 then some entry.2 else none := by
  unfold CacheStore.get at h
  split at h
  · rename_i hlookup
    cases h
    rw [hlookup]
    rfl
  · rename_i expiresAt value hlookup
    rw [hlookup, Option.bind_some]
    split at h
    · rename_i hexpired
      cases h
      rw [if_neg (Int.not_le.mpr hexpired)]
    · rename_i hlive
      cases h
      rw [if_pos (Int.not_lt.mp hlive)]

theorem entry_of_set {value : id.Value} (h : Does cfg t s (.cacheSet id key value) () s') :
    (s'.cache id).lookup key = some (s'.clock + cfg.discoveryCacheTtl, value) := by
  cases h with
  | cacheSet hclock =>
    simp only [Function.update_self]
    exact lookup_set

end Entries

section Runs

variable {cfg : AppSettings} {c c' d : Run cfg} {t : ℕ} {id : CacheId} {key : String}

/-- In `d` a thread has stored `value`, which it had looked up for this request, and nobody has
stored anything under the key since. -/
def Stored (c : Run cfg) (id : CacheId) (key : String) (value : id.Value) (d : Run cfg) : Prop :=
  ∃ u, Last (Op.stores id key) u (Op.cacheSet id key value) () d c ∧
    ∃ after mid before, LookedUp cfg id key value mid ∧
      traceOf u d.history = after ++ (mid.reverse ++ before)

theorem stored_of_last {u : ℕ} {o : Op} {v : o.Res} (h : Last (Op.stores id key) u o v d c) :
    ∃ value, Stored c id key value d ∧
      (d.shared.cache id).lookup key = some (d.shared.clock + cfg.discoveryCacheTtl, value) := by
  have hkind := h.isKind
  cases o with
  | cacheSet id' key' value =>
    obtain ⟨hid, hkey⟩ := Bool.and_eq_true_iff.mp hkind
    obtain rfl := eq_of_beq hid
    obtain rfl := eq_of_beq hkey
    obtain ⟨b, hb, hp⟩ := h.done
    have hallowed : storeGuard cfg (.cacheSet id' key' value)
        (localOf (tracing (storeGuard cfg)) u b.history) :=
      hp.allowed (@program_stores cfg) hb
    rw [localOf_tracing] at hallowed
    obtain ⟨after, mid, before, hlooked, htrace⟩ := hallowed
    refine ⟨value, ⟨u, h, ⟨Op.cacheSet id' key' value, ()⟩ :: after, mid, before, hlooked, ?_⟩, ?_⟩
    · cases hp
      rw [traceOf_did, htrace, List.cons_append]
    · cases hp with
      | mk _ hperform => exact entry_of_set (Shared.perform_does hperform)
  | _ => cases hkind

/-- Under a key is what was stored there last, unless that has expired meanwhile. -/
theorem entry_of_reachable (h : Reachable c) (id : CacheId) (key : String) :
    ((∀ u o v, .did u o v ∈ c.history → o.stores id key = false) ∧
      (c.shared.cache id).lookup key = none) ∨
    ∃ value d, Stored c id key value d ∧
      ((c.shared.cache id).lookup key = some (d.shared.clock + cfg.discoveryCacheTtl, value) ∨
        (c.shared.cache id).lookup key = none ∧
          d.shared.clock + cfg.discoveryCacheTtl < c.shared.clock) := by
  have hsince := h.since_last (Op.stores id key) (R := SlotKept id key) SlotKept.refl
    fun hkept hperform ho => hkept.trans (kept_of_does (Shared.perform_does hperform) ho)
  rcases hsince with ⟨hkept, hnone⟩ | ⟨u, o, v, d, hlast, hkept⟩
  · refine .inl ⟨hnone, ?_⟩
    rcases hkept.entry with hsame | ⟨hgone, _⟩
    · exact hsame
    · exact hgone
  · obtain ⟨value, hstored, hentry⟩ := stored_of_last hlast
    refine .inr ⟨value, d, hstored, ?_⟩
    rcases hkept.entry with hsame | ⟨hgone, expiresAt, value', hwas, hexpired⟩
    · exact .inl (hsame.trans hentry)
    · rw [hentry] at hwas
      cases hwas
      exact .inr ⟨hgone, hexpired⟩

theorem stored_of_found {value : id.Value} (h : Reachable c)
    (hp : Performs c t (.cacheGet id key) (some value) c') :
    ∃ d, Stored c id key value d ∧
      c'.shared.clock ≤ d.shared.clock + cfg.discoveryCacheTtl := by
  obtain ⟨_, hperform⟩ := hp
  cases Shared.perform_does hperform with
  | cacheGet hclock hget =>
    have hfound := found_of_get hget
    rcases entry_of_reachable h id key with ⟨_, hnone⟩ | ⟨value', d, hstored, hentry | ⟨hgone, _⟩⟩
    · rw [hnone] at hfound
      cases hfound
    · rw [hentry, Option.bind_some] at hfound
      split at hfound
      · rename_i hfresh
        cases hfound
        exact ⟨d, hstored, hfresh⟩
      · cases hfound
    · rw [hgone] at hfound
      cases hfound

/-- The discovery caches are registers: what is read under a key is what was stored under it last,
a lookup of that key that has been carried out, unless that is longer than the TTL ago. -/
theorem cache_register {found : Option id.Value} (h : Reachable c)
    (hp : Performs c t (.cacheGet id key) found c') :
    ((∀ u o v, .did u o v ∈ c.history → o.stores id key = false) ∧ found = none) ∨
      ∃ value d, Stored c id key value d ∧ found =
        if c'.shared.clock ≤ d.shared.clock + cfg.discoveryCacheTtl then some value else none := by
  obtain ⟨_, hperform⟩ := hp
  cases Shared.perform_does hperform with
  | cacheGet hclock hget =>
    have hfound := found_of_get hget
    rcases entry_of_reachable h id key with
      ⟨hnone, hempty⟩ | ⟨value, d, hstored, hentry | ⟨hgone, hexpired⟩⟩
    · rw [hempty] at hfound
      exact .inl ⟨hnone, hfound⟩
    · rw [hentry] at hfound
      exact .inr ⟨value, d, hstored, hfound⟩
    · rw [hgone] at hfound
      refine .inr ⟨value, d, hstored, ?_⟩
      rw [if_neg (Int.not_le.mpr (hexpired.trans_le hclock))]
      exact hfound

end Runs

section Sample

/-- Thread `t` gets an interface from the cache. -/
def readsInterface (t : ℕ) (key : String) : Event Effects Request → Bool
  | .did u (.cacheGet .interface key') (some _) => u == t && key' == key
  | _ => false

theorem eq_of_readsInterface {t : ℕ} {key : String} {ev : Event Effects Request}
    (h : readsInterface t key ev = true) :
    ∃ found, ev = .did t (Op.cacheGet .interface key) (some found) := by
  cases ev with
  | start u r => cases h
  | did u o v =>
    cases o with
    | cacheGet id key' =>
      cases id with
      | interface =>
        cases v with
        | none => cases h
        | some found =>
          obtain ⟨hu, hkey⟩ := Bool.and_eq_true_iff.mp h
          obtain rfl := eq_of_beq hu
          obtain rfl := eq_of_beq hkey
          exact ⟨found, rfl⟩
      | search => cases h
    | _ => cases h

/-- After the write its interface is served from the cache. -/
theorem cache_register_write : ∃ c found c',
    Performs (Y := server sampleSettings) c 1 (Op.cacheGet .interface "Z_WRITE") (some found) c' ∧
      ∃ d, Stored c .interface "Z_WRITE" found d ∧ c'.shared.clock ≤ d.shared.clock + 300 := by
  have hrun : ((execute (server sampleSettings).initial (sampleWrite 0 ++
      script 1 (.getInterface "Z_WRITE") [.go, .time 3])).any fun c =>
        c.history.head?.any (readsInterface 1 "Z_WRITE")) = true := by decide +kernel
  obtain ⟨c', hc', hhead⟩ := (Option.any_eq_true _ _).mp hrun
  obtain ⟨ev, hev, hreads⟩ := (Option.any_eq_true _ _).mp hhead
  obtain ⟨found, rfl⟩ := eq_of_readsInterface hreads
  obtain ⟨earlier, hhistory⟩ := List.head?_eq_some_iff.mp hev
  have hread : c'.history = [] ++ .did 1 (Op.cacheGet .interface "Z_WRITE") (some found) ::
      earlier := hhistory
  obtain ⟨b, d, hb, hp, _⟩ := (execute_reachable hc').performed hread
  rcases cache_register hb hp with ⟨_, hnone⟩ | ⟨value, d', hstored, hfound⟩
  · cases hnone
  · split at hfound
    · rename_i hfresh
      cases hfound
      exact ⟨b, found, d, hp, d', hstored, hfresh⟩
    · cases hfound

end Sample

end RfcMcp
