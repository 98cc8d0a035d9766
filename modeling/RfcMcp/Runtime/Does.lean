import RfcMcp.Runtime.State

namespace RfcMcp

open Framework

/-- The outcomes of each operation: `Does cfg t o v s s'` when thread `t` may get `v` from `o`. -/
inductive Does (cfg : AppSettings) (t : Nat) (s : Shared) : (o : Op) → o.Res → Shared → Prop
  | acquire {l} (h : s.holder l = none) :
      Does cfg t s (.acquire l) () { s with holder := Function.update s.holder l (some t) }
  | tryAcquired {l} (h : s.holder l = none) :
      Does cfg t s (.tryAcquire l) true { s with holder := Function.update s.holder l (some t) }
  | tryFailed {l} (h : s.holder l ≠ none) : Does cfg t s (.tryAcquire l) false s
  | release {l} :
      Does cfg t s (.release l) () { s with holder := Function.update s.holder l none }
  | semAcquired (h : 0 < s.permits) :
      Does cfg t s .semAcquire true { s with permits := s.permits - 1 }
  | semTimeout (h : s.permits = 0) : Does cfg t s .semAcquire false s
  | semRelease : Does cfg t s .semRelease () { s with permits := s.permits + 1 }
  | scanIdle {f found rest closed} (h : scan f s.idle = (found, rest, closed)) :
      Does cfg t s .scanIdle found { s with idle := rest, closed := closed ++ s.closed }
  | appendIdle {conn} : Does cfg t s (.appendIdle conn) () { s with idle := conn :: s.idle }
  | swapIdle : Does cfg t s .swapIdle s.idle.reverse { s with idle := [] }
  | opened :
      Does cfg t s .openConnection (.ok s.nextConn) { s with nextConn := s.nextConn + 1 }
  | openFailed {e} : Does cfg t s .openConnection (.error e) s
  | sleep {n} : Does cfg t s (.sleep n) () s
  | closeConnection {conn} :
      Does cfg t s (.closeConnection conn) () { s with closed := conn :: s.closed }
  | demoConnection : Does cfg t s .demoConnection s.nextConn { s with nextConn := s.nextConn + 1 }
  | rfcBegin {conn p f kwargs} : Does cfg t s (.rfcBegin conn p f kwargs) () s
  | rfcEnd {conn f kwargs r} (h : ∀ answer, cfg.backend = some answer → r = answer f kwargs) :
      Does cfg t s (.rfcEnd conn f kwargs) r s
  | poolRelease {conn reusable luw} : Does cfg t s (.poolRelease conn reusable luw) () s
  | newTransaction {conn now} :
      Does cfg t s (.newTransaction conn now) s.nextRef { s with
        nextRef := s.nextRef + 1, lastUsed := Function.update s.lastUsed s.nextRef now }
  | tokenUrlsafe {id} (h : id ∉ s.tokens) :
      Does cfg t s .tokenUrlsafe id { s with tokens := id :: s.tokens }
  | lookup {id} : Does cfg t s (.lookup id) (s.active id) s
  | register {id a} :
      Does cfg t s (.register id a) () { s with table := PyDict.set s.table id a }
  | isCurrent {id a} : Does cfg t s (.isCurrent id a) (decide (s.active id = some a)) s
  | removed {id a} (h : s.active id = some a) :
      Does cfg t s (.removeIfCurrent id a) true { s with table := PyDict.erase s.table id }
  | notCurrent {id a} (h : s.active id ≠ some a) : Does cfg t s (.removeIfCurrent id a) false s
  | expired {id a cutoff} (h : s.active id = some a) (hcutoff : s.lastUsed a.ref < cutoff) :
      Does cfg t s (.removeIfExpired id a cutoff) true
        { s with table := PyDict.erase s.table id }
  | notExpired {id a cutoff} (h : s.active id ≠ some a ∨ cutoff ≤ s.lastUsed a.ref) :
      Does cfg t s (.removeIfExpired id a cutoff) false s
  | snapshot : Does cfg t s .snapshot s.table s
  | drain : Does cfg t s .drain s.table { s with table := [] }
  | readLastUsed {a} : Does cfg t s (.readLastUsed a) (s.lastUsed a.ref) s
  | setLastUsed {a now} : Does cfg t s (.setLastUsed a now) ()
      { s with lastUsed := Function.update s.lastUsed a.ref now }
  | monotonic {now} (h : s.clock ≤ now) : Does cfg t s .monotonic now { s with clock := now }
  | cacheGet {id key now found store} (h : s.clock ≤ now)
      (hget : (s.cache id).get now key = (found, store)) :
      Does cfg t s (.cacheGet id key) found
        { s with clock := now, cache := Function.update s.cache id store }
  | cacheSet {id key value now} (h : s.clock ≤ now) :
      Does cfg t s (.cacheSet id key value) () { s with
        clock := now
        cache := Function.update s.cache id
          ((s.cache id).set now cfg.discoveryCacheTtl key value) }
  | log {record} : Does cfg t s (.log record) () s

variable {cfg : AppSettings}

/-- Says once what a step can do to the shared state. -/
theorem Shared.perform_does {t : Nat} {o : Op} {ch : Choice} {s s' : Shared} {v : o.Res}
    (h : Shared.perform cfg t o ch s = some (v, s')) : Does cfg t s o v s' := by
  cases o <;> cases ch <;> dsimp only [Shared.perform] at h <;> try (cases h; done)
  case tryAcquire.go l =>
    by_cases hl : s.holder l = none
    · rw [if_pos hl] at h; cases h; exact .tryAcquired hl
    · rw [if_neg hl] at h; cases h; exact .tryFailed hl
  case scanIdle.liveness f =>
    cases h
    exact .scanIdle rfl
  case openConnection.opened r =>
    cases r with
    | ok _ => cases h; exact .opened
    | error e => cases h; exact .openFailed
  case rfcEnd.answer conn f kwargs r =>
    cases hb : cfg.backend with
    | none => rw [hb] at h; cases h; exact .rfcEnd fun answer ha => by simp [hb] at ha
    | some answer =>
      rw [hb] at h
      cases h
      refine .rfcEnd fun answer' ha => ?_
      rw [hb] at ha
      cases ha
      rfl
  case removeIfCurrent.go id a =>
    by_cases ha : s.active id = some a
    · rw [if_pos ha] at h; cases h; exact .removed ha
    · rw [if_neg ha] at h; cases h; exact .notCurrent ha
  case removeIfExpired.go id a cutoff =>
    by_cases ha : s.active id ≠ some a ∨ cutoff ≤ s.lastUsed a.ref
    · rw [if_pos ha] at h; cases h; exact .notExpired ha
    · rw [if_neg ha] at h
      cases h
      obtain ⟨hid, hcutoff⟩ := not_or.mp ha
      exact .expired (not_not.mp hid) (Int.not_le.mp hcutoff)
  case cacheGet.time id key now =>
    split at h
    · cases h; exact .cacheGet ‹_› rfl
    · cases h
  all_goals first
    | (cases h; constructor)
    | (split at h <;> cases h; constructor; assumption)

section Answers

variable {t : Nat} {s s' : Shared} {id : TxId} {a : ActiveTransaction}

theorem Does.lookup_some {v : Option ActiveTransaction} (h : Does cfg t s (.lookup id) v s')
    (hv : v = some a) : s.active id = some a := by
  cases h
  exact hv

theorem Does.isCurrent_true {v : Bool} (h : Does cfg t s (.isCurrent id a) v s')
    (hv : v = true) : s.active id = some a := by
  cases h
  exact of_decide_eq_true hv

theorem Does.removeIfCurrent_true {v : Bool} (h : Does cfg t s (.removeIfCurrent id a) v s')
    (hv : v = true) : s.active id = some a := by
  cases h with
  | removed hid => exact hid
  | notCurrent => cases hv

end Answers

end RfcMcp
