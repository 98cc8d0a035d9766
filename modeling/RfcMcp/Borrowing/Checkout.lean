import RfcMcp.Borrowing.World
import Mathlib.Data.List.TakeWhile

namespace RfcMcp

open Framework Framework.Action ConnectionPool

section Opening

variable (cfg : AppSettings) (w : World)

/-- What keeps `_create_connection` from trying to open a connection. -/
def unopened : Option PyExc :=
  match cfg.pyrfcInstalled, cfg.pyrfcKwargs with
  | true, .ok _ => none
  | true, .error exc => some exc
  | false, _ =>
    some (.sap .unavailable ("pyrfc is not installed or the SAP NW RFC SDK could not be " ++
      "loaded (check SAPNWRFC_HOME and PATH). See docs/setup.md.") none)

def translated (exc : PyExc) : PyExc := translatePyrfcException cfg.text cfg.pyrfcInstalled exc

/-- `tries` attempts come to `r`, with `retries` retries at most; `conn` is the next connection. -/
structure Opened (retries tries : ℕ) (conn : Conn) (r : Except PyExc Conn) : Prop where
  atMost : tries ≤ retries + 1
  retried : ∀ k, k + 1 < tries →
    ∃ exc, w.opening k = .error exc ∧ isCommunicationError (translated cfg exc) = true
  returned : ∀ c, r = .ok c →
    c = conn ∧ unopened cfg = none ∧ ∃ k, tries = k + 1 ∧ w.opening k = .ok ()
  raised : ∀ exc, r = .error exc → tries = 0 ∧ unopened cfg = some exc ∨
    unopened cfg = none ∧ ∃ k raw, tries = k + 1 ∧ w.opening k = .error raw ∧
      exc = translated cfg raw ∧ (isCommunicationError exc = true → tries = retries + 1)

end Opening

section Attempts

variable {cfg : AppSettings} {w : World} {t : ℕ} {done : Trace Effects} {s : Shared}

theorem inWorld_createConnection_unopened (w : World) (t : ℕ) (done : Trace Effects) (s : Shared)
    {exc : PyExc} (h : unopened cfg = some exc) :
    inWorld cfg w t (createConnection cfg) done s = some (.error exc, done, s) := by
  unfold unopened at h
  unfold createConnection
  cases hinstalled : cfg.pyrfcInstalled with
  | false =>
    rw [hinstalled] at h
    cases h
    rfl
  | true =>
    rw [hinstalled] at h
    cases hkwargs : cfg.pyrfcKwargs with
    | ok kwargs =>
      rw [hkwargs] at h
      cases h
    | error raised =>
      rw [hkwargs] at h
      cases h
      rfl

theorem unopened_none (h : unopened cfg = none) :
    cfg.pyrfcInstalled = true ∧ ∃ kwargs, cfg.pyrfcKwargs = .ok kwargs := by
  unfold unopened at h
  cases hinstalled : cfg.pyrfcInstalled with
  | false =>
    rw [hinstalled] at h
    cases h
  | true =>
    cases hkwargs : cfg.pyrfcKwargs with
    | ok kwargs => exact ⟨rfl, kwargs, rfl⟩
    | error exc =>
      rw [hinstalled, hkwargs] at h
      cases h

theorem inWorld_createConnection_opened (h : unopened cfg = none)
    (hopening : w.opening (attempts done) = .ok ()) :
    inWorld cfg w t (createConnection cfg) done s = some (.ok s.nextConn,
      ⟨.openConnection, .ok s.nextConn⟩ :: done, { s with nextConn := s.nextConn + 1 }) := by
  obtain ⟨hinstalled, kwargs, hkwargs⟩ := unopened_none h
  have hperform : Shared.perform cfg t .openConnection (w.choice done .openConnection s) s =
      some (.ok s.nextConn, { s with nextConn := s.nextConn + 1 }) := by
    simp [World.choice, hopening, Shared.perform]
  unfold createConnection
  rw [if_pos hinstalled, hkwargs]
  refine (evaluate_bind_ok rfl).trans ?_
  refine (inWorld_next hperform).trans ?_
  rfl

theorem inWorld_createConnection_failed {exc : PyExc} (h : unopened cfg = none)
    (hopening : w.opening (attempts done) = .error exc) :
    inWorld cfg w t (createConnection cfg) done s = some (.error (translated cfg exc),
      ⟨.openConnection, .error exc⟩ :: done, s) := by
  obtain ⟨hinstalled, kwargs, hkwargs⟩ := unopened_none h
  have hperform : Shared.perform cfg t .openConnection (w.choice done .openConnection s) s =
      some (.error exc, s) := by
    simp [World.choice, hopening, Shared.perform]
  unfold createConnection
  rw [if_pos hinstalled, hkwargs]
  refine (evaluate_bind_ok rfl).trans ?_
  refine (inWorld_next hperform).trans ?_
  rfl

theorem later_later (n : ℕ) : (w.later n).later 1 = w.later (n + 1) := by
  have hopening : (fun k => w.opening (k + 1 + n)) = fun k => w.opening (k + (n + 1)) := by
    funext k
    congr 1
    omega
  simp [World.later, hopening]

theorem opened_at_once {retries : ℕ} {conn : Conn} (hopens : unopened cfg = none)
    (hopening : w.opening 0 = .ok ()) : Opened cfg w retries 1 conn (.ok conn) := by
  constructor
  · omega
  · intro k hk
    omega
  · intro c hc
    cases hc
    exact ⟨rfl, hopens, 0, rfl, hopening⟩
  · intro exc hexc
    cases hexc

theorem failed_at_once {raw : PyExc} {retries : ℕ} {conn : Conn} (hopens : unopened cfg = none)
    (hopening : w.opening 0 = .error raw)
    (hlast : isCommunicationError (translated cfg raw) = true → retries = 0) :
    Opened cfg w retries 1 conn (.error (translated cfg raw)) := by
  constructor
  · omega
  · intro k hk
    omega
  · intro c hc
    cases hc
  · intro exc hexc
    cases hexc
    right
    refine ⟨hopens, 0, raw, rfl, hopening, rfl, ?_⟩
    intro hcommunication
    rw [hlast hcommunication]

/-- A communication error at first, then the rest. -/
theorem Opened.again {raw : PyExc} {retries tries : ℕ} {conn : Conn} {r : Except PyExc Conn}
    (h : Opened cfg (w.later 1) retries tries conn r) (hopens : unopened cfg = none)
    (hopening : w.opening 0 = .error raw)
    (hcommunication : isCommunicationError (translated cfg raw) = true) :
    Opened cfg w (retries + 1) (tries + 1) conn r := by
  constructor
  · have hmost := h.atMost
    omega
  · intro k hk
    cases k with
    | zero => exact ⟨raw, hopening, hcommunication⟩
    | succ k => exact h.retried k (by omega)
  · intro c hc
    obtain ⟨hconn, _, k, hk, hok⟩ := h.returned c hc
    exact ⟨hconn, hopens, k + 1, by omega, hok⟩
  · intro exc hexc
    cases h.raised exc hexc with
    | inl hunopened =>
      rw [hopens] at hunopened
      cases hunopened.2
    | inr hraised =>
      obtain ⟨_, k, raw', hk, hraw, hexc', hall⟩ := hraised
      right
      refine ⟨hopens, k + 1, raw', by omega, hraw, hexc', ?_⟩
      intro hlast
      have hlast' := hall hlast
      omega

/-- The state after an attempt to open a connection. -/
def Shared.afterOpening (s : Shared) : Except PyExc Conn → Shared
  | .ok _ => { s with nextConn := s.nextConn + 1 }
  | .error _ => s

section Retry

variable {attempt retries : ℕ} {done' : Trace Effects} {s' : Shared} {exc : PyExc}

theorem inWorld_openAttempts_again
    (h : inWorld cfg w t (createConnection cfg) done s = some (.error exc, done', s'))
    (hcommunication : isCommunicationError exc = true) :
    inWorld cfg w t (openAttempts cfg attempt (retries + 1)) done s =
      inWorld cfg w t (openAttempts cfg (attempt + 1) retries)
        (⟨.sleep attempt, ()⟩ :: done') s' := by
  have hsleep : Shared.perform cfg t (.sleep attempt) (w.choice done' (.sleep attempt) s') s' =
      some ((), s') := rfl
  rw [openAttempts]
  refine (evaluate_tryExcept_error h).trans ?_
  rw [if_pos hcommunication]
  exact inWorld_next hsleep

theorem inWorld_openAttempts_raise
    (h : inWorld cfg w t (createConnection cfg) done s = some (.error exc, done', s'))
    (hother : isCommunicationError exc = false) :
    inWorld cfg w t (openAttempts cfg attempt (retries + 1)) done s =
      some (.error exc, done', s') := by
  rw [openAttempts]
  refine (evaluate_tryExcept_error h).trans ?_
  rw [if_neg (by simp [hother])]
  rfl

end Retry

theorem inWorld_openAttempts_unopened (w : World) (t : ℕ) (done : Trace Effects) (s : Shared)
    {exc : PyExc} (h : unopened cfg = some exc) (retries attempt : ℕ) :
    ∃ done', inWorld cfg w t (openAttempts cfg attempt retries) done s =
      some (.error exc, done', s) ∧ attempts done' = attempts done := by
  induction retries generalizing attempt done with
  | zero => exact ⟨done, inWorld_createConnection_unopened w t done s h, rfl⟩
  | succ retries ih =>
    have hcreate := inWorld_createConnection_unopened w t done s h
    cases hexc : isCommunicationError exc with
    | false => exact ⟨done, inWorld_openAttempts_raise hcreate hexc, rfl⟩
    | true =>
      obtain ⟨done', hrest, hnone⟩ := ih (⟨.sleep attempt, ()⟩ :: done) (attempt + 1)
      have hsleep : attempts (⟨.sleep attempt, ()⟩ :: done) = attempts done := attempts_cons rfl
      rw [hsleep] at hnone
      exact ⟨done', (inWorld_openAttempts_again hcreate hexc).trans hrest, hnone⟩

theorem inWorld_openAttempts (w : World) (t : ℕ) (done : Trace Effects) (s : Shared)
    (h : unopened cfg = none) (retries attempt : ℕ) : ∃ r done' tries,
    inWorld cfg w t (openAttempts cfg attempt retries) done s =
      some (r, done', s.afterOpening r) ∧ attempts done' = attempts done + tries ∧
    Opened cfg (w.later (attempts done)) retries tries s.nextConn r := by
  have hfirst : ∀ n, (w.later n).opening 0 = w.opening n := by simp [World.later]
  induction retries generalizing attempt done with
  | zero =>
    cases hopening : w.opening (attempts done) with
    | ok opened =>
      have hcreate := inWorld_createConnection_opened (t := t) (s := s) h hopening
      exact ⟨_, _, 1, hcreate, attempts_open, opened_at_once h ((hfirst _).trans hopening)⟩
    | error raw =>
      have hcreate := inWorld_createConnection_failed (t := t) (s := s) h hopening
      exact ⟨_, _, 1, hcreate, attempts_open,
        failed_at_once h ((hfirst _).trans hopening) fun _ => rfl⟩
  | succ retries ih =>
    cases hopening : w.opening (attempts done) with
    | ok opened =>
      have hcreate := inWorld_createConnection_opened (t := t) (s := s) h hopening
      exact ⟨_, _, 1, evaluate_tryExcept_ok hcreate, attempts_open,
        opened_at_once h ((hfirst _).trans hopening)⟩
    | error raw =>
      have hcreate := inWorld_createConnection_failed (t := t) (s := s) h hopening
      cases hraw : isCommunicationError (translated cfg raw) with
      | false =>
        refine ⟨_, _, 1, inWorld_openAttempts_raise hcreate hraw, attempts_open, ?_⟩
        apply failed_at_once h ((hfirst _).trans hopening)
        intro hcommunication
        rw [hraw] at hcommunication
        cases hcommunication
      | true =>
        have hdone : attempts (⟨.sleep attempt, ()⟩ :: ⟨.openConnection, .error raw⟩ :: done) =
            attempts done + 1 := (attempts_cons rfl).trans attempts_open
        obtain ⟨r, done', tries, hrest, htries, hopened⟩ :=
          ih (⟨.sleep attempt, ()⟩ :: ⟨.openConnection, .error raw⟩ :: done) (attempt + 1)
        rw [hdone, ← later_later] at hopened
        refine ⟨r, done', tries + 1, (inWorld_openAttempts_again hcreate hraw).trans hrest, ?_,
          hopened.again h ((hfirst _).trans hopening) hraw⟩
        rw [htries, hdone]
        omega

end Attempts

section Checkout

variable {cfg : AppSettings} {w : World} {t : ℕ} {done : Trace Effects} {s : Shared}

def World.dead (w : World) (conn : Conn) : Bool := !w.live conn

/-- The loop finds the live connection that was appended last and closes those after it. -/
theorem scan_eq (w : World) (idle : List Conn) : scan w.liveness idle =
    (idle.find? w.live, (idle.dropWhile w.dead).tail, idle.takeWhile w.dead) := by
  induction idle with
  | nil => rfl
  | cons candidate idle ih =>
    unfold scan
    cases hlive : isAlive (w.liveness candidate) with
    | true => simp [World.dead, World.live, hlive]
    | false => simp [World.dead, World.live, hlive, ih]

theorem inWorld_scan (hfree : s.holder .pool = none) :
    inWorld cfg w t (withLock .pool (perform .scanIdle)) done s =
      some (.ok (s.idle.find? w.live),
        ⟨.release .pool, ()⟩ :: ⟨.scanIdle, s.idle.find? w.live⟩ :: ⟨.acquire .pool, ()⟩ :: done,
        { s with idle := (s.idle.dropWhile w.dead).tail,
                 closed := s.idle.takeWhile w.dead ++ s.closed }) := by
  apply inWorld_section hfree
  · simp [Shared.perform, World.choice, scan_eq]
  · rfl

/-- A permit is taken and the loop over the idle connections is through. -/
def Shared.scanned (s : Shared) (w : World) : Shared :=
  { s with permits := s.permits - 1, idle := (s.idle.dropWhile w.dead).tail,
           closed := s.idle.takeWhile w.dead ++ s.closed }

theorem inWorld_checkout_timeout (h : s.permits = 0) :
    inWorld cfg w t (checkout cfg) [] s =
      some (.error (poolTimeout cfg), [⟨.semAcquire, false⟩], s) := by
  have hperform : Shared.perform cfg t .semAcquire (w.choice [] .semAcquire s) s =
      some (false, s) := by
    simp [Shared.perform, World.choice, h]
  exact inWorld_next hperform

theorem inWorld_semAcquire (h : 0 < s.permits) :
    Shared.perform cfg t .semAcquire (w.choice done .semAcquire s) s =
      some (true, { s with permits := s.permits - 1 }) := by
  simp [Shared.perform, World.choice, h]

/-- What `checkout` has done when the loop over the idle connections is through. -/
def scanTrace (w : World) (s : Shared) : Trace Effects :=
  [⟨.release .pool, ()⟩, ⟨.scanIdle, s.idle.find? w.live⟩, ⟨.acquire .pool, ()⟩,
    ⟨.semAcquire, true⟩]

theorem inWorld_scanned (cfg : AppSettings) (w : World) (t : ℕ) (hfree : s.holder .pool = none) :
    inWorld cfg w t (withLock .pool (perform .scanIdle)) [⟨.semAcquire, true⟩]
        { s with permits := s.permits - 1 } =
      some (.ok (s.idle.find? w.live), scanTrace w s, s.scanned w) :=
  inWorld_scan hfree

theorem inWorld_checkout_live (hfree : s.holder .pool = none) (h : 0 < s.permits) {conn : Conn}
    (hlive : s.idle.find? w.live = some conn) :
    inWorld cfg w t (checkout cfg) [] s = some (.ok conn, scanTrace w s, s.scanned w) := by
  have hscan := inWorld_scanned cfg w t hfree
  rw [hlive] at hscan
  refine (inWorld_next (inWorld_semAcquire h)).trans ?_
  rw [if_pos rfl]
  apply evaluate_tryExcept_ok
  exact evaluate_bind_ok hscan

section Opening

variable {done' : Trace Effects}

theorem inWorld_checkout_opened (hfree : s.holder .pool = none) (h : 0 < s.permits)
    (hnone : s.idle.find? w.live = none) {conn : Conn}
    (hopen : inWorld cfg w t (openWithRetry cfg) (scanTrace w s) (s.scanned w) =
      some (.ok conn, done', (s.scanned w).afterOpening (.ok conn))) :
    inWorld cfg w t (checkout cfg) [] s =
      some (.ok conn, done', (s.scanned w).afterOpening (.ok conn)) := by
  have hscan := inWorld_scanned cfg w t hfree
  rw [hnone] at hscan
  refine (inWorld_next (inWorld_semAcquire h)).trans ?_
  rw [if_pos rfl]
  apply evaluate_tryExcept_ok
  exact (evaluate_bind_ok hscan).trans hopen

/-- An exception gives the permit back. -/
theorem inWorld_checkout_failed (hfree : s.holder .pool = none) (h : 0 < s.permits)
    (hnone : s.idle.find? w.live = none) {exc : PyExc}
    (hopen : inWorld cfg w t (openWithRetry cfg) (scanTrace w s) (s.scanned w) =
      some (.error exc, done', s.scanned w)) :
    inWorld cfg w t (checkout cfg) [] s = some (.error exc, ⟨.semRelease, ()⟩ :: done',
      { s.scanned w with permits := s.permits }) := by
  have hscan := inWorld_scanned cfg w t hfree
  rw [hnone] at hscan
  have hback : (s.scanned w).permits + 1 = s.permits := Nat.sub_add_cancel h
  have hrelease : Shared.perform cfg t .semRelease (w.choice done' .semRelease (s.scanned w))
      (s.scanned w) = some ((), { s.scanned w with permits := s.permits }) := by
    rw [← hback]
    rfl
  refine (inWorld_next (inWorld_semAcquire h)).trans ?_
  rw [if_pos rfl]
  refine (evaluate_tryExcept_error ((evaluate_bind_ok hscan).trans hopen)).trans ?_
  exact inWorld_next hrelease

end Opening

theorem opened_unopened {exc : PyExc} (h : unopened cfg = some exc) {retries : ℕ} {conn : Conn} :
    Opened cfg w retries 0 conn (.error exc) := by
  constructor
  · omega
  · intro k hk
    omega
  · intro c hc
    cases hc
  · intro exc' hexc'
    cases hexc'
    exact Or.inl ⟨rfl, h⟩

theorem inWorld_openWithRetry (cfg : AppSettings) (w : World) (t : ℕ) (s : Shared) :
    ∃ r done', inWorld cfg w t (openWithRetry cfg) (scanTrace w s) (s.scanned w) =
      some (r, done', (s.scanned w).afterOpening r) ∧
    Opened cfg w cfg.maxRetries (attempts done') s.nextConn r := by
  have hstart : attempts (scanTrace w s) = 0 := rfl
  cases hunopened : unopened cfg with
  | some exc =>
    obtain ⟨done', hopen, hnone⟩ := inWorld_openAttempts_unopened w t (scanTrace w s)
      (s.scanned w) hunopened cfg.maxRetries 0
    rw [hstart] at hnone
    refine ⟨.error exc, done', hopen, ?_⟩
    rw [hnone]
    exact opened_unopened hunopened
  | none =>
    obtain ⟨r, done', tries, hopen, htries, hopened⟩ := inWorld_openAttempts w t (scanTrace w s)
      (s.scanned w) hunopened cfg.maxRetries 0
    rw [hstart, Nat.zero_add] at htries
    refine ⟨r, done', hopen, ?_⟩
    rw [htries]
    exact hopened

theorem scanned_none (hnone : s.idle.find? w.live = none) : s.scanned w =
    { s with permits := s.permits - 1, idle := [], closed := s.idle ++ s.closed } := by
  have hdead : ∀ conn ∈ s.idle, w.dead conn = true := by
    intro conn hconn
    have hnot := List.find?_eq_none.mp hnone conn hconn
    simpa [World.dead] using hnot
  have hdrop : s.idle.dropWhile w.dead = [] := List.dropWhile_eq_nil_iff.mpr hdead
  have htake : s.idle.takeWhile w.dead = s.idle := List.takeWhile_eq_self_iff.mpr hdead
  simp [Shared.scanned, hdrop, htake]

/-- With a permit, the live connection that was released last is handed out, or a new one if there
is none; an exception leaves the permits alone. -/
theorem checkout_with_permit (cfg : AppSettings) (w : World) (t : ℕ) (s : Shared)
    (hfree : s.holder .pool = none) (h : 0 < s.permits) :
    ∃ r done s', inWorld cfg w t (checkout cfg) [] s = some (r, done, s') ∧
      (∀ conn, s.idle.find? w.live = some conn → r = .ok conn ∧ attempts done = 0 ∧
        s' = { s with permits := s.permits - 1, idle := (s.idle.dropWhile w.dead).tail,
                      closed := s.idle.takeWhile w.dead ++ s.closed }) ∧
      (s.idle.find? w.live = none →
        Opened cfg w cfg.maxRetries (attempts done) s.nextConn r ∧
        (∀ conn, r = .ok conn →
          s' = { s with permits := s.permits - 1, idle := [], closed := s.idle ++ s.closed,
                        nextConn := s.nextConn + 1 }) ∧
        ∀ exc, r = .error exc → s' = { s with idle := [], closed := s.idle ++ s.closed }) := by
  cases hfound : s.idle.find? w.live with
  | some conn =>
    refine ⟨_, _, _, inWorld_checkout_live hfree h hfound, ?_, nofun⟩
    intro c hc
    cases hc
    exact ⟨rfl, rfl, rfl⟩
  | none =>
    obtain ⟨r, done', hopen, hopened⟩ := inWorld_openWithRetry cfg w t s
    cases r with
    | ok conn =>
      refine ⟨_, _, _, inWorld_checkout_opened hfree h hfound hopen, nofun, ?_⟩
      intro _
      refine ⟨hopened, ?_, nofun⟩
      intro _ _
      rw [scanned_none hfound]
      rfl
    | error exc =>
      refine ⟨_, _, _, inWorld_checkout_failed hfree h hfound hopen, nofun, ?_⟩
      intro _
      refine ⟨hopened, nofun, ?_⟩
      intro _ _
      rw [scanned_none hfound]

/-- A checkout that times out changes nothing; one that raises otherwise leaves the permits and the
live connections alone; one that returns takes one permit and hands out the live connection that
was released last, or a new one if there is none. -/
theorem checkout_all_or_nothing (cfg : AppSettings) (w : World) (t : ℕ) (s : Shared)
    (hfree : s.holder .pool = none) :
    (s.permits = 0 → inWorld cfg w t (checkout cfg) [] s =
      some (.error (poolTimeout cfg), [⟨.semAcquire, false⟩], s)) ∧
    (0 < s.permits → ∃ r done s', inWorld cfg w t (checkout cfg) [] s = some (r, done, s') ∧
      (∀ conn, s.idle.find? w.live = some conn → r = .ok conn ∧ attempts done = 0 ∧
        s' = { s with permits := s.permits - 1, idle := (s.idle.dropWhile w.dead).tail,
                      closed := s.idle.takeWhile w.dead ++ s.closed }) ∧
      (s.idle.find? w.live = none →
        Opened cfg w cfg.maxRetries (attempts done) s.nextConn r ∧
        (∀ conn, r = .ok conn →
          s' = { s with permits := s.permits - 1, idle := [], closed := s.idle ++ s.closed,
                        nextConn := s.nextConn + 1 }) ∧
        ∀ exc, r = .error exc → s' = { s with idle := [], closed := s.idle ++ s.closed })) :=
  ⟨inWorld_checkout_timeout, checkout_with_permit cfg w t s hfree⟩

/-- The last released connection is dead, so the one before it is handed out. -/
theorem checkout_second_idle : ∃ r done s', inWorld { text := asciiText }
      ⟨fun conn => if conn = 2 then .dead else .alive, fun _ => .ok ()⟩ 0
      (checkout { text := asciiText }) []
      { Shared.initial { text := asciiText } with idle := [2, 1, 0], nextConn := 3 } =
        some (r, done, s') ∧ r = .ok 1 ∧ s'.permits = 3 ∧ s'.idle = [0] ∧ s'.closed = [2] := by
  obtain ⟨r, done, s', hcheckout, hlive, _⟩ := (checkout_all_or_nothing { text := asciiText }
    ⟨fun conn => if conn = 2 then .dead else .alive, fun _ => .ok ()⟩ 0
    { Shared.initial { text := asciiText } with idle := [2, 1, 0], nextConn := 3 } rfl).2
    (by decide)
  obtain ⟨hr, _, hs'⟩ := hlive 1 rfl
  refine ⟨r, done, s', hcheckout, hr, ?_⟩
  rw [hs']
  exact ⟨rfl, rfl, rfl⟩

end Checkout

end RfcMcp
