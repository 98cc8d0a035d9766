import RfcMcp.Borrowing.Checkout

namespace RfcMcp

open Framework Framework.Action ConnectionPool

/-- The connection that the pool lends to a lone borrower: the live idle one that was released last,
else the next one, if it can be opened within the retries. -/
inductive Lent (cfg : AppSettings) (w : World) (s : Shared) : Conn → Prop
  | idle {conn : Conn} (hpermit : 0 < s.permits) (hlive : s.idle.find? w.live = some conn) :
      Lent cfg w s conn
  | new {k : ℕ} (hpermit : 0 < s.permits) (hnone : s.idle.find? w.live = none)
      (hopens : unopened cfg = none) (hk : k ≤ cfg.maxRetries) (hopened : w.opening k = .ok ())
      (hbefore : ∀ j < k,
        ∃ exc, w.opening j = .error exc ∧ isCommunicationError (translated cfg exc) = true) :
      Lent cfg w s s.nextConn

section Lent

variable {cfg : AppSettings} {w : World} {t : ℕ} {s s' : Shared} {conn : Conn} {tries : ℕ}

theorem Opened.lent {c : Conn} (h : Opened cfg w cfg.maxRetries tries s.nextConn (.ok c))
    (hpermit : 0 < s.permits) (hnone : s.idle.find? w.live = none) :
    c = s.nextConn ∧ Lent cfg w s c := by
  obtain ⟨rfl, hopens, k, hk, hopened⟩ := h.returned c rfl
  have hmost := h.atMost
  refine ⟨rfl, .new hpermit hnone hopens (by omega) hopened ?_⟩
  intro j hj
  exact h.retried j (by omega)

/-- Where the attempts fail, no connection is lent. -/
theorem Opened.notLent {exc : PyExc}
    (h : Opened cfg w cfg.maxRetries tries s.nextConn (.error exc))
    (hnone : s.idle.find? w.live = none) (c : Conn) : ¬Lent cfg w s c := by
  intro hlent
  cases hlent with
  | idle _ hlive =>
    rw [hnone] at hlive
    cases hlive
  | @new k _ _ hopens hk hopened hbefore =>
    cases h.raised exc rfl with
    | inl hunopened =>
      rw [hopens] at hunopened
      cases hunopened.2
    | inr hraised =>
      obtain ⟨_, last, raw, htries, hraw, hexc, hall⟩ := hraised
      rcases Nat.lt_trichotomy k last with hless | rfl | hmore
      · obtain ⟨exc', hexc', _⟩ := h.retried k (by omega)
        rw [hopened] at hexc'
        cases hexc'
      · rw [hopened] at hraw
        cases hraw
      · obtain ⟨exc', hexc', hcommunication⟩ := hbefore last hmore
        rw [hraw] at hexc'
        cases hexc'
        rw [← hexc] at hcommunication
        have hlast := hall hcommunication
        omega

/-- What an attempt to borrow comes to, and the state it leaves. -/
inductive Borrows (cfg : AppSettings) (w : World) (s : Shared) :
    Except PyExc Conn → Shared → Prop
  | lent {conn : Conn} {n : Conn} (hpermit : 0 < s.permits) (hlent : Lent cfg w s conn) :
      Borrows cfg w s (.ok conn) { s.scanned w with nextConn := n }
  | timeout (h : s.permits = 0) : Borrows cfg w s (.error (poolTimeout cfg)) s
  | failed {exc : PyExc} (hpermit : 0 < s.permits) (hnone : s.idle.find? w.live = none)
      (hlent : ∀ conn, ¬Lent cfg w s conn)
      (hexc : unopened cfg = some exc ∨
        unopened cfg = none ∧ ∃ raw, exc = translated cfg raw) :
      Borrows cfg w s (.error exc) { s with idle := [], closed := s.idle ++ s.closed }

theorem borrows (cfg : AppSettings) (w : World) (t : ℕ) (s : Shared)
    (hfree : s.holder .pool = none) : ∃ r done s',
      inWorld cfg w t (checkout cfg) [] s = some (r, done, s') ∧ Borrows cfg w s r s' := by
  by_cases hpermit : 0 < s.permits
  · obtain ⟨r, done, s', hcheckout, hlive, hopening⟩ := checkout_with_permit cfg w t s hfree hpermit
    refine ⟨r, done, s', hcheckout, ?_⟩
    cases hfound : s.idle.find? w.live with
    | some conn =>
      obtain ⟨rfl, _, rfl⟩ := hlive conn hfound
      exact .lent hpermit (.idle hpermit hfound)
    | none =>
      obtain ⟨hopened, hok, herror⟩ := hopening hfound
      cases r with
      | ok conn =>
        obtain rfl := hok conn rfl
        obtain ⟨_, hlent⟩ := hopened.lent hpermit hfound
        have hscanned := scanned_none (w := w) hfound
        have hborrows := Borrows.lent (n := s.nextConn + 1) hpermit hlent
        rw [hscanned] at hborrows
        exact hborrows
      | error exc =>
        obtain rfl := herror exc rfl
        refine .failed hpermit hfound (hopened.notLent hfound) ?_
        cases hopened.raised exc rfl with
        | inl hunopened => exact Or.inl hunopened.2
        | inr hraised =>
          obtain ⟨hopens, _, raw, _, _, hexc, _⟩ := hraised
          exact Or.inr ⟨hopens, raw, hexc⟩
  · have hnone : s.permits = 0 := by omega
    exact ⟨_, _, _, inWorld_checkout_timeout hnone, .timeout hnone⟩

/-- At most one connection is lent. -/
theorem Lent.unique {conn' : Conn} (h : Lent cfg w s conn) (h' : Lent cfg w s conn') :
    conn = conn' := by
  cases h with
  | idle _ hlive =>
    cases h' with
    | idle _ hlive' =>
      rw [hlive] at hlive'
      cases hlive'
      rfl
    | new _ hnone _ _ _ _ =>
      rw [hlive] at hnone
      cases hnone
  | new _ hnone _ _ _ _ =>
    cases h' with
    | idle _ hlive' =>
      rw [hnone] at hlive'
      cases hlive'
    | new _ _ _ _ _ _ => rfl

end Lent

section Returning

variable (cfg : AppSettings) (w : World) (t : ℕ) (done : Trace Effects) {s : Shared} (conn : Conn)

theorem inWorld_release_reusable (hfree : s.holder .pool = none) (luw : Option Entry) :
    ∃ done', inWorld cfg w t (release conn true luw) done s =
      some (.ok (), done', { s with idle := conn :: s.idle, permits := s.permits + 1 }) := by
  have hpass : Shared.perform cfg t (.poolRelease conn true luw)
      (w.choice done (.poolRelease conn true luw) s) s = some ((), s) := rfl
  have hrelease : Shared.perform cfg t .semRelease .go { s with idle := conn :: s.idle } =
      some ((), { s with idle := conn :: s.idle, permits := s.permits + 1 }) := rfl
  have happend : inWorld cfg w t (withLock .pool (perform (.appendIdle conn)))
      (⟨.poolRelease conn true luw, ()⟩ :: done) s =
        some (.ok (), ⟨.release .pool, ()⟩ :: ⟨.appendIdle conn, ()⟩ :: ⟨.acquire .pool, ()⟩ ::
          ⟨.poolRelease conn true luw, ()⟩ :: done, { s with idle := conn :: s.idle }) :=
    inWorld_section hfree rfl rfl
  have hreturn := evaluate_tryFinally happend (inWorld_perform hrelease)
  exact ⟨_, (inWorld_next hpass).trans hreturn⟩

theorem inWorld_release_discarded (s : Shared) (luw : Option Entry) :
    ∃ done', inWorld cfg w t (release conn false luw) done s =
      some (.ok (), done', { s with closed := conn :: s.closed, permits := s.permits + 1 }) := by
  have hpass : Shared.perform cfg t (.poolRelease conn false luw)
      (w.choice done (.poolRelease conn false luw) s) s = some ((), s) := rfl
  have hclose : Shared.perform cfg t (.closeConnection conn)
      (w.choice (⟨.poolRelease conn false luw, ()⟩ :: done) (.closeConnection conn) s) s =
        some ((), { s with closed := conn :: s.closed }) := rfl
  have hrelease : Shared.perform cfg t .semRelease .go { s with closed := conn :: s.closed } =
      some ((), { s with closed := conn :: s.closed, permits := s.permits + 1 }) := rfl
  have hreturn := evaluate_tryFinally (inWorld_perform hclose) (inWorld_perform hrelease)
  exact ⟨_, (inWorld_next hpass).trans hreturn⟩

theorem inWorld_closeEach (conns : List Conn) (s : Shared) : ∃ done',
    inWorld cfg w t (Action.forEach conns closeQuietly) done s =
      some (.ok (), done', { s with closed := conns.reverse ++ s.closed }) := by
  induction conns generalizing done s with
  | nil => exact ⟨done, rfl⟩
  | cons conn conns ih =>
    have hclose : Shared.perform cfg t (.closeConnection conn)
        (w.choice done (.closeConnection conn) s) s =
          some ((), { s with closed := conn :: s.closed }) := rfl
    obtain ⟨done', hrest⟩ := ih (⟨.closeConnection conn, ()⟩ :: done)
      { s with closed := conn :: s.closed }
    refine ⟨done', (inWorld_next hclose).trans ?_⟩
    rw [hrest]
    simp

theorem inWorld_closeAll (hfree : s.holder .pool = none) : ∃ done',
    inWorld cfg w t closeAll done s =
      some (.ok (), done', { s with idle := [], closed := s.idle ++ s.closed }) := by
  have hswap : inWorld cfg w t (withLock .pool (perform .swapIdle)) done s =
      some (.ok s.idle.reverse, ⟨.release .pool, ()⟩ :: ⟨.swapIdle, s.idle.reverse⟩ ::
        ⟨.acquire .pool, ()⟩ :: done, { s with idle := [] }) :=
    inWorld_section hfree rfl rfl
  obtain ⟨done', hclose⟩ := inWorld_closeEach cfg w t
    (⟨.release .pool, ()⟩ :: ⟨.swapIdle, s.idle.reverse⟩ :: ⟨.acquire .pool, ()⟩ :: done)
    s.idle.reverse { s with idle := [] }
  rw [List.reverse_reverse] at hclose
  exact ⟨done', (evaluate_bind_ok hswap).trans hclose⟩

end Returning

end RfcMcp
