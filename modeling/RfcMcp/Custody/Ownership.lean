import RfcMcp.Custody.Connections
import RfcMcp.Custody.Sealing

namespace RfcMcp

open Framework

variable {cfg : AppSettings} {Request Reply : Type} {program : Request → Program Effects Reply}
  {w : Hands cfg program} {t u : ℕ} {e e' : Entry} {conn : Conn}

section Uniqueness

/-- How often `conn` is with a thread that borrows or returns it. -/
def Custody.heldCount (conn : Conn) (g : Custody) : ℕ := g.holding.conn.toList.count conn

/-- A connection is in at most one place, and in none before it has been opened. -/
theorem Hands.places_le (h : w.Reachable) (conn : Conn) :
    w.shared.idle.count conn + w.shared.closed.count conn + w.openCount (hasConn conn) +
      w.total (Custody.heldCount conn) ≤ if conn < w.shared.nextConn then 1 else 0 := by
  have hlaw := Hands.connections_conserved h conn
  have hsplit := Crew.total_add
    (fun g : Custody => g.holding.conn.toList.count conn + g.closing.count conn)
    (fun g : Custody => g.removed.countP (hasConn conn)) w
  have hsplit' := Crew.total_add (Custody.heldCount conn)
    (fun g : Custody => g.closing.count conn) w
  change w.total (Custody.connCount conn) = _ at hsplit
  change w.total (fun g : Custody => g.holding.conn.toList.count conn + g.closing.count conn) = _
    at hsplit'
  unfold Hands.openCount
  omega

theorem Hands.places_le_one (h : w.Reachable) (conn : Conn) :
    w.shared.idle.count conn + w.shared.closed.count conn + w.openCount (hasConn conn) +
      w.total (Custody.heldCount conn) ≤ 1 := by
  have hle := Hands.places_le h conn
  split at hle <;> omega

theorem Hands.Open.conn_pos (he : w.Open e) : 0 < w.openCount (hasConn e.2.connection) := by
  have hmono : w.openCount (isEntry e) ≤ w.openCount (hasConn e.2.connection) := by
    have hcount : ∀ l : List Entry, l.countP (isEntry e) ≤ l.countP (hasConn e.2.connection) := by
      intro l
      refine List.countP_mono_left fun e' _ he' => ?_
      obtain rfl : e' = e := by simpa [isEntry] using he'
      simp [hasConn]
    have htable := hcount w.shared.table
    have hremoved := Crew.total_le (fun g : Custody => g.removed.countP (isEntry e))
      (fun g : Custody => g.removed.countP (hasConn e.2.connection)) (w := w)
      fun t => hcount (w.locals t).removed
    unfold Hands.openCount
    omega
  unfold Hands.Open at he
  omega

/-- Two open transactions have two connections. -/
theorem Hands.Open.unique (h : w.Reachable) (he : w.Open e) (he' : w.Open e')
    (hconn : e.2.connection = e'.2.connection) : e = e' := by
  by_contra hne
  have htwo := Hands.two_le_openCount he he' hne (p := hasConn e.2.connection) (by simp [hasConn])
    (by simp [hasConn, hconn])
  have hone := Hands.places_le_one h e.2.connection
  omega

theorem Custody.heldCount_pos {g : Custody} (hg : g.holding.conn = some conn) :
    0 < g.heldCount conn := by
  unfold Custody.heldCount
  rw [hg]
  simp

theorem Hands.lt_of_held (h : w.Reachable) (ht : (w.locals t).holding.conn = some conn) :
    t < w.size := by
  by_contra hle
  rw [h.unborn (Nat.le_of_not_lt hle)] at ht
  cases ht

/-- The connection of an open transaction is in no thread's hands. -/
theorem Hands.Open.not_held (h : w.Reachable) (he : w.Open e) :
    (w.locals t).holding.conn ≠ some e.2.connection := by
  intro ht
  have hle := Crew.le_total (Custody.heldCount e.2.connection) (Hands.lt_of_held h ht)
  have hpos := Custody.heldCount_pos ht
  have hopen := he.conn_pos
  have hone := Hands.places_le_one h e.2.connection
  omega

/-- Two threads do not have one connection. -/
theorem Hands.held_unique (h : w.Reachable) (ht : (w.locals t).holding.conn = some conn)
    (hu : (w.locals u).holding.conn = some conn) : t = u := by
  by_contra hne
  have hle := Crew.add_le_total (Custody.heldCount conn) (Hands.lt_of_held h ht)
    (Hands.lt_of_held h hu) hne
  have hpos := Custody.heldCount_pos ht
  have hpos' := Custody.heldCount_pos hu
  have hone := Hands.places_le_one h conn
  omega

end Uniqueness

section Using

/-- What entitles a thread to the RFC it is executing. -/
def Custody.Using (g : Custody) (conn : Conn) : Purpose → Prop
  | .read => g.holding = .borrowed conn true
  | .discovery => g.holding = .borrowed conn true
  | .write e => conn = e.2.connection ∧ g.stage = .writing e
  | .commit e | .rollback e | .expire e | .shutdown e =>
    conn = e.2.connection ∧ e ∈ g.removed ∧ .active e.2.ref ∈ g.locks

/-- The entitlement lasts as long as the RFC. -/
def Custody.Entitled (g : Custody) : Prop := ∀ conn p, g.busy = some (conn, p) → g.Using conn p

/-- A borrowed connection that has been used leaves a thread by `release` only. -/
theorem borrowed_keep {limits : ResultLimitPolicy} {g : Custody} {o : Op} {v : o.Res}
    (hheld : g.holding = .borrowed conn true) (hallowed : g.allows limits o)
    (hrelease : ∀ conn reusable luw, o ≠ .poolRelease conn reusable luw) :
    (g.after limits o v).holding = .borrowed conn true := by
  cases hconn : o.movesConnections with
  | false => rw [(after_sameConnections limits g v hconn).holding, hheld]
  | true =>
    obtain ⟨_, hmay⟩ := hallowed
    cases o with
    | semAcquire | semRelease | scanIdle | appendIdle _ | openConnection | demoConnection
    | register _ _ => simp [Custody.MayPerform, hheld] at hmay
    | rfcBegin conn' p f kwargs =>
      cases p with
      | read | discovery =>
        obtain ⟨_, used, hborrowed⟩ := hmay
        rw [hheld] at hborrowed
        cases hborrowed
        rfl
      | _ => exact hheld
    | poolRelease _ _ _ => exact absurd rfl (hrelease _ _ _)
    | closeConnection conn' =>
      simp only [Custody.after, hheld]
      split
      · rename_i h; cases h
      · rfl
    | swapIdle => exact hheld
    | _ => cases hconn

/-- So does the connection of a transaction that the thread took out of the table. -/
theorem removed_keep {limits : ResultLimitPolicy} {g : Custody} {o : Op} {v : o.Res}
    (he : e ∈ g.removed) (hallowed : g.allows limits o)
    (hrelease : ∀ conn reusable luw, o ≠ .poolRelease conn reusable luw) :
    e ∈ (g.after limits o v).removed := by
  cases hentry : o.movesEntries with
  | false => rw [(after_sameEntries limits g v hentry).removed]; exact he
  | true =>
    cases o with
    | removeIfCurrent id a =>
      rw [(after_removeIfCurrent_sameEntries limits g id a v).removed]
      cases v
      · exact he
      · exact List.mem_cons_of_mem _ he
    | removeIfExpired id a cutoff =>
      cases v
      · exact he
      · exact List.mem_cons_of_mem _ he
    | drain => rw [hallowed.2.2] at he; cases he
    | poolRelease _ _ _ => exact absurd rfl (hrelease _ _ _)
    | newTransaction _ _ | tokenUrlsafe | register _ _ => exact he
    | _ => cases hentry

/-- An operation that leaves a thread in its RFC takes nothing away from it. -/
theorem using_keep {limits : ResultLimitPolicy} {g : Custody} {o : Op} {v : o.Res} {conn : Conn}
    {p : Purpose} (hg : g.Using conn p) (hbusy : g.busy = some (conn, p))
    (hallowed : g.allows limits o) (hend : ∀ conn f kwargs, o ≠ .rfcEnd conn f kwargs) :
    (g.after limits o v).Using conn p := by
  have hmoves := moves_of_allows hallowed v
  have hrelease : ∀ conn reusable luw, o ≠ .poolRelease conn reusable luw := by
    rintro conn reusable luw rfl
    have hidle := hallowed.2.1
    rw [hbusy] at hidle
    cases hidle
  have hstage : ∀ e, g.stage = .writing e → (g.after limits o v).stage = .writing e := by
    intro e hs
    generalize (g.after limits o v).stage = stage at hmoves
    cases hmoves with
    | same => exact hs
    | wrote | failed => exact absurd rfl (hend _ _ _)
    | locked h | current h | stale h | unknown h | ended h | late h | writing h | accepted h _
    | written h | finished h | refused h => rw [hs] at h; cases h
    | gaveUp h => rw [hs] at h; rcases h with ⟨_, h⟩ | h <;> cases h
  have hlocks : ∀ ref, LockId.active ref ∈ g.locks →
      LockId.active ref ∈ (g.after limits o v).locks := by
    intro ref hlock
    by_cases hrelease : ∃ l, o = .release l
    · obtain ⟨l, rfl⟩ := hrelease
      refine (List.mem_erase_of_ne ?_).mpr hlock
      rintro rfl
      have hidle := (hallowed.2.2 rfl).1
      rw [hbusy] at hidle
      cases hidle
    · exact after_locks_subset limits g v (fun l hl => hrelease ⟨l, hl⟩) hlock
  cases p with
  | read | discovery => exact borrowed_keep hg hallowed hrelease
  | write e => exact ⟨hg.1, hstage e hg.2⟩
  | commit e | rollback e | expire e | shutdown e =>
    exact ⟨hg.1, removed_keep hg.2.1 hallowed hrelease, hlocks e.2.ref hg.2.2⟩

theorem busy_of_step {limits : ResultLimitPolicy} {g : Custody} {o : Op} (v : o.Res) {conn : Conn}
    {p : Purpose} (hbusy : (g.after limits o v).busy = some (conn, p)) :
    (g.busy = some (conn, p) ∧ ∀ conn f kwargs, o ≠ .rfcEnd conn f kwargs) ∨
      ∃ f kwargs, o = .rfcBegin conn p f kwargs := by
  cases hrfc : o.isRfc with
  | false =>
    rw [(after_sameRfcs limits g v hrfc).busy] at hbusy
    refine .inl ⟨hbusy, ?_⟩
    rintro conn f kwargs rfl
    cases hrfc
  | true =>
    cases o with
    | rfcBegin conn' q f kwargs =>
      change (g.afterBegin conn' q).busy = _ at hbusy
      rw [g.afterBegin_busy] at hbusy
      cases hbusy
      exact .inr ⟨f, kwargs, rfl⟩
    | rfcEnd => cases hbusy
    | _ => cases hrfc

theorem entitled_step {limits : ResultLimitPolicy} {g : Custody} {o : Op} {v : o.Res}
    (hg : g.Entitled) (hallowed : g.allows limits o) : (g.after limits o v).Entitled := by
  intro conn p hbusy
  rcases busy_of_step v hbusy with ⟨hold, hend⟩ | ⟨f, kwargs, rfl⟩
  · exact using_keep (hg conn p hold) hold hallowed hend
  · obtain ⟨_, _, hmay⟩ := hallowed
    cases p with
    | read | discovery => rfl
    | write e => exact ⟨hmay.1, rfl⟩
    | commit e | rollback e =>
      obtain ⟨⟨hconn, hremoved, _, hlock⟩, _⟩ := hmay
      exact ⟨hconn, hremoved, hlock⟩
    | expire e | shutdown e =>
      obtain ⟨⟨hconn, hremoved, _, hlock⟩, _⟩ := hmay
      exact ⟨hconn, hremoved, hlock⟩

theorem Hands.entitled (h : w.Reachable) (t : ℕ) : (w.locals t).Entitled :=
  local_invariant (fun _ _ hbusy => by cases hbusy)
    (fun _ _ _ hg hallowed => entitled_step hg hallowed) h t

/-- A thread executes an RFC on a connection that it has borrowed, or under the lock of the open
transaction that owns it. -/
theorem Hands.busy_owner (h : w.Reachable) {p : Purpose}
    (ht : (w.locals t).busy = some (conn, p)) :
    (w.locals t).holding.conn = some conn ∨
      ∃ e, w.Open e ∧ e.2.connection = conn ∧ .active e.2.ref ∈ (w.locals t).locks := by
  have husing := Hands.entitled h t conn p ht
  cases p with
  | read | discovery => exact .inl (by rw [show (w.locals t).holding = _ from husing]; rfl)
  | write e =>
    obtain ⟨rfl, hstage⟩ := husing
    refine .inr ⟨e, live_open h (t := t) ?_, rfl, Hands.guarded h t e.2.ref ?_⟩ <;>
      rw [hstage] <;> rfl
  | commit e | rollback e | expire e | shutdown e =>
    obtain ⟨rfl, hremoved, hlock⟩ := husing
    exact .inr ⟨e, (open_iff h).mpr (.inr ⟨t, hremoved⟩), rfl, hlock⟩

/-- No two RFCs run on one connection at one time. -/
theorem Hands.busy_unique (h : w.Reachable) {p q : Purpose}
    (ht : (w.locals t).busy = some (conn, p)) (hu : (w.locals u).busy = some (conn, q)) :
    t = u := by
  rcases Hands.busy_owner h ht with hheld | ⟨e, hopen, hconn, hlock⟩ <;>
    rcases Hands.busy_owner h hu with hheld' | ⟨e', hopen', hconn', hlock'⟩
  · exact Hands.held_unique h hheld hheld'
  · exact absurd (by rw [hheld, hconn']) (hopen'.not_held h (t := t))
  · exact absurd (by rw [hheld', hconn]) (hopen.not_held h (t := u))
  · obtain rfl := hopen.unique h hopen' (by rw [hconn, hconn'])
    exact Hands.lock_unique h hlock hlock'

end Using

end RfcMcp
