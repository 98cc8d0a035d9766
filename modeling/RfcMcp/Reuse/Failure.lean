import RfcMcp.Custody.Affinity
import RfcMcp.Reuse.Programs

namespace RfcMcp

open Framework Framework.System

section Failure

/-- An RFC of thread `t` on `conn` has raised. -/
def RaisedOn {R : Type} (conn : Conn) (t : ℕ) (h : History R) : Prop :=
  ∃ f kwargs exc, .did t (.rfcEnd conn f kwargs) (.error exc) ∈ h

def Rfc.raised (rfc : Rfc) : Bool :=
  match rfc.result with
  | some (.error _) => true
  | _ => false

/-- A write of thread `t` on the transaction `e` has raised. -/
def writeRaised {R : Type} (t : ℕ) (e : Entry) (h : History R) : Bool :=
  (rfcsOf t h).any fun rfc => decide (rfc.purpose = .write e) && rfc.raised

/-- A thread that comes to discard a transaction because its write has raised finds it
registered. -/
def discardFinds {cfg : AppSettings} (c : Run cfg) (t : ℕ) : Op → Bool
  | .removeIfCurrent id a =>
    !writeRaised t (id, a) c.history || decide (c.shared.active id = some a)
  | _ => true

end Failure

section Hands

variable {cfg : AppSettings} {Request Reply : Type} {program : Request → Program Effects Reply}
  {w : Hands cfg program} {t : ℕ} {conn : Conn}

/-- Where a connection is once an RFC on it has raised, until it is closed: with the thread that saw
the failure. `raised` tells on which transactions this thread's writes have raised. -/
inductive Custody.Keeper (g : Custody) (k : Wear) (raised : Entry → Bool) (conn : Conn) : Prop
  | borrowed (hspoiled : k.spoiled = some conn) (hbusy : g.busy = none)
      (h : g.holding = .borrowed conn true)
  | removed {e : Entry} (hspoiled : k.spoiled = some conn) (hbusy : g.busy = none)
      (h : e ∈ g.removed) (hconn : e.2.connection = conn)
  | failed {e : Entry} (hspoiled : k.spoiled = some conn) (hbusy : g.busy = none)
      (h : g.stage = .failed e) (hconn : e.2.connection = conn) (hraised : raised e = true)
  | returning (haccepted : k.accepted = none) (h : g.holding = .returning conn)

/-- The connection is out of the pool's reach: closed, of an open transaction, or in someone's
hands. -/
def Hands.Away (w : Hands cfg program) (conn : Conn) : Prop :=
  0 < w.shared.closed.count conn + w.openCount (hasConn conn) + w.total (Custody.heldCount conn)

theorem Hands.Away.notIdle (h : w.Reachable) (haway : w.Away conn) :
    conn ∉ w.shared.idle ∧ conn < w.shared.nextConn := by
  have hle := Hands.places_le h conn
  unfold Hands.Away at haway
  constructor
  · intro hidle
    have hpos : 0 < w.shared.idle.count conn := List.count_pos_iff.mpr hidle
    split at hle <;> omega
  · by_contra hge
    rw [if_neg hge] at hle
    omega

theorem Hands.away_of_closed (hclosed : conn ∈ w.shared.closed) : w.Away conn := by
  have hpos : 0 < w.shared.closed.count conn := List.count_pos_iff.mpr hclosed
  unfold Hands.Away
  omega

theorem Hands.away_of_open {e : Entry} (hopen : w.Open e) : w.Away e.2.connection := by
  have hpos := hopen.conn_pos
  unfold Hands.Away
  omega

theorem Hands.away_of_held (h : w.Reachable) (hheld : (w.locals t).holding.conn = some conn) :
    w.Away conn := by
  have hle := Crew.le_total (Custody.heldCount conn) (Hands.lt_of_held h hheld)
  have hpos := Custody.heldCount_pos hheld
  unfold Hands.Away
  omega

theorem Hands.away_of_keeper (h : w.Reachable) {k : Wear} {raised : Entry → Bool}
    (hkeeper : (w.locals t).Keeper k raised conn) : w.Away conn := by
  cases hkeeper with
  | borrowed _ _ hheld =>
    refine Hands.away_of_held h (t := t) ?_
    rw [hheld]
    rfl
  | removed _ _ hremoved hconn =>
    subst hconn
    exact Hands.away_of_open ((Hands.open_iff h).mpr (.inr ⟨t, hremoved⟩))
  | failed _ _ hstage hconn _ =>
    subst hconn
    refine Hands.away_of_open (Hands.live_open h (t := t) ?_)
    rw [hstage]
    rfl
  | returning _ hheld =>
    refine Hands.away_of_held h (t := t) ?_
    rw [hheld]
    rfl

theorem not_returning {g : Custody} {conn' : Conn} {luw : Option Entry}
    (hmay : g.MayRelease conn' luw) : g.holding ≠ .returning conn := by
  intro hheld
  cases luw with
  | none =>
    obtain ⟨used, hborrowed⟩ := hmay
    rw [hheld] at hborrowed
    cases hborrowed
  | some e =>
    have hnothing := hmay.1
    rw [hheld] at hnothing
    cases hnothing

/-- A connection that is being returned is put back or closed, and nothing else. -/
theorem returning_keep {limits : ResultLimitPolicy} {g : Custody} {o : Op} {v : o.Res}
    (hheld : g.holding = .returning conn) (hallowed : g.allows limits o)
    (happend : o ≠ .appendIdle conn) (hclose : o ≠ .closeConnection conn) :
    (g.after limits o v).holding = .returning conn := by
  cases hconn : o.movesConnections with
  | false => rw [(after_sameConnections limits g v hconn).holding, hheld]
  | true =>
    obtain ⟨_, hmay⟩ := hallowed
    cases o with
    | semAcquire | semRelease | scanIdle | openConnection | demoConnection | register _ _ =>
      simp [Custody.MayPerform, hheld] at hmay
    | appendIdle conn' =>
      change g.holding = .returning conn' at hmay
      rw [hheld] at hmay
      cases hmay
      exact absurd rfl happend
    | closeConnection conn' =>
      have hne : conn' ≠ conn := fun heq => hclose (by rw [heq])
      simp only [Custody.after, hheld, Holding.returning.injEq, if_neg (Ne.symm hne)]
    | rfcBegin conn' p f kwargs =>
      cases p with
      | read | discovery =>
        obtain ⟨_, used, hborrowed⟩ := hmay
        rw [hheld] at hborrowed
        cases hborrowed
      | _ => exact hheld
    | poolRelease conn' reusable luw =>
      cases luw with
      | none =>
        obtain ⟨_, used, hborrowed⟩ := hmay
        rw [hheld] at hborrowed
        cases hborrowed
      | some e =>
        have hnothing := hmay.2.1
        rw [hheld] at hnothing
        cases hnothing
    | swapIdle => exact hheld
    | _ => cases hconn

theorem wear_after_spoiled {k : Wear} {o : Op} (v : o.Res) (hrfc : o.isRfc = false)
    (hrelease : ∀ conn reusable luw, o ≠ .poolRelease conn reusable luw) : k.after o v = k := by
  cases o with
  | rfcBegin _ _ _ _ | rfcEnd _ _ _ => cases hrfc
  | poolRelease conn reusable luw => exact absurd rfl (hrelease conn reusable luw)
  | _ => rfl

/-- Whoever keeps a connection after a failure keeps it until it is closed. -/
theorem Custody.Keeper.step {g : Custody} {k : Wear} {raised raised' : Entry → Bool} {o : Op}
    {v : o.Res} {s s' : Shared} (hkeeper : g.Keeper k raised conn)
    (hallowed : g.allows cfg.limits o) (hwear : wear.allows o k) (hdoes : Does cfg t s o v s')
    (hfinds : ∀ id a, o = .removeIfCurrent id a → raised (id, a) = true → s.active id = some a)
    (hraised : o.isRfc = false → raised' = raised) :
    conn ∈ s'.closed ∨ (g.after cfg.limits o v).Keeper (k.after o v) raised' conn := by
  -- with a spoiled connection a thread begins no RFC, ends none, and releases nothing else
  have hspoiled : k.spoiled = some conn → g.busy = none →
      (∃ luw, o = .poolRelease conn false luw) ∨
        o.isRfc = false ∧ ∀ conn reusable luw, o ≠ .poolRelease conn reusable luw := by
    intro hk hbusy
    cases o with
    | rfcBegin conn' p f kwargs =>
      change k.spoiled = none at hwear
      rw [hk] at hwear
      cases hwear
    | rfcEnd conn' f kwargs =>
      obtain ⟨_, p, hp⟩ := hallowed
      rw [hbusy] at hp
      cases hp
    | poolRelease conn' reusable luw =>
      rcases hwear with hclean | ⟨hconn, rfl⟩
      · change k.spoiled = none at hclean
        rw [hk] at hclean
        cases hclean
      · rw [hk] at hconn
        cases hconn
        exact .inl ⟨luw, rfl⟩
    | _ => exact .inr ⟨rfl, nofun⟩
  have hreleased : ∀ luw, o = .poolRelease conn false luw →
      (g.after cfg.limits o v).Keeper (k.after o v) raised' conn := by
    rintro luw rfl
    cases luw <;> exact .returning rfl rfl
  cases hkeeper with
  | borrowed hk hbusy hheld =>
    rcases hspoiled hk hbusy with ⟨luw, ho⟩ | ⟨hrfc, hrelease⟩
    · exact .inr (hreleased luw ho)
    · refine .inr (.borrowed ?_ ?_ (borrowed_keep hheld hallowed hrelease))
      · rw [wear_after_spoiled v hrfc hrelease, hk]
      · rw [(after_sameRfcs cfg.limits g v hrfc).busy, hbusy]
  | removed hk hbusy hremoved hconn =>
    rcases hspoiled hk hbusy with ⟨luw, ho⟩ | ⟨hrfc, hrelease⟩
    · exact .inr (hreleased luw ho)
    · refine .inr (.removed ?_ ?_ (removed_keep hremoved hallowed hrelease) hconn)
      · rw [wear_after_spoiled v hrfc hrelease, hk]
      · rw [(after_sameRfcs cfg.limits g v hrfc).busy, hbusy]
  | @failed e hk hbusy hstage hconn hwrite =>
    rcases hspoiled hk hbusy with ⟨luw, ho⟩ | ⟨hrfc, hrelease⟩
    · exact .inr (hreleased luw ho)
    right
    have hk' : (k.after o v).spoiled = some conn := by
      rw [wear_after_spoiled v hrfc hrelease, hk]
    have hbusy' : (g.after cfg.limits o v).busy = none := by
      rw [(after_sameRfcs cfg.limits g v hrfc).busy, hbusy]
    have hmoves := moves_of_allows hallowed v
    have hcases : (g.after cfg.limits o v).stage = .failed e ∨ o = .removeIfCurrent e.1 e.2 := by
      generalize (g.after cfg.limits o v).stage = stage at hmoves
      cases hmoves with
      | same => exact .inl hstage
      | gaveUp hs =>
        rw [hstage] at hs
        rcases hs with ⟨_, hs⟩ | hs <;> cases hs
        exact .inr rfl
      | locked hs | current hs | stale hs | unknown hs | ended hs | late hs | writing hs | wrote hs
      | failed hs | accepted hs _ | written hs | finished hs | refused hs =>
        rw [hstage] at hs
        cases hs
    rcases hcases with hsame | rfl
    · exact .failed hk' hbusy' hsame hconn (by rw [hraised hrfc]; exact hwrite)
    · -- the discard: the transaction is registered, so that the thread takes it out
      have hactive := hfinds e.1 e.2 rfl hwrite
      cases hdoes with
      | notCurrent hnot => exact absurd hactive hnot
      | removed _ =>
        refine .removed (e := e) hk' hbusy' ?_ hconn
        rw [(after_removeIfCurrent_sameEntries cfg.limits g e.1 e.2 true).removed]
        exact List.mem_cons_self
  | returning haccepted hheld =>
    by_cases hclose : o = .closeConnection conn
    · subst hclose
      cases hdoes
      exact .inl List.mem_cons_self
    have happend : o ≠ .appendIdle conn := by
      rintro rfl
      change k.accepted = some conn at hwear
      rw [haccepted] at hwear
      cases hwear
    refine .inr (.returning ?_ (returning_keep hheld hallowed happend hclose))
    cases o with
    | poolRelease conn' reusable luw =>
      exact absurd hheld (not_returning hallowed.2.2)
    | rfcEnd conn' f kwargs => cases v <;> exact haccepted
    | _ => exact haccepted

/-- The thread whose RFC raises has the connection. -/
theorem Custody.Entitled.keeper {limits : ResultLimitPolicy} {g : Custody} (hg : g.Entitled)
    (k : Wear) {f : String} {kwargs : PyDict} {exc : PyExc} {raised : Entry → Bool}
    (hallowed : g.allows limits (.rfcEnd conn f kwargs))
    (hraised : ∀ e, g.busy = some (conn, .write e) → raised e = true) :
    (g.after limits (.rfcEnd conn f kwargs) (.error exc)).Keeper
      (k.after (.rfcEnd conn f kwargs) (.error exc)) raised conn := by
  obtain ⟨_, p, hbusy⟩ := hallowed
  have husing := hg conn p hbusy
  cases p with
  | read | discovery => exact .borrowed rfl rfl husing
  | write e =>
    obtain ⟨hconn, hstage⟩ := husing
    refine .failed (e := e) rfl rfl ?_ hconn.symm (hraised e hbusy)
    simp only [Custody.after, Custody.afterEnd, hstage]
  | commit e | rollback e | expire e | shutdown e =>
    exact .removed rfl rfl husing.2.1 husing.1.symm

end Hands

end RfcMcp
