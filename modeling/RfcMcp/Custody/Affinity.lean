import RfcMcp.Custody.History
import RfcMcp.Custody.Invoker
import RfcMcp.Custody.Ownership
import RfcMcp.Mediation.History

namespace RfcMcp

open Framework Framework.System

section Accounts

/-- The connection that leaves the pool. -/
def Op.handsOut : (o : Op) → o.Res → Option Conn
  | .scanIdle, found => found
  | .openConnection, .ok conn => some conn
  | _, _ => none

/-- The connection that is passed to `release`. -/
def Op.takesBack : Op → Option Conn
  | .poolRelease conn _ _ => some conn
  | _ => none

/-- Is the connection between a checkout and its release? -/
def handedOut {R : Type} (conn : Conn) : History R → Bool
  | [] => false
  | .start _ _ :: h => handedOut conn h
  | .did _ o v :: h =>
    if o.handsOut v = some conn then true
    else if o.takesBack = some conn then false
    else handedOut conn h

/-- What the RFCs on a connection have been for since its last checkout, the newest first. -/
def issuedOn {R : Type} (conn : Conn) : History R → List Purpose
  | [] => []
  | .start _ _ :: h => issuedOn conn h
  | .did _ o v :: h =>
    if o.handsOut v = some conn then []
    else match o with
      | .rfcBegin conn' p _ _ => if conn' = conn then p :: issuedOn conn h else issuedOn conn h
      | _ => issuedOn conn h

/-- An RFC, and its result unless it is under way. -/
structure Rfc where
  conn : Conn
  purpose : Purpose
  result : Option (Except PyExc PyDict)

def Op.onRfcs : (o : Op) → o.Res → List Rfc → List Rfc
  | .rfcBegin conn p _ _, _, rfcs => ⟨conn, p, none⟩ :: rfcs
  | .rfcEnd _ _ _, r, rfc :: rfcs => { rfc with result := some r } :: rfcs
  | _, _, rfcs => rfcs

/-- The RFCs of thread `t`, the newest first. -/
def rfcsOf {R : Type} (t : ℕ) : History R → List Rfc
  | [] => []
  | .start _ _ :: h => rfcsOf t h
  | .did u o v :: h => if u = t then o.onRfcs v (rfcsOf t h) else rfcsOf t h

/-- Only the newest RFC is under way, and only if there is one at all. -/
def Rfc.Tracks : Option (Conn × Purpose) → List Rfc → Prop
  | none, rfcs => ∀ rfc ∈ rfcs, rfc.result ≠ none
  | some (conn, p), rfcs =>
    ∃ rest, rfcs = ⟨conn, p, none⟩ :: rest ∧ ∀ rfc ∈ rest, rfc.result ≠ none

theorem Rfc.tracks_step {limits : ResultLimitPolicy} {g : Custody} {o : Op}
    (hallowed : g.allows limits o) (v : o.Res) {rfcs : List Rfc} (hg : Rfc.Tracks g.busy rfcs) :
    Rfc.Tracks (g.after limits o v).busy (o.onRfcs v rfcs) := by
  cases hrfc : o.isRfc with
  | false =>
    rw [(after_sameRfcs limits g v hrfc).busy]
    cases o <;> first | exact hg | cases hrfc
  | true =>
    cases o with
    | rfcBegin conn p f kwargs =>
      rw [hallowed.2.1] at hg
      show Rfc.Tracks (g.afterBegin conn p).busy _
      rw [g.afterBegin_busy]
      exact ⟨rfcs, rfl, hg⟩
    | rfcEnd conn f kwargs =>
      obtain ⟨_, p, hbusy⟩ := hallowed
      rw [hbusy] at hg
      obtain ⟨rest, rfl, hrest⟩ := hg
      intro rfc hmem
      rcases List.mem_cons.mp hmem with rfl | hmem
      · exact nofun
      · exact hrest rfc hmem
    | _ => cases hrfc

/-- The RFC that thread `t` is executing. -/
def inFlight {R : Type} (t : ℕ) (h : History R) : Option (Conn × Purpose) :=
  match rfcsOf t h with
  | ⟨conn, p, none⟩ :: _ => some (conn, p)
  | _ => none

end Accounts

section Hands

variable {cfg : AppSettings} {Request Reply : Type} {program : Request → Program Effects Reply}
  {w : Hands cfg program} {t u : ℕ} {e : Entry} {conn : Conn}

/-- How often `conn` is with a thread that has borrowed it. -/
def Holding.lent (conn : Conn) : Holding → ℕ
  | .borrowed conn' _ => if conn' = conn then 1 else 0
  | _ => 0

def Custody.lentCount (conn : Conn) (g : Custody) : ℕ := g.holding.lent conn

/-- Connections are borrowed from the pool, go over to transactions, and are passed to `release`. -/
theorem lent_step {g : Custody} {s s' : Shared} {o : Op} {v : o.Res}
    (hallowed : g.allows cfg.limits o) (hdoes : Does cfg t s o v s') (conn : Conn) :
    (g.after cfg.limits o v).lentCount conn + weight (hasConn conn) o.enters +
        (if o.takesBack = some conn then 1 else 0) =
      g.lentCount conn + weight (hasConn conn) o.leaves +
        (if o.handsOut v = some conn then 1 else 0) := by
  unfold Custody.lentCount
  have hsame := after_sameConnections cfg.limits g v
  cases hdoes
  case semAcquired =>
    obtain ⟨_, _, _, hholding⟩ := hallowed
    rw [hholding]
    rfl
  case semTimeout => rfl
  case semRelease => obtain ⟨_, hholding | hholding⟩ := hallowed <;> rw [hholding] <;> rfl
  case scanIdle found rest closed hscan =>
    rw [show g.holding = .permit from hallowed.2]
    cases found with
    | none => rfl
    | some conn' =>
      simp [Custody.after, Holding.lent, Op.handsOut, Op.takesBack, weight, Op.enters, Op.leaves]
  case appendIdle conn' => rw [show g.holding = .returning conn' from hallowed.2]; rfl
  case swapIdle => rfl
  case opened =>
    rw [show g.holding = .opening from hallowed.2]
    simp [Custody.after, Holding.lent, Op.handsOut, Op.takesBack, weight, Op.enters, Op.leaves]
  case openFailed => rfl
  case closeConnection conn' =>
    simp only [Custody.after]
    split
    · rename_i hholding
      rw [hholding]
      rfl
    · rfl
  case demoConnection => exact hallowed.2.elim
  case rfcBegin conn' p f kwargs =>
    obtain ⟨_, _, hmay⟩ := hallowed
    cases p
    case read => obtain ⟨used, hholding⟩ := hmay; rw [hholding]; rfl
    case discovery => obtain ⟨used, hholding⟩ := hmay; rw [hholding]; rfl
    all_goals rfl
  case poolRelease conn' reusable luw =>
    obtain ⟨_, _, hmay⟩ := hallowed
    cases luw with
    | none =>
      obtain ⟨used, hholding⟩ := hmay
      rw [hholding]
      simp [Custody.after, Custody.afterRelease, Holding.lent, Op.handsOut, Op.takesBack, weight,
        Op.enters, Op.leaves]
    | some e =>
      obtain ⟨hholding, rfl, _⟩ := hmay
      rw [hholding]
      simp [Custody.after, Custody.afterRelease, Holding.lent, Op.handsOut, Op.takesBack, weight,
        Op.enters, Op.leaves, hasConn, List.countP_cons]
  case register id a =>
    rw [hallowed.2.2.2]
    simp [Custody.after, Holding.lent, Op.handsOut, Op.takesBack, weight, Op.enters, Op.leaves,
      hasConn, List.countP_cons]
  all_goals
    rw [(hsame rfl).holding]
    rfl

/-- How often the pool has `conn` out: with a borrower, or with an open transaction. -/
def Hands.outCount (w : Hands cfg program) (conn : Conn) : ℕ :=
  w.openCount (hasConn conn) + w.total (Custody.lentCount conn)

theorem Hands.outCount_advance (h : w.Reachable) (ht : t < w.size) {o : Op} {v : o.Res} {s : Shared}
    (hallowed : (w.locals t).allows cfg.limits o) (hdoes : Does cfg t w.shared o v s)
    (conn : Conn) :
    Hands.outCount (w.advance t o v s) conn + (if o.takesBack = some conn then 1 else 0) =
      w.outCount conn + (if o.handsOut v = some conn then 1 else 0) := by
  have hopen := Hands.openCount_advance h ht hallowed hdoes (hasConn conn)
  have hlent := lent_step hallowed hdoes conn
  have htotal := Crew.total_advance (Custody.lentCount conn) w ht o v s
  change _ = _ + ((w.locals t).after cfg.limits o v).lentCount conn at htotal
  unfold Hands.outCount
  omega

theorem Custody.lentCount_le (g : Custody) (conn : Conn) : g.lentCount conn ≤ g.heldCount conn := by
  unfold Custody.lentCount Custody.heldCount
  cases g.holding with
  | borrowed conn' used =>
    simp only [Holding.lent, Holding.conn, Option.toList, List.count_cons, List.count_nil]
    split
    · simp [*]
    · simp
  | _ => exact Nat.zero_le _

theorem Hands.outCount_le_one (h : w.Reachable) (conn : Conn) : w.outCount conn ≤ 1 := by
  have hone := Hands.places_le_one h conn
  have hle := Crew.total_le (Custody.lentCount conn) (Custody.heldCount conn) (w := w)
    fun t => (w.locals t).lentCount_le conn
  unfold Hands.outCount
  omega

/-- What leaves the pool was with nobody. -/
theorem Hands.outCount_eq_zero (h : w.Reachable) {o : Op} {v : o.Res} {s : Shared}
    (hdoes : Does cfg t w.shared o v s) (hout : o.handsOut v = some conn) :
    w.outCount conn = 0 := by
  have hplaces := Hands.places_le h conn
  have hle := Crew.total_le (Custody.lentCount conn) (Custody.heldCount conn) (w := w)
    fun t => (w.locals t).lentCount_le conn
  unfold Hands.outCount
  cases hdoes <;> try cases hout
  case scanIdle rest closed hscan =>
    have hcount := scan_count hscan conn
    simp at hcount
    split at hplaces <;> omega
  case opened =>
    rw [if_neg (Nat.lt_irrefl _)] at hplaces
    omega

/-- Who is responsible for a connection that the pool has handed out. -/
inductive Owner
  | borrower (t : ℕ)
  | transaction (e : Entry)

/-- A borrower has the connection in its hands; a transaction owns its connection while it is in the
table or with the thread that is ending it. -/
def Hands.Owns (w : Hands cfg program) (conn : Conn) : Owner → Prop
  | .borrower t => ∃ used, (w.locals t).holding = .borrowed conn used
  | .transaction e =>
    e.2.connection = conn ∧ (e ∈ w.shared.table ∨ ∃ t, e ∈ (w.locals t).removed)

theorem Hands.owner_unique (h : w.Reachable) {a b : Owner} (ha : w.Owns conn a)
    (hb : w.Owns conn b) : a = b := by
  cases a with
  | borrower t =>
    obtain ⟨used, ht⟩ := ha
    have hheld : (w.locals t).holding.conn = some conn := by rw [ht]; rfl
    cases b with
    | borrower u =>
      obtain ⟨used', hu⟩ := hb
      rw [Hands.held_unique h hheld (u := u) (by rw [hu]; rfl)]
    | transaction e =>
      obtain ⟨hconn, he⟩ := hb
      exact absurd (by rw [hheld, hconn]) (((open_iff h).mpr he).not_held h (t := t))
  | transaction e =>
    obtain ⟨hconn, he⟩ := ha
    have hopen := (open_iff h).mpr he
    cases b with
    | borrower u =>
      obtain ⟨used', hu⟩ := hb
      exact absurd (by rw [hu, hconn]; rfl) (hopen.not_held h (t := u))
    | transaction e' =>
      obtain ⟨hconn', he'⟩ := hb
      rw [hopen.unique h ((open_iff h).mpr he') (by rw [hconn, hconn'])]

theorem Hands.owner_iff (h : w.Reachable) : 0 < w.outCount conn ↔ ∃ a, w.Owns conn a := by
  constructor
  · intro hpos
    unfold Hands.outCount at hpos
    by_cases hopen : 0 < w.openCount (hasConn conn)
    · unfold Hands.openCount at hopen
      by_cases htable : 0 < w.shared.table.countP (hasConn conn)
      · obtain ⟨e, he, hconn⟩ := List.countP_pos_iff.mp htable
        exact ⟨.transaction e, of_decide_eq_true hconn, .inl he⟩
      · have hremoved : 0 < w.total fun g : Custody => g.removed.countP (hasConn conn) := by omega
        obtain ⟨t, _, ht⟩ := Crew.exists_of_total_pos _ hremoved
        obtain ⟨e, he, hconn⟩ := List.countP_pos_iff.mp ht
        exact ⟨.transaction e, of_decide_eq_true hconn, .inr ⟨t, he⟩⟩
    · have hlent : 0 < w.total (Custody.lentCount conn) := by omega
      obtain ⟨t, _, ht⟩ := Crew.exists_of_total_pos _ hlent
      refine ⟨.borrower t, ?_⟩
      change 0 < (w.locals t).holding.lent conn at ht
      show ∃ used, (w.locals t).holding = .borrowed conn used
      cases hholding : (w.locals t).holding with
      | borrowed conn' used =>
        rw [hholding] at ht
        by_cases hconn : conn' = conn
        · exact ⟨used, by rw [hconn]⟩
        · simp [Holding.lent, hconn] at ht
      | _ => rw [hholding] at ht; cases ht
  · rintro ⟨a, ha⟩
    unfold Hands.outCount
    cases a with
    | borrower t =>
      obtain ⟨used, ht⟩ := ha
      have hheld : (w.locals t).holding.conn = some conn := by
        rw [ht]
        rfl
      have hlt := Hands.lt_of_held h hheld
      have hle := Crew.le_total (Custody.lentCount conn) hlt
      have hone : Custody.lentCount conn (w.locals t) = 1 := by
        unfold Custody.lentCount
        rw [ht]
        simp [Holding.lent]
      omega
    | transaction e =>
      obtain ⟨rfl, he⟩ := ha
      have hpos := ((open_iff h).mpr he).conn_pos
      omega

/-- A connection that its borrower has not used has just come from the pool, or was there. -/
theorem unused_of_step {limits : ResultLimitPolicy} {g : Custody} {o : Op}
    (hallowed : g.allows limits o) (v : o.Res)
    (hheld : (g.after limits o v).holding = .borrowed conn false) :
    o.handsOut v = some conn ∨ g.holding = .borrowed conn false := by
  cases hconn : o.movesConnections with
  | false =>
    rw [(after_sameConnections limits g v hconn).holding] at hheld
    exact .inr hheld
  | true =>
    cases o with
    | scanIdle =>
      cases v with
      | none => cases hheld
      | some conn' =>
        cases hheld
        exact .inl rfl
    | openConnection =>
      cases v with
      | error exc => exact .inr hheld
      | ok conn' =>
        cases hheld
        exact .inl rfl
    | semAcquire =>
      cases v
      · exact .inr hheld
      · cases hheld
    | closeConnection conn' =>
      simp only [Custody.after] at hheld
      split at hheld
      · cases hheld
      · exact .inr hheld
    | rfcBegin conn' p f kwargs => cases p <;> first | exact .inr hheld | cases hheld
    | poolRelease conn' reusable luw => cases luw <;> cases hheld
    | swapIdle => exact .inr hheld
    | demoConnection => exact hallowed.2.elim
    | semRelease | appendIdle _ | register _ _ => cases hheld
    | _ => cases hconn

theorem mem_issuedOn_did {R : Type} {o : Op} {v : o.Res} {h : History R} {p : Purpose}
    (hp : p ∈ issuedOn conn (.did u o v :: h)) :
    p ∈ issuedOn conn h ∨ ∃ f kwargs, o = .rfcBegin conn p f kwargs := by
  unfold issuedOn at hp
  split at hp
  · cases hp
  · split at hp
    · rename_i conn' q f kwargs _ _
      split at hp
      · rename_i hconn
        subst hconn
        rcases List.mem_cons.mp hp with rfl | hold
        · exact .inr ⟨f, kwargs, rfl⟩
        · exact .inl hold
      · exact .inl hp
    · exact .inl hp

/-- A thread that has not used its connection yet may not use the connection of a transaction. -/
theorem Hands.begin_entry (h : w.Reachable) {p : Purpose} {f : String} {kwargs : PyDict}
    (hallowed : (w.locals t).allows cfg.limits (.rfcBegin conn p f kwargs)) :
    (p.entry = none ∧ ∃ used, (w.locals t).holding = .borrowed conn used) ∨
      ∃ e, p.entry = some e ∧ w.Open e ∧ e.2.connection = conn := by
  obtain ⟨_, _, hmay⟩ := hallowed
  cases p with
  | read | discovery => exact .inl ⟨rfl, hmay⟩
  | write e =>
    obtain ⟨rfl, hcurrent⟩ := hmay
    exact .inr ⟨e, rfl, live_open h (t := t) (by rw [hcurrent]; rfl), rfl⟩
  | commit e | rollback e | expire e | shutdown e =>
    obtain ⟨⟨rfl, hremoved, _⟩, _⟩ := hmay
    exact .inr ⟨e, rfl, (open_iff h).mpr (.inr ⟨t, hremoved⟩), rfl⟩

end Hands

section Runs

variable {cfg : AppSettings} {Request Reply : Type} {program : Request → Program Effects Reply}
  {post : Request → Reply → Custody → Prop} {c : (runtime cfg program).Config} {t u : ℕ} {e : Entry}
  {conn : Conn} (hprog : ∀ r, (custody cfg.limits).Follows (post r) (program r) {})

include hprog

theorem handedOut_iff (h : Reachable c) (conn : Conn) :
    handedOut conn c.history = true ↔ 0 < (hands c).outCount conn := by
  refine run_induction hprog
    (I := fun c => handedOut conn c.history = true ↔ 0 < (hands c).outCount conn) ?_ ?_ ?_ h
  · constructor <;> intro hout <;> cases hout
  · intro c r _ hstart ih
    have hspawn : hands (c.spawn r) = { hands c with size := (hands c).size + 1 } :=
      Crew.of_spawn c r
    have hsame : (hands (c.spawn r)).outCount conn = (hands c).outCount conn := by
      unfold Hands.outCount
      rw [hspawn, Hands.openCount_start hstart, Crew.total_start, hstart]
      rfl
    rw [hsame]
    exact ih
  · intro c u o v c' _ hw hu hallowed hdoes hhands hhistory ih
    have hcount := Hands.outCount_advance hw hu hallowed hdoes conn
    have hone := Hands.outCount_le_one hw conn
    rw [← hhands] at hcount
    rw [hhistory]
    simp only [handedOut]
    by_cases hout : o.handsOut v = some conn
    · have hzero := Hands.outCount_eq_zero hw hdoes hout
      have hback : o.takesBack ≠ some conn := by
        cases o with
        | poolRelease _ _ _ => cases hout
        | _ => exact nofun
      rw [if_pos hout, if_neg hback] at hcount
      simp only [hout, if_true, true_iff]
      omega
    · by_cases hback : o.takesBack = some conn
      · rw [if_neg hout, if_pos hback] at hcount
        simp only [hout, hback, if_true, if_false, Bool.false_eq_true, false_iff]
        omega
      · rw [if_neg hout, if_neg hback] at hcount
        simp only [hout, hback, if_false, ih]
        omega

/-- The RFCs on the connection of an open transaction are its own, and there is none on a connection
that its borrower has not used. -/
theorem issuedOn_owned (h : Reachable c) :
    (∀ e, (hands c).Open e → ∀ p ∈ issuedOn e.2.connection c.history, p.entry = some e) ∧
      ∀ t conn, ((hands c).locals t).holding = .borrowed conn false →
        issuedOn conn c.history = [] := by
  refine run_induction hprog
    (I := fun c =>
      (∀ e, (hands c).Open e → ∀ p ∈ issuedOn e.2.connection c.history, p.entry = some e) ∧
        ∀ t conn, ((hands c).locals t).holding = .borrowed conn false →
          issuedOn conn c.history = []) ?_ ?_ ?_ h
  · exact ⟨fun _ _ _ hmem => absurd hmem List.not_mem_nil, fun _ _ _ => rfl⟩
  · rintro c r _ hstart ⟨ihopen, ihheld⟩
    have hspawn : hands (c.spawn r) = { hands c with size := (hands c).size + 1 } :=
      Crew.of_spawn c r
    rw [hspawn]
    refine ⟨fun e he => ihopen e ?_, ihheld⟩
    unfold Hands.Open at he ⊢
    rw [Hands.openCount_start hstart] at he
    exact he
  · rintro c u o v c' _ hw hu hallowed hdoes hhands hhistory ⟨ihopen, ihheld⟩
    rw [hhands, hhistory]
    constructor
    · intro e he
      have hcount := Hands.openCount_advance hw hu hallowed hdoes (isEntry e)
      by_cases henters : o.enters = some e
      · -- the borrower has not used the connection that it registers
        cases o <;> try cases henters
        rename_i id a
        intro p hp
        rcases mem_issuedOn_did hp with hold | ⟨_, _, hcall⟩
        · rw [ihheld u a.connection hallowed.2.2.2] at hold
          cases hold
        · cases hcall
      · have hopen : (hands c).Open e := by
          have hzero : weight (isEntry e) o.enters = 0 := by
            cases hl : o.enters with
            | none => rfl
            | some e' =>
              have hne : e' ≠ e := fun he' => henters (by rw [hl, he'])
              simp [weight, isEntry, hne]
          unfold Hands.Open at he ⊢
          omega
        intro p hp
        rcases mem_issuedOn_did hp with hold | ⟨f, kwargs, rfl⟩
        · exact ihopen e hopen p hold
        · rcases Hands.begin_entry hw hallowed with ⟨_, used, hheld⟩ | ⟨e', he', hopen', hconn⟩
          · exact absurd (by rw [hheld]; rfl) (hopen.not_held hw (t := u))
          · rw [he', hopen'.unique hw hopen hconn]
    · intro t conn hheld
      have hbefore : o.handsOut v = some conn ∨
          ((hands c).locals t).holding = .borrowed conn false := by
        by_cases htu : t = u
        · subst htu
          rw [Crew.advance_self] at hheld
          exact unused_of_step hallowed v hheld
        · rw [Crew.advance_ne _ htu] at hheld
          exact .inr hheld
      rcases hbefore with hout | hold
      · unfold issuedOn
        rw [if_pos hout]
      · refine List.eq_nil_iff_forall_not_mem.mpr fun p hp => ?_
        rcases mem_issuedOn_did hp with hissued | ⟨f, kwargs, rfl⟩
        · rw [ihheld t conn hold] at hissued
          cases hissued
        · have hconn : ((hands c).locals t).holding.conn = some conn := by rw [hold]; rfl
          rcases Hands.begin_entry hw hallowed with ⟨hentry, used, hlent⟩ | ⟨e, _, hopen, rfl⟩
          · obtain rfl := Hands.held_unique hw hconn (u := u) (by rw [hlent]; rfl)
            rw [Crew.advance_self] at hheld
            cases p <;> first | cases hentry; done | cases hheld
          · exact hopen.not_held hw hconn

/-- The newest RFC of a thread is under way as long as the thread is busy. -/
theorem rfcsOf_tracks (h : Reachable c) (t : ℕ) :
    Rfc.Tracks ((hands c).locals t).busy (rfcsOf t c.history) := by
  refine run_induction hprog
    (I := fun c => Rfc.Tracks ((hands c).locals t).busy (rfcsOf t c.history))
    (fun _ hmem => absurd hmem List.not_mem_nil) (fun _ _ _ _ ih => ih) ?_ h
  intro c u o v c' _ hw hu hallowed hdoes hhands hhistory ih
  rw [hhands, hhistory]
  unfold rfcsOf
  by_cases hut : u = t
  · subst hut
    rw [Crew.advance_self, if_pos rfl]
    exact Rfc.tracks_step hallowed v ih
  · rw [Crew.advance_ne _ (Ne.symm hut), if_neg hut]
    exact ih

theorem inFlight_eq (h : Reachable c) (t : ℕ) :
    inFlight t c.history = ((hands c).locals t).busy := by
  have htracks := rfcsOf_tracks hprog h t
  unfold inFlight
  cases hbusy : ((hands c).locals t).busy with
  | none =>
    rw [hbusy] at htracks
    split
    · rename_i conn p rest hrfcs
      rw [hrfcs] at htracks
      exact absurd rfl (htracks _ List.mem_cons_self)
    · rfl
  | some b =>
    rw [hbusy] at htracks
    obtain ⟨rest, hrfcs, _⟩ := htracks
    rw [hrfcs]

/-- A transaction that an RFC is for has been registered. -/
theorem issued_seen (h : Reachable c) {p : Purpose} (hp : p ∈ record Op.issues c.history)
    (he : p.entry = some e) : (hands c).Seen e := by
  obtain ⟨t, o, v, hmem, hpick⟩ := mem_record.mp hp
  cases o <;> try cases hpick
  case rfcBegin.head conn f kwargs =>
    obtain ⟨later, earlier, hh⟩ := List.append_of_mem hmem
    obtain ⟨b, d, hb, hperforms, _, rfl, _⟩ := h.performed hh
    have hw := hands_reachable hprog hb
    rcases Hands.begin_entry hw (hperforms.allowed hprog hb) with
      ⟨hnone, _⟩ | ⟨e', he', hopen, _⟩
    · rw [hnone] at he
      cases he
    · rw [he] at he'
      cases he'
      rw [← mem_registers hprog h, hh, record_append]
      have hseen := (mem_registers hprog hb).mpr hopen.seen
      exact List.mem_append_right _ (List.mem_append_right _ hseen)
  case rfcBegin.tail hnil => cases hnil

omit hprog in
theorem countP_issuedOn_le {R : Type} (conn : Conn) (h : History R) (p : Purpose → Bool) :
    (issuedOn conn h).countP p ≤ (record Op.issues h).countP p := by
  induction h with
  | nil => exact Nat.le_refl _
  | cons ev h ih =>
    cases ev with
    | start u r => exact ih
    | did u o v =>
      unfold issuedOn record
      rw [List.countP_append]
      split
      · exact Nat.zero_le _
      · split
        · split
          · simp only [Op.issues, List.countP_cons, List.countP_nil]
            omega
          · omega
        · omega

omit hprog in
theorem countP_issues_controls {R : Type} (h : History R) (e : Entry) :
    (record Op.issues h).countP (Purpose.controlsEntry e) =
      (record Op.controls h).countP (Purpose.controlsEntry e) := by
  induction h with
  | nil => rfl
  | cons ev h ih =>
    cases ev with
    | start u r => exact ih
    | did u o v =>
      unfold record
      rw [List.countP_append, List.countP_append, ih]
      cases o with
      | rfcBegin conn p f kwargs =>
        cases p <;> simp [Op.issues, Op.controls, Purpose.controlsEntry, List.countP_cons]
      | _ => rfl

end Runs

section Isolation

variable {cfg : AppSettings} {c : Run cfg}

/-- The request that an RFC for a transaction belongs to: a write that carries its ID or has opened
it, its commit, its rollback, a sweep, or the shutdown. -/
inductive IssuedFor (e : Entry) (earlier : History Request) (t : ℕ) :
    Request → Purpose → String → Prop
  | followUp {f parameters} :
      IssuedFor e earlier t (.callTransactional f parameters "write" (some e.1)) (.write e) f
  | opening {f parameters} (h : e ∈ recordOf Op.registers t earlier) :
      IssuedFor e earlier t (.callTransactional f parameters "write" none) (.write e) f
  | commit {wait} :
      IssuedFor e earlier t (.commit e.1 wait) (.commit e) "BAPI_TRANSACTION_COMMIT"
  | rollback : IssuedFor e earlier t (.rollback e.1) (.rollback e) "BAPI_TRANSACTION_ROLLBACK"
  | expire {request} (h : request.sweeps = true) :
      IssuedFor e earlier t request (.expire e) "BAPI_TRANSACTION_ROLLBACK"
  | shutdown : IssuedFor e earlier t .close (.shutdown e) "BAPI_TRANSACTION_ROLLBACK"

theorem issuedFor_of_mayIssue {t : ℕ} {e : Entry} {request : Request} {earlier : History Request}
    {p : Purpose} {f : String} {kwargs : PyDict} (he : p.entry = some e)
    (hmay : request.MayIssue cfg (clearance cfg request t earlier) f kwargs p) :
    IssuedFor e earlier t request p f := by
  cases p with
  | read | discovery => cases he
  | write e' =>
    cases he
    obtain ⟨parameters, id, rfl, rfl | ⟨rfl, hcreated⟩, _⟩ := hmay
    · exact .followUp
    · exact .opening (created_registered hcreated)
  | commit e' =>
    cases he
    obtain ⟨⟨wait, rfl⟩, rfl, _⟩ := hmay
    exact .commit
  | rollback e' =>
    cases he
    obtain ⟨rfl, rfl, _⟩ := hmay
    exact .rollback
  | expire e' =>
    cases he
    obtain ⟨hsweeps, rfl⟩ := hmay
    exact .expire hsweeps
  | shutdown e' =>
    cases he
    obtain ⟨rfl, rfl⟩ := hmay
    exact .shutdown

/-- LUW isolation and connection affinity, in any run. -/
structure LuwIsolation (c : Run cfg) : Prop where
  /-- A connection that is handed out has exactly one owner, and others have none. -/
  one_owner : ∀ conn, handedOut conn c.history = true → ∃! owner, (hands c).Owns conn owner
  owned : ∀ conn owner, (hands c).Owns conn owner → handedOut conn c.history = true
  /-- Since its checkout the connection of a transaction has seen its own RFCs only: its writes, and
  at most one COMMIT or ROLLBACK. -/
  own_rfcs : ∀ e, (hands c).Owns e.2.connection (.transaction e) →
    (∀ p ∈ issuedOn e.2.connection c.history, p = .write e ∨ p.controls = some e) ∧
      (issuedOn e.2.connection c.history).countP (fun p => p.controls.isSome) ≤ 1
  /-- An RFC for a transaction runs on its connection, for a request that means this transaction. -/
  own_connection : ∀ (later earlier : History Request) t conn p f kwargs e,
    c.history = later ++ .did t (.rfcBegin conn p f kwargs) () :: earlier → p.entry = some e →
    conn = e.2.connection ∧ ∃ request rest, c.threads[t]? = some (request, rest) ∧
      IssuedFor e earlier t request p f
  /-- An ID stands for one transaction, whose RFCs therefore share one connection. -/
  one_transaction : ∀ p ∈ record Op.issues c.history, ∀ q ∈ record Op.issues c.history,
    ∀ e e', p.entry = some e → q.entry = some e' → e.1 = e'.1 → e = e'
  /-- No two RFCs on one connection overlap. -/
  no_overlap : ∀ t u conn p q, inFlight t c.history = some (conn, p) →
    inFlight u c.history = some (conn, q) → t = u

theorem luw_isolation (h : Reachable c) : LuwIsolation c := by
  have hprog := @program_follows cfg
  have hw := hands_reachable hprog h
  have howned := (issuedOn_owned hprog h).1
  constructor
  · intro conn hout
    have hpos := (handedOut_iff hprog h conn).mp hout
    obtain ⟨owner, howner⟩ := (Hands.owner_iff hw).mp hpos
    exact ⟨owner, howner, fun other hother => Hands.owner_unique hw hother howner⟩
  · intro conn owner howner
    exact (handedOut_iff hprog h conn).mpr ((Hands.owner_iff hw).mpr ⟨owner, howner⟩)
  · rintro e ⟨_, he⟩
    have hopen := (Hands.open_iff hw).mpr he
    have hown := howned e hopen
    constructor
    · intro p hp
      have hentry := hown p hp
      cases p <;> cases hentry <;> first | exact .inl rfl | exact .inr rfl
    · have hsame : (issuedOn e.2.connection c.history).countP (fun p => p.controls.isSome) ≤
          (issuedOn e.2.connection c.history).countP (Purpose.controlsEntry e) := by
        rw [List.countP_eq_length_filter, List.countP_eq_length_filter]
        refine Nat.le_of_eq (congrArg List.length (List.filter_congr fun p hp => ?_))
        have hentry := hown p hp
        cases p <;> cases hentry <;> simp [Purpose.controlsEntry]
      have hle := countP_issuedOn_le e.2.connection c.history (Purpose.controlsEntry e)
      have hone := Hands.controls_le_one hw e
      rw [countP_issues_controls, controls_all hprog h] at hle
      omega
  · intro later earlier t conn p f kwargs e hh he
    obtain ⟨b, d, hb, hperforms, _, rfl, _⟩ := h.performed hh
    have hallowed := hperforms.allowed hprog hb
    obtain ⟨request, rest, hthread, hmay⟩ := issued_mayIssue h hh
    refine ⟨?_, request, rest, hthread, issuedFor_of_mayIssue he hmay⟩
    rcases Hands.begin_entry (hands_reachable hprog hb) hallowed with
      ⟨hnone, _⟩ | ⟨e', he', _, hconn⟩
    · rw [hnone] at he
      cases he
    · rw [he] at he'
      cases he'
      exact hconn.symm
  · intro p hp q hq e e' he he' hid
    exact Hands.id_unique hw (issued_seen hprog h hp he) (issued_seen hprog h hq he') hid
  · intro t u conn p q ht hu
    rw [inFlight_eq hprog h] at ht hu
    exact Hands.busy_unique hw ht hu

/-- A write that opens a transaction. -/
theorem luw_isolation_write :
    ∃ c, execute (server sampleSettings).initial (sampleWrite 0) = some c ∧ LuwIsolation c := by
  have hrun : (execute (server sampleSettings).initial (sampleWrite 0)).isSome = true := by
    decide +kernel
  obtain ⟨c, hc⟩ := Option.isSome_iff_exists.mp hrun
  exact ⟨c, hc, luw_isolation (execute_reachable hc)⟩

end Isolation

end RfcMcp
