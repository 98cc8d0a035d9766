import RfcMcp.Custody.Conservation

namespace RfcMcp

open Framework

variable {cfg : AppSettings} {Request Reply : Type} {program : Request → Program Effects Reply}

section Frames

/-- Operations that move connections and permits. -/
def Op.movesConnections : Op → Bool
  | .semAcquire => true
  | .semRelease => true
  | .scanIdle => true
  | .appendIdle _ => true
  | .swapIdle => true
  | .openConnection => true
  | .closeConnection _ => true
  | .demoConnection => true
  | .rfcBegin _ _ _ _ => true
  | .poolRelease _ _ _ => true
  | .register _ _ => true
  | _ => false

structure Custody.SameConnections (g g' : Custody) : Prop where
  holding : g'.holding = g.holding
  closing : g'.closing = g.closing

theorem after_sameConnections (limits : ResultLimitPolicy) (g : Custody) {o : Op} (v : o.Res)
    (ho : o.movesConnections = false) : g.SameConnections (g.after limits o v) := by
  cases o with
  | semAcquire | semRelease | scanIdle | appendIdle _ | swapIdle | openConnection
  | closeConnection _ | demoConnection | rfcBegin _ _ _ _ | poolRelease _ _ _ | register _ _ =>
    cases ho
  | tryAcquire _ | lookup _ | removeIfExpired _ _ _ => cases v <;> exact ⟨rfl, rfl⟩
  | removeIfCurrent id a =>
    cases v <;> cases hs : g.stage <;>
      simp only [Custody.after, Custody.afterRemove, hs] <;> exact ⟨rfl, rfl⟩
  | _ => exact ⟨rfl, rfl⟩

end Frames

section Connections

/-- The connection that a thread has from the pool. -/
def Holding.conn : Holding → Option Conn
  | .borrowed conn _ => some conn
  | .returning conn => some conn
  | _ => none

def hasConn (conn : Conn) (e : Entry) : Bool := decide (e.2.connection = conn)

/-- How often `conn` is in the hands of a thread. -/
def Custody.connCount (conn : Conn) (g : Custody) : ℕ :=
  g.holding.conn.toList.count conn + g.closing.count conn + g.removed.countP (hasConn conn)

theorem scan_count {f : Conn → Liveness} {idle rest closed : List Conn} {found : Option Conn}
    (h : scan f idle = (found, rest, closed)) (conn : Conn) :
    idle.count conn = found.toList.count conn + rest.count conn + closed.count conn := by
  induction idle generalizing found rest closed with
  | nil =>
    cases h
    rfl
  | cons candidate idle ih =>
    unfold scan at h
    split at h
    · cases h
      simp [List.count_cons]
      omega
    · cases h
      rw [List.count_cons, ih rfl, List.count_cons]
      omega

/-- What one step does to the connections: they are opened, change hands, or are closed. -/
theorem holding_step {g : Custody} {t : ℕ} {s s' : Shared} {o : Op} {v : o.Res}
    (hallowed : g.allows cfg.limits o) (hdoes : Does cfg t s o v s') (conn : Conn) :
    s'.idle.count conn + s'.closed.count conn +
      ((g.after cfg.limits o v).holding.conn.toList.count conn +
        (g.after cfg.limits o v).closing.count conn) +
      weight (hasConn conn) o.enters + (if conn < s.nextConn then 1 else 0) =
    s.idle.count conn + s.closed.count conn +
      (g.holding.conn.toList.count conn + g.closing.count conn) +
      weight (hasConn conn) o.leaves + (if conn < s'.nextConn then 1 else 0) := by
  have hsame := after_sameConnections cfg.limits g v
  cases hdoes
  case semAcquired =>
    obtain ⟨_, _, _, hholding⟩ := hallowed
    rw [hholding]
    rfl
  case semTimeout => rfl
  case semRelease =>
    obtain ⟨_, hholding | hholding⟩ := hallowed <;> rw [hholding] <;> rfl
  case scanIdle found rest closed hscan =>
    have hholding : g.holding = .permit := hallowed.2
    have hcount := scan_count hscan conn
    rw [hholding]
    cases found <;>
      simp only [Custody.after, Holding.conn, List.count_append, weight, Op.enters, Op.leaves] <;>
      simp at hcount ⊢ <;> omega
  case appendIdle conn' =>
    have hholding : g.holding = .returning conn' := hallowed.2
    rw [hholding]
    simp [Custody.after, Holding.conn, List.count_cons, weight, Op.enters, Op.leaves]
    omega
  case swapIdle =>
    obtain ⟨_, _, hclosing⟩ := hallowed
    simp only [Custody.after, hclosing, weight, Op.enters, Op.leaves]
    simp
    omega
  case opened =>
    have hholding : g.holding = .opening := hallowed.2
    rw [hholding]
    simp only [Custody.after, Holding.conn, weight, Op.enters, Op.leaves]
    by_cases hconn : conn = s.nextConn
    · subst hconn
      simp
      omega
    · have hlt : conn < s.nextConn + 1 ↔ conn < s.nextConn :=
        ⟨fun h => Nat.lt_of_le_of_ne (Nat.le_of_lt_succ h) hconn, Nat.lt_succ_of_lt⟩
      simp [Ne.symm hconn, hlt]
  case openFailed => rfl
  case closeConnection conn' =>
    obtain ⟨_, hholding⟩ := hallowed
    simp only [Custody.after, weight, Op.enters, Op.leaves]
    split
    · rename_i hholding
      rw [hholding]
      simp [Holding.conn, List.count_cons]
      omega
    · rename_i hnot
      have hmem : conn' ∈ g.closing := hholding.resolve_left hnot
      rw [(List.perm_cons_erase hmem).count_eq conn]
      simp [List.count_cons]
      omega
  case demoConnection => exact hallowed.2.elim
  case rfcBegin conn' p f kwargs =>
    obtain ⟨_, _, hmay⟩ := hallowed
    cases p
    case read => obtain ⟨used, hholding⟩ := hmay; rw [hholding]; rfl
    case discovery => obtain ⟨used, hholding⟩ := hmay; rw [hholding]; rfl
    all_goals rfl
  case poolRelease conn' reusable luw =>
    obtain ⟨_, _, hmay⟩ := hallowed
    cases luw with
    | none => obtain ⟨used, hholding⟩ := hmay; rw [hholding]; rfl
    | some e =>
      obtain ⟨hholding, rfl, _⟩ := hmay
      rw [hholding]
      by_cases hconn : e.2.connection = conn
      · simp [Custody.after, Custody.afterRelease, Holding.conn, weight, Op.enters, Op.leaves,
          hasConn, hconn]
        omega
      · simp [Custody.after, Custody.afterRelease, Holding.conn, weight, Op.enters, Op.leaves,
          hasConn, hconn]
  case register id a =>
    obtain ⟨_, _, _, hholding⟩ := hallowed
    rw [hholding]
    by_cases hconn : a.connection = conn
    · simp [Custody.after, Holding.conn, weight, Op.enters, Op.leaves, hasConn, hconn]
      omega
    · simp [Custody.after, Holding.conn, weight, Op.enters, Op.leaves, hasConn, hconn]
  all_goals
    rw [(hsame rfl).holding, (hsame rfl).closing]
    rfl

/-- Every opened connection is in one place: idle, with a transaction of the table, in the hands of
one thread, or closed. -/
theorem Hands.connections_conserved {w : Hands cfg program} (h : w.Reachable) (conn : Conn) :
    (w.shared.idle.count conn + w.shared.closed.count conn +
        w.shared.table.countP (hasConn conn)) + w.total (Custody.connCount conn) =
      if conn < w.shared.nextConn then 1 else 0 := by
  refine conserved
    (fun conn s => s.idle.count conn + s.closed.count conn + s.table.countP (hasConn conn))
    Custody.connCount (fun conn s => if conn < s.nextConn then 1 else 0) h (fun _ => rfl)
    (fun _ => rfl) ?_ conn
  intro w t o v s hw ht hallowed hdoes _ conn
  have hentries := entries_step (Hands.ids_nodup hw) (Hands.enters_fresh hw ht hallowed) hallowed
    hdoes (hasConn conn)
  have hholding := holding_step hallowed hdoes conn
  simp only [Custody.connCount]
  omega

end Connections

section Permits

/-- The permit that a thread holds for itself. -/
def Holding.permits : Holding → ℕ
  | .nothing => 0
  | _ => 1

/-- A connection, or one about to be opened. -/
def Holding.slots : Holding → ℕ
  | .nothing => 0
  | .permit => 0
  | _ => 1

/-- Permits in the hands of a thread: its own, and one for each transaction it has taken out. -/
def Custody.permits (g : Custody) : ℕ := g.holding.permits + g.removed.countP fun _ => true

def Custody.slots (g : Custody) : ℕ := g.holding.slots + g.removed.countP fun _ => true

/-- A permit without any connection yet. -/
def Custody.bare (g : Custody) : ℕ := g.holding.permits - g.holding.slots

theorem Custody.slots_add_bare (g : Custody) : g.slots + g.bare = g.permits := by
  unfold Custody.slots Custody.bare Custody.permits
  cases g.holding <;> simp [Holding.slots, Holding.permits]
  all_goals omega

theorem permits_step {g : Custody} {t : ℕ} {s s' : Shared} {o : Op} {v : o.Res}
    (hallowed : g.allows cfg.limits o) (hdoes : Does cfg t s o v s') :
    s'.permits + (g.after cfg.limits o v).holding.permits + weight (fun _ => true) o.enters =
      s.permits + g.holding.permits + weight (fun _ => true) o.leaves := by
  have hsame := after_sameConnections cfg.limits g v
  cases hdoes
  case semAcquired hpermits =>
    obtain ⟨_, _, _, hholding⟩ := hallowed
    rw [hholding]
    simp only [Custody.after, Holding.permits, weight, Op.enters, Op.leaves]
    omega
  case semTimeout => rfl
  case semRelease => obtain ⟨_, hholding | hholding⟩ := hallowed <;> rw [hholding] <;> rfl
  case scanIdle found rest closed hscan =>
    have hholding : g.holding = .permit := hallowed.2
    rw [hholding]
    cases found <;> rfl
  case appendIdle conn => rw [show g.holding = .returning conn from hallowed.2]; rfl
  case swapIdle => rfl
  case opened => rw [show g.holding = .opening from hallowed.2]; rfl
  case openFailed => rfl
  case closeConnection conn =>
    simp only [Custody.after]
    split
    · rename_i hholding
      rw [hholding]
      rfl
    · rfl
  case demoConnection => exact hallowed.2.elim
  case rfcBegin conn p f kwargs =>
    obtain ⟨_, _, hmay⟩ := hallowed
    cases p
    case read => obtain ⟨used, hholding⟩ := hmay; rw [hholding]; rfl
    case discovery => obtain ⟨used, hholding⟩ := hmay; rw [hholding]; rfl
    all_goals rfl
  case poolRelease conn reusable luw =>
    obtain ⟨_, _, hmay⟩ := hallowed
    cases luw with
    | none => obtain ⟨used, hholding⟩ := hmay; rw [hholding]; rfl
    | some e => rw [hmay.1]; rfl
  case register id a => rw [hallowed.2.2.2]; rfl
  all_goals
    rw [(hsame rfl).holding]
    rfl

/-- The semaphore's law: a permit is free, with a transaction, or in the hands of a thread. -/
theorem Hands.permits_conserved {w : Hands cfg program} (h : w.Reachable) :
    (w.shared.permits + w.shared.table.length) + w.total Custody.permits = cfg.poolSize := by
  refine conserved (fun (_ : Unit) s => s.permits + s.table.length) (fun _ => Custody.permits)
    (fun _ _ => cfg.poolSize) h (fun _ => rfl) (fun _ => rfl) ?_ ()
  intro w t o v s hw ht hallowed hdoes _ _
  have hentries := entries_step (Hands.ids_nodup hw) (Hands.enters_fresh hw ht hallowed) hallowed
    hdoes fun _ => true
  have hpermits := permits_step hallowed hdoes
  simp only [Custody.permits, List.countP_true] at hentries ⊢
  omega

theorem scan_length {f : Conn → Liveness} {idle rest closed : List Conn} {found : Option Conn}
    (h : scan f idle = (found, rest, closed)) :
    found.toList.length + rest.length ≤ idle.length ∧ (found = none → rest = []) := by
  induction idle generalizing found rest closed with
  | nil =>
    cases h
    simp
  | cons candidate idle ih =>
    unfold scan at h
    split at h
    · cases h
      simp
      omega
    · cases h
      obtain ⟨hle, hnone⟩ := ih rfl
      refine ⟨?_, hnone⟩
      rw [List.length_cons]
      omega

/-- Only an idle scan that finds nothing adds to the connections in use, and it leaves none idle. -/
theorem slots_step {g : Custody} {t : ℕ} {s s' : Shared} {o : Op} {v : o.Res}
    (hallowed : g.allows cfg.limits o) (hdoes : Does cfg t s o v s') :
    (o.enters = none ∧ o.leaves = none ∧ s'.idle = [] ∧ g.holding = .permit ∧
      (g.after cfg.limits o v).holding = .opening) ∨
    s'.idle.length + (g.after cfg.limits o v).holding.slots + weight (fun _ => true) o.enters ≤
      s.idle.length + g.holding.slots + weight (fun _ => true) o.leaves := by
  have hsame := after_sameConnections cfg.limits g v
  cases hdoes
  case scanIdle found rest closed hscan =>
    have hholding : g.holding = .permit := hallowed.2
    obtain ⟨hle, hrest⟩ := scan_length hscan
    cases found with
    | none => exact .inl ⟨rfl, rfl, hrest rfl, hholding, rfl⟩
    | some conn =>
      right
      rw [hholding]
      simp only [Custody.after, Holding.slots, weight, Op.enters, Op.leaves]
      simp at hle
      omega
  all_goals right
  case semAcquired =>
    obtain ⟨_, _, _, hholding⟩ := hallowed
    rw [hholding]
    exact Nat.le_refl _
  case semTimeout => exact Nat.le_refl _
  case semRelease =>
    simp only [Custody.after, Holding.slots, weight, Op.enters, Op.leaves]
    omega
  case appendIdle conn =>
    rw [show g.holding = .returning conn from hallowed.2]
    simp only [Custody.after, Holding.slots, List.length_cons, weight, Op.enters, Op.leaves]
    omega
  case swapIdle =>
    simp only [Custody.after, List.length_nil, weight, Op.enters, Op.leaves]
    omega
  case opened => rw [show g.holding = .opening from hallowed.2]; exact Nat.le_refl _
  case openFailed => exact Nat.le_refl _
  case closeConnection conn =>
    simp only [Custody.after, weight, Op.enters, Op.leaves]
    split
    · simp only [Holding.slots]
      omega
    · exact Nat.le_refl _
  case demoConnection => exact hallowed.2.elim
  case rfcBegin conn p f kwargs =>
    obtain ⟨_, _, hmay⟩ := hallowed
    cases p
    case read => obtain ⟨used, hholding⟩ := hmay; rw [hholding]; exact Nat.le_refl _
    case discovery => obtain ⟨used, hholding⟩ := hmay; rw [hholding]; exact Nat.le_refl _
    all_goals exact Nat.le_refl _
  case poolRelease conn reusable luw =>
    obtain ⟨_, _, hmay⟩ := hallowed
    cases luw with
    | none => obtain ⟨used, hholding⟩ := hmay; rw [hholding]; exact Nat.le_refl _
    | some e => rw [hmay.1]; exact Nat.le_refl _
  case register id a => rw [hallowed.2.2.2]; exact Nat.le_refl _
  all_goals
    rw [(hsame rfl).holding]
    exact Nat.le_refl _

/-- Idle connections, connections in use and those being opened fit into the pool. The argument at
an empty idle list is the semaphore's law: everything in use has a permit of its own, and the
scanning thread has one besides. -/
theorem Hands.slots_bounded {w : Hands cfg program} (h : w.Reachable) :
    (w.shared.idle.length + w.shared.table.length) + w.total Custody.slots ≤ cfg.poolSize := by
  refine induction (J := fun w => (w.shared.idle.length + w.shared.table.length) +
    w.total Custody.slots ≤ cfg.poolSize) h ?_ ?_ ?_
  · exact Nat.zero_le _
  · intro w hstart ih
    rw [Crew.total_start, hstart]
    exact ih
  · intro w t o v s hw ht hallowed hdoes ih
    have hentries := entries_step (Hands.ids_nodup hw) (Hands.enters_fresh hw ht hallowed) hallowed
      hdoes fun _ => true
    have htotal := Crew.total_advance Custody.slots w ht o v s
    show (s.idle.length + s.table.length) + (w.advance t o v s).total Custody.slots ≤ _
    change _ = _ + Custody.slots ((w.locals t).after cfg.limits o v) at htotal
    rcases slots_step hallowed hdoes with ⟨henters, hleaves, hidle, hholding, hopening⟩ | hle
    · have hpermits := Hands.permits_conserved hw
      have hsum := Crew.total_add Custody.slots Custody.bare w
      simp only [Custody.slots_add_bare] at hsum
      have hbare := Crew.le_total Custody.bare ht
      simp only [Custody.bare, hholding, Holding.permits, Holding.slots] at hbare
      simp only [henters, hleaves, weight, List.countP_true] at hentries
      simp only [Custody.slots, hholding, hopening, Holding.slots, List.countP_true] at htotal
      rw [hidle, List.length_nil]
      change w.total Custody.permits = _ at hsum
      omega
    · simp only [Custody.slots, List.countP_true] at hentries htotal
      omega

end Permits

end RfcMcp
