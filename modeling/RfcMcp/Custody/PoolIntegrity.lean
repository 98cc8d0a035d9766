import RfcMcp.Custody.Ownership
import RfcMcp.Custody.Pool
import RfcMcp.Footprint.Programs
import RfcMcp.Mcp.Server
import Mathlib.Algebra.BigOperators.Group.Finset.Piecewise

namespace RfcMcp

open Framework Framework.System

namespace ConnectionPool

/-- What is done with a pool: a borrower checks a connection out and later releases it, once;
`acquire` does both around an RFC; `close_all` may come at any time. -/
inductive Usage
  | borrow (reusable : Bool)
  | acquire (function : String) (params : PyDict)
  | closeAll

def Usage.act (cfg : AppSettings) : Usage → Act Unit
  | .borrow reusable => do
    let conn ← checkout cfg
    release conn reusable none
  | .acquire function params => do
    let _ ← PooledCaller.call cfg (connectionPool cfg) function params
    pure ()
  | .closeAll => (connectionPool cfg).closeAll

def Usage.program (cfg : AppSettings) (usage : Usage) : Program Effects (Except PyExc Unit) :=
  usage.act cfg

/-- A state of a run of any number of users of one pool. -/
abbrev Run (cfg : AppSettings) : Type := (runtime cfg (Usage.program cfg)).Config

end ConnectionPool

section Users

open ConnectionPool

variable {cfg : AppSettings} {c : ConnectionPool.Run cfg} {t : ℕ}

def users (c : ConnectionPool.Run cfg) : Hands cfg (Usage.program cfg) :=
  Crew.of (custody cfg.limits) c

/-- What user `t` has from the pool, by what it has done so far. -/
def holding (c : ConnectionPool.Run cfg) (t : ℕ) : Holding := ((users c).locals t).holding

theorem calm_borrow {limits : ResultLimitPolicy} (reusable : Bool) :
    Calm limits (checkout cfg >>= fun conn => release conn reusable none) := by
  intro g hg
  have hsame : { g with holding := .nothing } = g := by rw [← hg.holding]
  have hover : g.stage.isOver = false := by
    rw [hg.stage]
    rfl
  have hleaf : ∀ l' ∈ g.locks, l'.isActive = true := by simp [hg.locks]
  rw [Protocol.meets_bind]
  refine meets_checkout cfg hg.stage hg.locks hg.holding (fun conn => ?_) fun _ => hg
  refine meets_release hg.busy hover hleaf ⟨false, rfl⟩ ?_
  simp only [Custody.afterRelease, hsame]
  exact hg

theorem usage_follows (usage : Usage) : (custody cfg.limits).Follows
    (fun _ => Custody.Ready) (usage.program cfg) {} := by
  have hcalm : Calm cfg.limits (usage.act cfg) := by
    cases usage with
    | borrow reusable => exact calm_borrow reusable
    | acquire function params => exact calm_bind (calm_pooledCall cfg _ _) fun _ => calm_pure _
    | closeAll => exact calm_closeAll cfg
  refine Protocol.Follows.mono (hcalm {} Custody.ready_start) fun r g hg => ?_
  cases r <;> exact hg

theorem users_reachable (h : Reachable c) : (users c).Reachable :=
  Crew.of_reachable usage_follows h

theorem usage_within (usage : Usage) :
    Within [.lock, .borrow, .giveBack, .rfc, .closeAll] (usage.act cfg) := by
  cases usage with
  | borrow reusable =>
    exact within_bind ((within_checkout cfg).mono rfl) fun conn =>
      (within_release conn reusable none).mono rfl
  | acquire function params =>
    exact within_bind ((within_pooledCall cfg _ _).mono rfl) fun _ => within_pure _
  | closeAll => exact within_closeAll.mono rfl

/-- The users of the pool alone start no transactions. -/
theorem no_tokens (h : Reachable c) : c.shared.tokens = [] := by
  refine Reachable.induction (I := fun c : ConnectionPool.Run cfg => c.shared.tokens = []) rfl
    (fun c r _ ih => ih) (fun c t o v c' hc ih hp => ?_) h
  have hnot : o ≠ .tokenUrlsafe := by
    have hp' := hp
    obtain ⟨hthread, _⟩ := hp'
    obtain ⟨p', hget⟩ := Leads.request (.single (.run hp)) hthread
    have honly : ∀ usage : Usage, Program.Only (S := Effects) (fun o => o ≠ Op.tokenUrlsafe)
        (usage.program cfg) := fun usage => (usage_within usage).only fun o ho htoken => by
      rw [htoken] at ho
      simp [Op.area] at ho
    exact (hc.step (.run hp)).only hget (honly _) (v := v) List.mem_cons_self
  obtain ⟨_, hperform⟩ := hp
  have hdoes := Shared.perform_does hperform
  cases hdoes <;> first | exact ih | exact absurd rfl hnot

theorem countP_hasId_eq_zero {entries : List Entry} (h : ∀ id, entries.countP (hasId id) = 0) :
    entries = [] := by
  refine List.eq_nil_iff_forall_not_mem.mpr fun e he => ?_
  have hzero := List.countP_eq_zero.mp (h e.1) e he
  simp [hasId] at hzero

theorem no_entries (h : Reachable c) :
    c.shared.table = [] ∧ ∀ t, ((users c).locals t).removed = [] := by
  have hw := users_reachable h
  have hids (id : TxId) : (users c).shared.table.countP (hasId id) +
      (users c).total (Custody.idCount id) = 0 := by
    have hlaw := Hands.ids_conserved hw id
    have htokens : (users c).shared.tokens = [] := no_tokens h
    rw [htokens, if_neg List.not_mem_nil] at hlaw
    exact hlaw
  constructor
  · exact countP_hasId_eq_zero fun id => Nat.eq_zero_of_add_eq_zero_right (hids id)
  · intro t
    refine countP_hasId_eq_zero fun id => ?_
    by_cases ht : t < (users c).size
    · have hle := Crew.le_total (Custody.idCount id) ht
      have hid := hids id
      unfold Custody.idCount at hle hid
      omega
    · rw [hw.unborn (Nat.le_of_not_lt ht)]
      rfl

/-- The users that hold a permit. -/
def holders (c : ConnectionPool.Run cfg) : Finset ℕ :=
  (Finset.range c.threads.length).filter fun t => holding c t ≠ .nothing

/-- The users that have a connection, or are opening one. -/
def occupants (c : ConnectionPool.Run cfg) : Finset ℕ :=
  (Finset.range c.threads.length).filter fun t => (holding c t).slots ≠ 0

/-- The state of the pool, in any run of its users. -/
structure PoolIntegrity (c : ConnectionPool.Run cfg) : Prop where
  permits : c.shared.permits + (holders c).card = cfg.poolSize
  /-- A user that is done, or whose checkout has failed, holds nothing. -/
  settled : ∀ t usage reply, c.threads[t]? = some (usage, .ret reply) → holding c t = .nothing
  idle_once : c.shared.idle.Nodup
  idle_or_out : ∀ t conn, (holding c t).conn = some conn → conn ∉ c.shared.idle
  one_borrower : ∀ t u conn, (holding c t).conn = some conn → (holding c u).conn = some conn → t = u
  closed_for_good : ∀ conn ∈ c.shared.closed,
    conn ∉ c.shared.idle ∧ ∀ t, (holding c t).conn ≠ some conn
  bounded : c.shared.idle.length + (occupants c).card ≤ cfg.poolSize

theorem card_holders (h : Reachable c) : (holders c).card = (users c).total Custody.permits := by
  unfold holders Crew.total
  rw [Finset.card_filter]
  refine Finset.sum_congr rfl fun t _ => ?_
  unfold Custody.permits holding
  rw [(no_entries h).2 t]
  cases ((users c).locals t).holding <;> rfl

theorem card_occupants (h : Reachable c) : (occupants c).card = (users c).total Custody.slots := by
  unfold occupants Crew.total
  rw [Finset.card_filter]
  refine Finset.sum_congr rfl fun t _ => ?_
  unfold Custody.slots holding
  rw [(no_entries h).2 t]
  cases ((users c).locals t).holding <;> rfl

theorem pool_integrity (h : Reachable c) : PoolIntegrity c := by
  have hw := users_reachable h
  have hplaces := Hands.places_le_one hw
  constructor
  · have hpermits := Hands.permits_conserved hw
    have htable : (users c).shared.table = [] := (no_entries h).1
    rw [htable] at hpermits
    rw [card_holders h]
    exact hpermits
  · intro t usage reply hthread
    have hready := h.disciplined (P := fun _ => custody cfg.limits) usage_follows t usage _ hthread
    exact hready.holding
  · refine List.nodup_iff_count_le_one.mpr fun conn => ?_
    have hone := hplaces conn
    change c.shared.idle.count conn + _ + _ + _ ≤ 1 at hone
    omega
  · intro t conn ht hidle
    have hpos : 0 < c.shared.idle.count conn := List.count_pos_iff.mpr hidle
    have hheld := Custody.heldCount_pos ht
    have hle := Crew.le_total (Custody.heldCount conn) (Hands.lt_of_held hw ht)
    have hone := hplaces conn
    change c.shared.idle.count conn + _ + _ + _ ≤ 1 at hone
    omega
  · intro t u conn ht hu
    exact Hands.held_unique hw ht hu
  · intro conn hclosed
    have hpos : 0 < c.shared.closed.count conn := List.count_pos_iff.mpr hclosed
    have hone := hplaces conn
    change c.shared.idle.count conn + c.shared.closed.count conn + _ + _ ≤ 1 at hone
    constructor
    · intro hidle
      have hpos' : 0 < c.shared.idle.count conn := List.count_pos_iff.mpr hidle
      omega
    · intro t ht
      have hheld := Custody.heldCount_pos ht
      have hle := Crew.le_total (Custody.heldCount conn) (Hands.lt_of_held hw ht)
      omega
  · have hslots := Hands.slots_bounded hw
    have htable : (users c).shared.table = [] := (no_entries h).1
    rw [htable] at hslots
    rw [card_occupants h]
    exact hslots

/-- Two borrowers share the only connection, one after the other, while the pool is being closed. -/
def sampleUsage : List (Move (runtime sampleSettings (Usage.program sampleSettings))) :=
  [.start (.borrow true), .start (.borrow false), .start .closeAll, .run 0 .go, .run 0 .go,
    .run 0 (.liveness fun _ => .alive), .run 0 .go, .run 0 (.opened (.ok ())), .run 0 .go,
    .run 0 .go, .run 0 .go, .run 0 .go, .run 2 .go, .run 2 .go, .run 0 .go, .run 1 .go]

theorem pool_integrity_two : ∃ c,
    execute (runtime sampleSettings (Usage.program sampleSettings)).initial sampleUsage = some c ∧
      PoolIntegrity c := by
  have hrun : (execute (runtime sampleSettings (Usage.program sampleSettings)).initial
      sampleUsage).isSome = true := by decide +kernel
  obtain ⟨c, hc⟩ := Option.isSome_iff_exists.mp hrun
  exact ⟨c, hc, pool_integrity (execute_reachable hc)⟩

end Users

end RfcMcp
