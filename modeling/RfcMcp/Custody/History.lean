import RfcMcp.Custody.Connections
import RfcMcp.Custody.Sealing
import RfcMcp.Framework.Record

namespace RfcMcp

open Framework Framework.System

/-- The events of a run, the newest first. -/
abbrev History (Request : Type) := List (Event Effects Request)

section Picks

/-- The transactions that an operation takes out of the table. -/
def Op.removes : (o : Op) → o.Res → List Entry
  | .removeIfCurrent id a, true => [(id, a)]
  | .removeIfExpired id a _, true => [(id, a)]
  | .drain, pending => pending
  | _, _ => []

/-- The transactions whose connection is passed to `release`. -/
def Op.releases (o : Op) (_ : o.Res) : List Entry := o.leaves.toList

def Op.registers (o : Op) (_ : o.Res) : List Entry := o.enters.toList

/-- What the RFC is for that is issued. -/
def Op.issues : (o : Op) → o.Res → List Purpose
  | .rfcBegin _ p _ _, _ => [p]
  | _, _ => []

/-- The COMMIT or ROLLBACK that is issued. -/
def Op.controls : (o : Op) → o.Res → List Purpose
  | .rfcBegin _ p _ _, _ => if p.controls.isSome then [p] else []
  | _, _ => []

end Picks

section Counters

variable {limits : ResultLimitPolicy} {g : Custody}

theorem removed_step {o : Op} (hallowed : g.allows limits o) (v : o.Res) (p : Entry → Bool) :
    (g.after limits o v).removed.countP p + (g.after limits o v).released.countP p =
      g.removed.countP p + g.released.countP p + (o.removes v).countP p := by
  cases ho : o.movesEntries with
  | false =>
    have hsame := after_sameEntries limits g v ho
    rw [hsame.removed, hsame.released]
    cases o <;> first | rfl | cases ho
  | true =>
    cases o with
    | removeIfCurrent id a =>
      have hsame := after_removeIfCurrent_sameEntries limits g id a v
      rw [hsame.removed, hsame.released]
      cases v
      · rfl
      · simp only [if_true, Custody.remove, Op.removes, List.countP_cons, List.countP_nil]
        omega
    | removeIfExpired id a cutoff =>
      cases v
      · rfl
      · simp only [Custody.after, Custody.remove, Op.removes, List.countP_cons, List.countP_nil]
        omega
    | drain =>
      rw [hallowed.2.2]
      simp only [Custody.after, Op.removes, List.countP_nil]
      omega
    | poolRelease conn reusable luw =>
      cases luw with
      | none => rfl
      | some e =>
        obtain ⟨_, _, _, _, hremoved, _⟩ := hallowed
        have hcount := (List.perm_cons_erase hremoved).countP_eq p
        simp only [Custody.after, Custody.afterRelease, Op.removes, List.countP_cons,
          List.countP_nil] at hcount ⊢
        omega
    | newTransaction _ _ | tokenUrlsafe | register _ _ => rfl
    | _ => cases ho

theorem controlled_step (g : Custody) (o : Op) (v : o.Res) (p : Purpose → Bool) :
    (g.after limits o v).controlled.countP p = g.controlled.countP p + (o.controls v).countP p := by
  cases o with
  | rfcBegin conn q f kwargs =>
    cases q <;>
      simp [Custody.after, Custody.afterBegin, Op.controls, List.countP_cons]
  | poolRelease conn reusable luw => cases luw <;> rfl
  | removeIfCurrent id a =>
    cases v <;> cases hs : g.stage <;> simp only [Custody.after, Custody.afterRemove, hs] <;> rfl
  | closeConnection conn =>
    simp only [Custody.after]
    split <;> rfl
  | tryAcquire _ | semAcquire | scanIdle | openConnection | lookup _ | removeIfExpired _ _ _ =>
    cases v <;> rfl
  | _ => rfl

end Counters

section Runs

variable {cfg : AppSettings} {Request Reply : Type} {program : Request → Program Effects Reply}
  {post : Request → Reply → Custody → Prop} {c : (runtime cfg program).Config} {t : ℕ} {e : Entry}

/-- What the threads of a configuration have in their hands. -/
def hands (c : (runtime cfg program).Config) : Hands cfg program := Crew.of (custody cfg.limits) c

theorem counts_removed (p : Entry → Bool) :
    Crew.Counts (runtime cfg program) (custody cfg.limits)
      (fun g => g.removed.countP p + g.released.countP p) Op.removes p :=
  fun _ _ _ _ v _ _ _ hallowed _ => removed_step hallowed v p

theorem counts_released (p : Entry → Bool) :
    Crew.Counts (runtime cfg program) (custody cfg.limits)
      (fun g => g.released.countP p) Op.releases p :=
  fun w t o _ v _ _ _ _ _ => released_step cfg.limits (w.locals t) p o v

theorem counts_controlled (p : Purpose → Bool) :
    Crew.Counts (runtime cfg program) (custody cfg.limits)
      (fun g => g.controlled.countP p) Op.controls p :=
  fun w t o _ v _ _ _ _ _ => controlled_step (w.locals t) o v p

variable (hprog : ∀ r, (custody cfg.limits).Follows (post r) (program r) {})
include hprog

theorem hands_reachable (h : Reachable c) : (hands c).Reachable := Crew.of_reachable hprog h

theorem removes_of (h : Reachable c) (t : ℕ) (p : Entry → Bool) :
    (recordOf Op.removes t c.history).countP p =
      ((hands c).locals t).removed.countP p + ((hands c).locals t).released.countP p :=
  (counts_removed p).recordOf_eq hprog rfl h t

theorem removes_all (h : Reachable c) (p : Entry → Bool) :
    (record Op.removes c.history).countP p =
      (hands c).total (fun g : Custody => g.removed.countP p) +
        (hands c).total (fun g : Custody => g.released.countP p) := by
  rw [(counts_removed p).record_eq hprog rfl h]
  exact Crew.total_add (P := custody cfg.limits) _ _ _

theorem releases_of (h : Reachable c) (t : ℕ) (p : Entry → Bool) :
    (recordOf Op.releases t c.history).countP p = ((hands c).locals t).released.countP p :=
  (counts_released p).recordOf_eq hprog rfl h t

theorem releases_all (h : Reachable c) (p : Entry → Bool) :
    (record Op.releases c.history).countP p =
      (hands c).total (fun g : Custody => g.released.countP p) :=
  (counts_released p).record_eq hprog rfl h

theorem controls_of (h : Reachable c) (t : ℕ) (p : Purpose → Bool) :
    (recordOf Op.controls t c.history).countP p = ((hands c).locals t).controlled.countP p :=
  (counts_controlled p).recordOf_eq hprog rfl h t

theorem controls_all (h : Reachable c) (p : Purpose → Bool) :
    (record Op.controls c.history).countP p =
      (hands c).total (fun g : Custody => g.controlled.countP p) :=
  (counts_controlled p).record_eq hprog rfl h

/-- Induction over the rest of a run, with the hands beside the configuration. -/
theorem leads_induction {d : (runtime cfg program).Config} {I : (runtime cfg program).Config → Prop}
    (hd : Reachable d) (hinit : I d)
    (hspawn : ∀ (c : (runtime cfg program).Config) (r : Request), Reachable c →
      (hands c).locals (hands c).size = {} → I c → I (c.spawn r))
    (hrun : ∀ (c : (runtime cfg program).Config) (t : ℕ) (o : Op) (v : o.Res)
      (c' : (runtime cfg program).Config), Reachable c → (hands c).Reachable → t < (hands c).size →
      ((hands c).locals t).allows cfg.limits o → Does cfg t c.shared o v c'.shared →
      hands c' = (hands c).advance t o v c'.shared → c'.history = .did t o v :: c.history →
      I c → I c')
    (h : Leads d c) : I c := by
  induction h with
  | refl => exact hinit
  | @tail b c hlead hs ih =>
    have hb := hd.leads hlead
    cases hs with
    | start r => exact hspawn b r hb ((hands_reachable hprog hb).unborn (Nat.le_refl _)) ih
    | run hp =>
      have hof := Crew.of_performs (P := custody cfg.limits) hp
      have hallowed := hp.allowed hprog hb
      have hlt := hp.lt
      cases hp with
      | mk hthread hperform =>
        exact hrun b _ _ _ _ hb (hands_reachable hprog hb) hlt hallowed
          (Shared.perform_does hperform) hof rfl ih

/-- Induction over runs, with the hands beside the configuration. -/
theorem run_induction {I : (runtime cfg program).Config → Prop}
    (hinit : I (runtime cfg program).initial)
    (hspawn : ∀ (c : (runtime cfg program).Config) (r : Request), Reachable c →
      (hands c).locals (hands c).size = {} → I c → I (c.spawn r))
    (hrun : ∀ (c : (runtime cfg program).Config) (t : ℕ) (o : Op) (v : o.Res)
      (c' : (runtime cfg program).Config), Reachable c → (hands c).Reachable → t < (hands c).size →
      ((hands c).locals t).allows cfg.limits o → Does cfg t c.shared o v c'.shared →
      hands c' = (hands c).advance t o v c'.shared → c'.history = .did t o v :: c.history →
      I c → I c')
    (h : Reachable c) : I c :=
  leads_induction hprog .refl hinit hspawn hrun h

theorem registers_all (h : Reachable c) (p : Entry → Bool) :
    (record Op.registers c.history).countP p = (hands c).seenCount p := by
  refine run_induction hprog
    (I := fun c => (record Op.registers c.history).countP p = (hands c).seenCount p)
    rfl ?_ ?_ h
  · intro c r hc hstart ih
    have hspawn : hands (c.spawn r) = { hands c with size := (hands c).size + 1 } :=
      Crew.of_spawn c r
    rw [hspawn, Hands.seenCount_start hstart]
    exact ih
  · intro c t o v c' hc hw ht hallowed hdoes hhands hhistory ih
    rw [hhands, hhistory, Hands.seenCount_advance hw ht hallowed hdoes]
    simp only [record, List.countP_append, ih, Op.registers, weight]
    omega

/-- What has been registered has been seen in the table. -/
theorem mem_registers (h : Reachable c) :
    e ∈ record Op.registers c.history ↔ (hands c).Seen e := by
  unfold Hands.Seen
  rw [← registers_all hprog h, countP_isEntry_pos]

/-- What a thread took out of the table is still in its hands, or it has released it. -/
theorem mem_removes (h : Reachable c) :
    e ∈ recordOf Op.removes t c.history ↔
      e ∈ ((hands c).locals t).removed ∨ e ∈ ((hands c).locals t).released := by
  have hcount := removes_of hprog h t (isEntry e)
  rw [← countP_isEntry_pos, hcount, ← countP_isEntry_pos, ← countP_isEntry_pos]
  omega

theorem mem_controls (h : Reachable c) {p : Purpose} :
    p ∈ recordOf Op.controls t c.history ↔ p ∈ ((hands c).locals t).controlled := by
  have hcount := controls_of hprog h t fun q => decide (q = p)
  constructor
  · intro hp
    have hpos : 0 < (recordOf Op.controls t c.history).countP fun q => decide (q = p) :=
      List.countP_pos_iff.mpr ⟨p, hp, by simp⟩
    rw [hcount, List.countP_pos_iff] at hpos
    obtain ⟨q, hq, heq⟩ := hpos
    obtain rfl : q = p := by simpa using heq
    exact hq
  · intro hp
    have hpos : 0 < ((hands c).locals t).controlled.countP fun q => decide (q = p) :=
      List.countP_pos_iff.mpr ⟨p, hp, by simp⟩
    rw [← hcount, List.countP_pos_iff] at hpos
    obtain ⟨q, hq, heq⟩ := hpos
    obtain rfl : q = p := by simpa using heq
    exact hq

/-- A transaction that was taken out of the table has been seen, and is not in it any more. -/
theorem seen_of_mem_removes (h : Reachable c) (he : e ∈ record Op.removes c.history) :
    (hands c).Seen e ∧ e ∉ c.shared.table := by
  obtain ⟨t, ht⟩ := exists_recordOf he
  have hmem := (mem_removes hprog h).mp ht
  have hw := hands_reachable hprog h
  refine ⟨?_, Hands.notMem_table hw hmem⟩
  rcases hmem with hmem | hmem
  · exact ((Hands.open_iff hw).mpr (.inr ⟨t, hmem⟩)).seen
  · exact Hands.seen_of_released hw hmem

end Runs

end RfcMcp
