import RfcMcp.Custody.Protocol
import RfcMcp.Framework.Crew
import RfcMcp.Python.Dict

namespace RfcMcp

open Framework

variable {cfg : AppSettings} {Request Reply : Type} {program : Request → Program Effects Reply}

/-- The threads of a run, each with what is in its hands. -/
abbrev Hands (cfg : AppSettings) {Request Reply : Type}
    (program : Request → Program Effects Reply) : Type :=
  Crew (runtime cfg program) (custody cfg.limits)

namespace Hands

/-- The induction principle for invariants of hands and shared state. -/
theorem induction {J : Hands cfg program → Prop} {w : Hands cfg program} (h : w.Reachable)
    (hinit : J ⟨Shared.initial cfg, 0, fun _ => {}⟩)
    (hstart : ∀ w : Hands cfg program, w.locals w.size = {} → J w →
      J { w with size := w.size + 1 })
    (hrun : ∀ (w : Hands cfg program) (t : ℕ) (o : Op) (v : o.Res) (s : Shared), w.Reachable →
      t < w.size → (w.locals t).allows cfg.limits o → Does cfg t w.shared o v s → J w →
      J (w.advance t o v s)) : J w := by
  induction h with
  | init => exact hinit
  | start h ih => exact hstart _ (h.unborn (Nat.le_refl _)) ih
  | run h ht hallowed hperform ih =>
    exact hrun _ _ _ _ _ h ht hallowed (Shared.perform_does hperform) ih

/-- A family of quantities that every step moves between the shared state and the hands of the
thread. -/
theorem conserved {ι : Type} (inShared : ι → Shared → ℕ) (f : ι → Custody → ℕ)
    (out : ι → Shared → ℕ) {w : Hands cfg program} (h : w.Reachable)
    (hinit : ∀ i, inShared i (Shared.initial cfg) = out i (Shared.initial cfg))
    (hzero : ∀ i, f i {} = 0)
    (hstep : ∀ (w : Hands cfg program) (t : ℕ) (o : Op) (v : o.Res) (s : Shared), w.Reachable →
      t < w.size → (w.locals t).allows cfg.limits o → Does cfg t w.shared o v s →
      (∀ i, inShared i w.shared + w.total (f i) = out i w.shared) → ∀ i,
      inShared i s + f i ((w.locals t).after cfg.limits o v) + out i w.shared =
        inShared i w.shared + f i (w.locals t) + out i s) (i : ι) :
    inShared i w.shared + w.total (f i) = out i w.shared := by
  refine induction (J := fun w => ∀ i, inShared i w.shared + w.total (f i) = out i w.shared)
    h ?_ ?_ ?_ i
  · exact hinit
  · intro w hstart ih i
    rw [Crew.total_start, hstart, hzero]
    exact ih i
  · intro w t o v s hw ht hallowed hdoes ih i
    have hdelta := hstep w t o v s hw ht hallowed hdoes ih i
    have htotal := Crew.total_advance (f i) w ht o v s
    have hi := ih i
    show inShared i s + _ = out i s
    change _ = _ + f i ((w.locals t).after cfg.limits o v) at htotal
    omega

end Hands

section Table

/-- The keys of the transaction table. -/
def Shared.ids (s : Shared) : List TxId := s.table.map (·.1)

end Table

section Frames

/-- Operations that move entries of the transaction table, or their parts, between the hands. -/
def Op.movesEntries : Op → Bool
  | .newTransaction _ _ => true
  | .tokenUrlsafe => true
  | .register _ _ => true
  | .removeIfCurrent _ _ => true
  | .removeIfExpired _ _ _ => true
  | .drain => true
  | .poolRelease _ _ _ => true
  | _ => false

/-- The parts of the hands that concern entries. -/
structure Custody.SameEntries (g g' : Custody) : Prop where
  token : g'.token = g.token
  fresh : g'.fresh = g.fresh
  removed : g'.removed = g.removed
  released : g'.released = g.released

theorem after_sameEntries (limits : ResultLimitPolicy) (g : Custody) {o : Op} (v : o.Res)
    (ho : o.movesEntries = false) : g.SameEntries (g.after limits o v) := by
  cases o with
  | newTransaction _ _ | tokenUrlsafe | register _ _ | removeIfCurrent _ _ | removeIfExpired _ _ _
  | drain | poolRelease _ _ _ => cases ho
  | tryAcquire _ | semAcquire | scanIdle | openConnection | lookup _ =>
    cases v <;> exact ⟨rfl, rfl, rfl, rfl⟩
  | closeConnection conn =>
    simp only [Custody.after]
    split <;> exact ⟨rfl, rfl, rfl, rfl⟩
  | rfcBegin conn p => cases p <;> exact ⟨rfl, rfl, rfl, rfl⟩
  | _ => exact ⟨rfl, rfl, rfl, rfl⟩

theorem after_removeIfCurrent_sameEntries (limits : ResultLimitPolicy) (g : Custody) (id : TxId)
    (a : ActiveTransaction) (removed : Bool) :
    (if removed then g.remove (id, a) else g).SameEntries
      (g.after limits (.removeIfCurrent id a) removed) := by
  cases removed <;> cases hs : g.stage <;>
    simp only [Custody.after, Custody.afterRemove, hs] <;> exact ⟨rfl, rfl, rfl, rfl⟩

end Frames

section Entries

/-- The transaction that enters the table. -/
def Op.enters : Op → Option Entry
  | .register id a => some (id, a)
  | _ => none

/-- The transaction whose connection is passed to the pool. -/
def Op.leaves : Op → Option Entry
  | .poolRelease _ _ luw => luw
  | _ => none

def weight (p : Entry → Bool) (e : Option Entry) : ℕ := e.toList.countP p

theorem released_step (limits : ResultLimitPolicy) (g : Custody) (p : Entry → Bool) (o : Op)
    (v : o.Res) :
    (g.after limits o v).released.countP p = g.released.countP p + weight p o.leaves := by
  cases ho : o.movesEntries with
  | false =>
    rw [(after_sameEntries limits g v ho).released]
    cases o <;> first | rfl | cases ho
  | true =>
    cases o with
    | poolRelease conn reusable luw =>
      cases luw with
      | none => rfl
      | some e => simp [Custody.after, Custody.afterRelease, weight, Op.leaves, List.countP_cons]
    | removeIfCurrent id a =>
      have hsame := after_removeIfCurrent_sameEntries limits g id a v
      rw [hsame.released]
      cases v <;> rfl
    | removeIfExpired id a cutoff => cases v <;> rfl
    | newTransaction _ _ | tokenUrlsafe | register _ _ | drain => rfl
    | _ => cases ho

/-- Entries come into the table by `register`, leave the hands by `release`, and otherwise only
move from the table into the hands of whoever removes them. -/
theorem entries_step {g : Custody} {t : ℕ} {s s' : Shared} {o : Op} {v : o.Res}
    (hnodup : s.ids.Nodup) (hfresh : ∀ e, o.enters = some e → e.1 ∉ s.ids)
    (hallowed : g.allows cfg.limits o) (hdoes : Does cfg t s o v s') (p : Entry → Bool) :
    s'.table.countP p + (g.after cfg.limits o v).removed.countP p + weight p o.leaves =
      s.table.countP p + g.removed.countP p + weight p o.enters := by
  have hsame := after_sameEntries cfg.limits g v
  cases hdoes
  case register id a =>
    show (PyDict.set s.table id a).countP p + g.removed.countP p + 0 = _
    rw [set_of_notMem a (hfresh _ rfl)]
    simp [weight, Op.enters, List.countP_append]
    omega
  case removed id a hid =>
    have hsame := after_removeIfCurrent_sameEntries cfg.limits g id a true
    rw [hsame.removed, (erase_perm hnodup hid).countP_eq p]
    simp only [if_true, Custody.remove, List.countP_cons, weight, Op.leaves, Op.enters]
    omega
  case notCurrent id a hid =>
    have hsame := after_removeIfCurrent_sameEntries cfg.limits g id a false
    rw [hsame.removed]
    rfl
  case expired id a cutoff hid hcutoff =>
    show (PyDict.erase s.table id).countP p + ((id, a) :: g.removed).countP p + 0 = _
    rw [(erase_perm hnodup hid).countP_eq p]
    simp only [List.countP_cons, weight, Op.enters, Option.toList, List.countP_nil]
    omega
  case drain =>
    obtain ⟨_, _, hremoved⟩ := hallowed
    show 0 + s.table.countP p + 0 = _
    rw [hremoved]
    simp [weight, Op.enters]
  case poolRelease conn reusable luw =>
    cases luw with
    | none => rfl
    | some e =>
      obtain ⟨_, _, _, _, hremoved, _⟩ := hallowed
      show s.table.countP p + (g.removed.erase e).countP p + weight p (some e) = _
      rw [(List.perm_cons_erase hremoved).countP_eq p]
      simp only [List.countP_cons, weight, Op.enters, Option.toList, List.countP_nil]
      omega
  case newTransaction => rfl
  case tokenUrlsafe => rfl
  case notExpired => rfl
  all_goals
    rw [(hsame rfl).removed]
    rfl

end Entries

section Identity

/-- Is this the entry of the ID `id`? -/
def hasId (id : TxId) (e : Entry) : Bool := decide (e.1 = id)

def hasRef (ref : Nat) (e : Entry) : Bool := decide (e.2.ref = ref)

/-- How often a thread has the ID `id`: generated, taken out of the table, or released. -/
def Custody.idCount (id : TxId) (g : Custody) : ℕ :=
  g.token.toList.count id + (g.removed.countP (hasId id) + g.released.countP (hasId id))

def Custody.refCount (ref : Nat) (g : Custody) : ℕ :=
  g.fresh.toList.countP (fun a => decide (a.ref = ref)) +
    (g.removed.countP (hasRef ref) + g.released.countP (hasRef ref))

theorem count_ids (s : Shared) (id : TxId) : s.ids.count id = s.table.countP (hasId id) := by
  rw [Shared.ids, List.count, List.countP_map]
  refine List.countP_congr fun e _ => ?_
  simp [hasId]

theorem mem_ids {s : Shared} {id : TxId} : id ∈ s.ids ↔ 0 < s.table.countP (hasId id) := by
  rw [← count_ids, List.count_pos_iff]

theorem token_step {g : Custody} {t : ℕ} {s s' : Shared} {o : Op} {v : o.Res}
    (hallowed : g.allows cfg.limits o) (hdoes : Does cfg t s o v s') (id : TxId) :
    (g.after cfg.limits o v).token.toList.count id + weight (hasId id) o.enters +
      (if id ∈ s.tokens then 1 else 0) =
    g.token.toList.count id + (if id ∈ s'.tokens then 1 else 0) := by
  have hsame := after_sameEntries cfg.limits g v
  cases hdoes
  case tokenUrlsafe id' hfresh =>
    obtain ⟨_, _, htoken⟩ := hallowed
    by_cases hid : id = id'
    · subst hid
      simp [Custody.after, htoken, weight, Op.enters, hfresh]
    · simp [Custody.after, htoken, weight, Op.enters, hid, Ne.symm hid]
  case register id' a =>
    obtain ⟨_, htoken, _⟩ := hallowed
    by_cases hid : id' = id
    · subst hid
      simp [Custody.after, htoken, weight, Op.enters, hasId]
    · simp [Custody.after, htoken, weight, Op.enters, hasId, hid]
  case removed id' a hid =>
    rw [(after_removeIfCurrent_sameEntries cfg.limits g id' a true).token]
    rfl
  case notCurrent id' a hid =>
    rw [(after_removeIfCurrent_sameEntries cfg.limits g id' a false).token]; rfl
  case poolRelease luw => cases luw <;> rfl
  case newTransaction => rfl
  case drain => rfl
  case expired => rfl
  case notExpired => rfl
  all_goals
    rw [(hsame rfl).token]
    rfl

/-- Every generated ID is in one place: with the thread that generated it, in the table, with the
thread that took it out, or released. -/
theorem Hands.ids_conserved {w : Hands cfg program} (h : w.Reachable) (id : TxId) :
    w.shared.table.countP (hasId id) + w.total (Custody.idCount id) =
      if id ∈ w.shared.tokens then 1 else 0 := by
  refine conserved (fun id s => s.table.countP (hasId id)) Custody.idCount
    (fun id s => if id ∈ s.tokens then 1 else 0) h (fun _ => rfl) (fun _ => rfl) ?_ id
  intro w t o v s _ ht hallowed hdoes hlaw id
  have hone : ∀ id, w.shared.table.countP (hasId id) + (w.locals t).idCount id ≤ 1 := by
    intro id
    have hle := Crew.le_total (Custody.idCount id) ht
    have hid := hlaw id
    split at hid <;> omega
  have hnodup : w.shared.ids.Nodup := by
    refine List.nodup_iff_count_le_one.mpr fun id => ?_
    have hid := hone id
    rw [count_ids]
    omega
  have hfresh : ∀ e, o.enters = some e → e.1 ∉ w.shared.ids := by
    intro e he
    cases o <;> try cases he
    rename_i key a
    obtain ⟨_, htoken, _⟩ := hallowed
    have hid := hone key
    simp only [Custody.idCount, htoken, Option.toList, List.count_cons_self] at hid
    show key ∉ w.shared.ids
    rw [mem_ids]
    omega
  have hentries := entries_step hnodup hfresh hallowed hdoes (hasId id)
  have hreleased := released_step cfg.limits (w.locals t) (hasId id) o v
  have htoken := token_step hallowed hdoes id
  simp only [Custody.idCount]
  omega

theorem Hands.ids_nodup {w : Hands cfg program} (h : w.Reachable) : w.shared.ids.Nodup := by
  refine List.nodup_iff_count_le_one.mpr fun id => ?_
  have hid := Hands.ids_conserved h id
  rw [count_ids]
  split at hid <;> omega

/-- An ID that is being registered is not in the table. -/
theorem Hands.enters_fresh {w : Hands cfg program} (h : w.Reachable) {t : ℕ} (ht : t < w.size)
    {o : Op} (hallowed : (w.locals t).allows cfg.limits o) (e : Entry) (he : o.enters = some e) :
    e.1 ∉ w.shared.ids := by
  cases o <;> try cases he
  rename_i id a
  obtain ⟨_, htoken, _⟩ := hallowed
  have hid := Hands.ids_conserved h id
  have hle := Crew.le_total (Custody.idCount id) ht
  simp only [Custody.idCount, htoken, Option.toList, List.count_cons_self] at hle hid
  show id ∉ w.shared.ids
  rw [mem_ids]
  split at hid <;> omega

theorem fresh_step {g : Custody} {t : ℕ} {s s' : Shared} {o : Op} {v : o.Res}
    (hallowed : g.allows cfg.limits o) (hdoes : Does cfg t s o v s') (ref : Nat) :
    (g.after cfg.limits o v).fresh.toList.countP (fun a => decide (a.ref = ref)) +
      weight (hasRef ref) o.enters + (if ref < s.nextRef then 1 else 0) =
    g.fresh.toList.countP (fun a => decide (a.ref = ref)) +
      (if ref < s'.nextRef then 1 else 0) := by
  have hsame := after_sameEntries cfg.limits g v
  cases hdoes
  case newTransaction conn now =>
    obtain ⟨_, hfresh, _⟩ := hallowed
    simp only [Custody.after, hfresh, weight, Op.enters, Option.toList, List.countP_nil,
      List.countP_cons, decide_eq_true_eq]
    split <;> split <;> split <;> omega
  case register id a =>
    obtain ⟨_, _, hfresh, _⟩ := hallowed
    by_cases href : a.ref = ref
    · simp [Custody.after, hfresh, weight, Op.enters, hasRef, href]
    · simp [Custody.after, hfresh, weight, Op.enters, hasRef, href]
  case removed id' a hid =>
    rw [(after_removeIfCurrent_sameEntries cfg.limits g id' a true).fresh]
    rfl
  case notCurrent id' a hid =>
    rw [(after_removeIfCurrent_sameEntries cfg.limits g id' a false).fresh]; rfl
  case poolRelease luw => cases luw <;> rfl
  case tokenUrlsafe => rfl
  case drain => rfl
  case expired => rfl
  case notExpired => rfl
  all_goals
    rw [(hsame rfl).fresh]
    rfl

/-- Every transaction object is in one place. -/
theorem Hands.refs_conserved {w : Hands cfg program} (h : w.Reachable) (ref : Nat) :
    w.shared.table.countP (hasRef ref) + w.total (Custody.refCount ref) =
      if ref < w.shared.nextRef then 1 else 0 := by
  refine conserved (fun ref s => s.table.countP (hasRef ref)) Custody.refCount
    (fun ref s => if ref < s.nextRef then 1 else 0) h (fun _ => rfl) (fun _ => rfl) ?_ ref
  intro w t o v s hw ht hallowed hdoes _ ref
  have hentries := entries_step (Hands.ids_nodup hw) (Hands.enters_fresh hw ht hallowed) hallowed
    hdoes (hasRef ref)
  have hreleased := released_step cfg.limits (w.locals t) (hasRef ref) o v
  have hfresh := fresh_step hallowed hdoes ref
  simp only [Custody.refCount]
  omega

end Identity

end RfcMcp
