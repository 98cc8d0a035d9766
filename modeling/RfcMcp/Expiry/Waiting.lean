import RfcMcp.Expiry.Ages

namespace RfcMcp

open Framework Framework.System

section Waiting

/-- How another thread takes up a transaction: it takes the lock, or `close` drains the table. -/
def Op.takesUp (e : Entry) : (o : Op) → o.Res → Prop
  | .acquire l, _ => l = .active e.2.ref
  | .tryAcquire l, locked => l = .active e.2.ref ∧ locked = true
  | .drain, pending => e ∈ pending
  | _, _ => False

/-- What the clock shows. -/
def Op.readings : (o : Op) → o.Res → List Time
  | .monotonic, now => [now]
  | _, _ => []

/-- No other thread than `t` takes up `e`. -/
def Untouched (t : ℕ) (e : Entry) (later : History Request) : Prop :=
  ∀ u o v, .did u o v ∈ later → u ≠ t → ¬ Op.takesUp e o v

/-- As long as no other thread takes it up, nothing happens to a transaction that thread `t` does
not do. -/
structure Waiting (c d : Run cfg) (t : ℕ) (e : Entry) : Prop where
  registered : e ∈ d.shared.table ∨ e ∈ recordOf Op.removes t d.history
  unlocked : ∀ u, d.shared.holder (.active e.2.ref) = some u → u = t
  unused : d.shared.lastUsed e.2.ref = c.shared.lastUsed e.2.ref ∨
    ∃ a now, .did t (.setLastUsed a now) () ∈ d.history
  known : e.2.ref < d.shared.nextRef

variable {cfg : AppSettings} {b c d : Run cfg} {t u : ℕ} {e : Entry}

/-- An entry leaves the table only when it is removed. -/
theorem mem_table_or_removes {s s' : Shared} {o : Op} {v : o.Res} (hdoes : Does cfg u s o v s')
    (hids : s.ids.Nodup) (hfresh : ∀ e, o.enters = some e → e.1 ∉ s.ids) (he : e ∈ s.table) :
    e ∈ s'.table ∨ e ∈ o.removes v := by
  have herase : ∀ {id : TxId} {a : ActiveTransaction}, s.active id = some a →
      e ∈ PyDict.erase s.table id ∨ e = (id, a) := by
    intro id a hactive
    cases List.mem_cons.mp ((erase_perm hids hactive).mem_iff.mp he) with
    | inl heq => exact .inr heq
    | inr hkept => exact .inl hkept
  cases hdoes with
  | @register id a =>
    left
    change e ∈ PyDict.set s.table id a
    rw [set_of_notMem a (hfresh _ rfl)]
    exact List.mem_append_left _ he
  | removed hactive => exact (herase hactive).imp_right List.mem_singleton.mpr
  | expired hactive _ => exact (herase hactive).imp_right List.mem_singleton.mpr
  | drain => exact .inr he
  | _ => exact .inl he

/-- Only thread `t` comes to have the lock. -/
theorem unlocked_step {s s' : Shared} {o : Op} {v : o.Res} (hdoes : Does cfg u s o v s')
    (huntouched : u ≠ t → ¬ Op.takesUp e o v)
    (h : ∀ w, s.holder (.active e.2.ref) = some w → w = t) :
    ∀ w, s'.holder (.active e.2.ref) = some w → w = t := by
  have htake : ∀ l, (l = .active e.2.ref → u = t) → ∀ w,
      ({ s with holder := Function.update s.holder l (some u) } : Shared).holder
        (.active e.2.ref) = some w → w = t := by
    intro l hself w hholder
    change Function.update s.holder l (some u) (LockId.active e.2.ref) = some w at hholder
    by_cases hl : LockId.active e.2.ref = l
    · subst hl
      rw [Function.update_self] at hholder
      cases hholder
      exact hself rfl
    · rw [Function.update_of_ne hl] at hholder
      exact h w hholder
  cases hdoes with
  | @acquire l hfree =>
    refine htake l fun hl => ?_
    by_contra hne
    exact huntouched hne hl
  | @tryAcquired l hfree =>
    refine htake l fun hl => ?_
    by_contra hne
    exact huntouched hne ⟨hl, rfl⟩
  | @release l =>
    intro w hholder
    change Function.update s.holder l none (LockId.active e.2.ref) = some w at hholder
    by_cases hl : LockId.active e.2.ref = l
    · subst hl
      rw [Function.update_self] at hholder
      cases hholder
    · rw [Function.update_of_ne hl] at hholder
      exact h w hholder
  | _ => exact h

/-- A thread records no use of a transaction whose lock it does not have. -/
theorem lastUsed_step (hb : Reachable b) {o : Op} {v : o.Res} {s : Shared}
    (hallowed : ((hands b).locals u).allows cfg.limits o) (hdoes : Does cfg u b.shared o v s)
    (hknown : e.2.ref < b.shared.nextRef) (hother : b.shared.holder (.active e.2.ref) ≠ some u) :
    s.lastUsed e.2.ref = b.shared.lastUsed e.2.ref := by
  have hw := hands_reachable (@program_follows cfg) hb
  cases hdoes with
  | newTransaction => exact Function.update_of_ne (Nat.ne_of_lt hknown) _ _
  | @setLastUsed a now =>
    obtain ⟨_, e', raw, value, hwrote, rfl, _⟩ := hallowed
    have hlock := Hands.guarded hw u e'.2.ref (by rw [hwrote]; rfl)
    have hne : e.2.ref ≠ e'.2.ref := by
      intro heq
      rw [← heq] at hlock
      exact hother ((mem_locks_iff hb _).mp hlock)
    exact Function.update_of_ne hne _ _
  | _ => rfl

/-- Nor does it take such a transaction out of the table, except by draining it. -/
theorem holder_of_removes (hb : Reachable b) {o : Op} {v : o.Res}
    (hallowed : ((hands b).locals u).allows cfg.limits o) (hremoves : e ∈ o.removes v)
    (hdrain : ¬ Op.takesUp e o v) : b.shared.holder (.active e.2.ref) = some u := by
  obtain ⟨_, hmay⟩ := hallowed
  refine (mem_locks_iff hb _).mp ?_
  cases o with
  | removeIfCurrent id a =>
    cases v with
    | true => cases List.mem_singleton.mp hremoves; exact hmay.1
    | false => cases hremoves
  | removeIfExpired id a cutoff =>
    cases v with
    | true => cases List.mem_singleton.mp hremoves; exact hmay.2
    | false => cases hremoves
  | drain => exact absurd hremoves hdrain
  | _ => cases hremoves

/-- What a step of any thread does to a transaction that waits. -/
theorem Waiting.step (h : Waiting c b t e) (hb : Reachable b) {o : Op} {v : o.Res}
    (hp : Performs b u o v d) (huntouched : u ≠ t → ¬ Op.takesUp e o v) : Waiting c d t e := by
  have hw := hands_reachable (@program_follows cfg) hb
  have hallowed := hp.allowed (@program_follows cfg) hb
  have hfresh := Hands.enters_fresh hw hp.lt hallowed
  obtain ⟨hthread, hperform⟩ := hp
  have hdoes := Shared.perform_does hperform
  constructor
  · cases h.registered with
    | inr hremoved =>
      rw [← List.singleton_append, recordOf_append]
      exact .inr (List.mem_append_right _ hremoved)
    | inl htable =>
      refine (mem_table_or_removes hdoes (Hands.ids_nodup hw) hfresh htable).imp_right
        fun hremoves => ?_
      have hself : u = t := by
        by_contra hne
        exact hne (h.unlocked u (holder_of_removes hb hallowed hremoves (huntouched hne)))
      subst hself
      rw [recordOf_did_self]
      exact List.mem_append_left _ hremoves
  · exact unlocked_step hdoes huntouched h.unlocked
  · cases h.unused with
    | inr hused =>
      obtain ⟨a, now, hdid⟩ := hused
      exact .inr ⟨a, now, List.mem_cons_of_mem _ hdid⟩
    | inl hsame =>
      by_cases hholder : b.shared.holder (.active e.2.ref) = some u
      · obtain rfl := h.unlocked u hholder
        cases hdoes with
        | newTransaction =>
          exact .inl ((Function.update_of_ne (Nat.ne_of_lt h.known) _ _).trans hsame)
        | setLastUsed => exact .inr ⟨_, _, List.mem_cons_self⟩
        | _ => exact .inl hsame
      · exact .inl ((lastUsed_step hb hallowed hdoes h.known hholder).trans hsame)
  · exact h.known.trans_le (nextRef_mono hdoes)

theorem Waiting.spawn (h : Waiting c b t e) (request : Request) :
    Waiting c (b.spawn request) t e := by
  refine ⟨h.registered, h.unlocked, h.unused.imp_right fun hused => ?_, h.known⟩
  obtain ⟨a, now, hdid⟩ := hused
  exact ⟨a, now, List.mem_cons_of_mem _ hdid⟩

/-- A transaction without an operation in flight waits, until another thread takes it up. -/
theorem waiting_of_leads (h : Reachable c) (he : e ∈ c.shared.table)
    (hfree : c.shared.holder (.active e.2.ref) = none) {request : Request}
    (hlead : Leads (c.spawn request) d) {later : History Request}
    (hlater : d.history = later ++ (c.spawn request).history)
    (huntouched : Untouched t e later) : Waiting c d t e := by
  have hspawn : Reachable (c.spawn request) := h.step (.start (Y := server cfg) request)
  induction hlead generalizing later with
  | refl =>
    refine ⟨.inl he, fun u hu => ?_, .inl rfl, ref_lt h he⟩
    rw [show (c.spawn request).shared = c.shared from rfl, hfree] at hu
    cases hu
  | @tail b d hlead hs ih =>
    obtain ⟨past, hpast⟩ := history_suffix hlead
    have hstep : ∀ ev, d.history = ev :: b.history → later = ev :: past := by
      intro ev hev
      rw [hlater, ← hpast] at hev
      exact List.append_cancel_right hev
    cases hs with
    | start r =>
      have hnow := hstep _ rfl
      refine (ih hpast.symm fun u o v hdid => ?_).spawn r
      exact huntouched u o v (by rw [hnow]; exact List.mem_cons_of_mem _ hdid)
    | @run u o v _ hp =>
      have hnow : later = .did u o v :: past := by
        refine hstep _ ?_
        cases hp
        rfl
      have hwaiting : Waiting c b t e := ih hpast.symm fun u o v hdid =>
        huntouched u o v (by rw [hnow]; exact List.mem_cons_of_mem _ hdid)
      refine hwaiting.step (hspawn.leads hlead) hp (huntouched u o v ?_)
      rw [hnow]
      exact List.mem_cons_self

end Waiting

end RfcMcp
