import RfcMcp.Custody.Protocol

namespace RfcMcp

open Framework Framework.Protocol

/-- The thread has nothing in its hands. -/
structure Custody.Settled (g : Custody) : Prop where
  holding : g.holding = .nothing
  closing : g.closing = []
  removed : g.removed = []
  token : g.token = none
  fresh : g.fresh = none
  busy : g.busy = none

/-- Between two operations on transactions: no lock, and nothing in hand. -/
structure Custody.Ready (g : Custody) : Prop extends g.Settled where
  locks : g.locks = []
  stage : g.stage = .idle

/-- Under the lock of one transaction, in some stage. -/
structure Custody.Under (g : Custody) (ref : Nat) (stage : Stage) : Prop extends g.Settled where
  locks : g.locks = [.active ref]
  stage : g.stage = stage

theorem Custody.ready_start : Custody.Ready {} := by
  constructor
  · constructor <;> rfl
  · rfl
  · rfl

/-- The bodies of sections under the locks of the table, the pool and the caches. -/
def Op.isBody : Op → Bool
  | .scanIdle => true
  | .appendIdle _ => true
  | .swapIdle => true
  | .lookup _ => true
  | .register _ _ => true
  | .isCurrent _ _ => true
  | .removeIfCurrent _ _ => true
  | .removeIfExpired _ _ _ => true
  | .snapshot => true
  | .drain => true
  | .cacheGet _ _ => true
  | .cacheSet _ _ _ => true
  | _ => false

/-- Operations that concern nobody's custody. -/
def Op.isNeutral : Op → Bool
  | .sleep _ => true
  | .snapshot => true
  | .readLastUsed _ => true
  | .monotonic => true
  | .cacheGet _ _ => true
  | .cacheSet _ _ _ => true
  | .log _ => true
  | _ => false

section Rules

variable {limits : ResultLimitPolicy} {α : Type} {g : Custody}
  {ok : α → Custody → Prop} {err : PyExc → Custody → Prop}

theorem meets_op {o : Op} {ok : o.Res → Custody → Prop} (ho : g.allows limits o)
    (hok : ∀ r, ok r (g.after limits o r)) : (custody limits).Meets (perform o) ok err g :=
  ⟨ho, hok⟩

theorem meets_neutral {o : Op} {ok : o.Res → Custody → Prop} (ho : o.isNeutral = true)
    (hover : g.stage.isOver = false) (hok : ∀ r, ok r g) :
    (custody limits).Meets (perform o) ok err g := by
  have hreturned : g.stage.returned = false := Stage.returned_of_isOver hover
  cases o <;> first | cases ho; done | exact meets_op ⟨hreturned, hover⟩ hok

theorem meets_log {record : LogRecord} {ok : Unit → Custody → Prop}
    (hover : g.stage.isOver = false) (hok : ok () g) :
    (custody limits).Meets (log record) ok err g :=
  meets_neutral (o := .log record) rfl hover fun _ => hok

theorem meets_withLock {l : LockId} {x : Act α} (hl : g.allows limits (.acquire l))
    (hx : (custody limits).Meets x
      (fun a g' => g'.allows limits (.release l) ∧ ok a (g'.afterUnlock l))
      (fun e g' => g'.allows limits (.release l) ∧ err e (g'.afterUnlock l)) (g.afterLock l)) :
    (custody limits).Meets (withLock l x) ok err g := by
  unfold withLock
  rw [meets_bind]
  refine meets_op hl fun _ => ?_
  rw [meets_tryFinally]
  exact Meets.mono hx (fun a g' h => meets_op h.1 fun _ => h.2)
    fun e g' h => meets_op h.1 fun _ => h.2

/-- The body of such a section is not concerned with locks. -/
theorem after_body (limits : ResultLimitPolicy) (g : Custody) {o : Op} (ho : o.isBody = true)
    (r : o.Res) (locks : List LockId) :
    { g with locks := locks }.after limits o r = { g.after limits o r with locks := locks } := by
  cases o with
  | removeIfCurrent id a =>
    cases hs : g.stage <;> cases r <;> simp [Custody.after, Custody.afterRemove, Custody.remove, hs]
  | scanIdle => cases r <;> rfl
  | lookup id => cases r <;> rfl
  | removeIfExpired id a cutoff => cases r <;> rfl
  | isCurrent id a => cases r <;> rfl
  | appendIdle _ | swapIdle | register _ _ | snapshot | drain | cacheGet _ _ | cacheSet _ _ _ => rfl
  | _ => cases ho

theorem after_body_locks {o : Op} (ho : o.isBody = true) (r : o.Res) :
    (g.after limits o r).locks = g.locks := by
  have h := congrArg Custody.locks (after_body limits g ho r g.locks)
  exact h

theorem after_body_returned {o : Op} (ho : o.isBody = true) (hover : g.stage.isOver = false)
    (r : o.Res) : (g.after limits o r).stage.returned = false := by
  have hreturned : g.stage.returned = false := Stage.returned_of_isOver hover
  cases o with
  | removeIfCurrent id a =>
    cases hs : g.stage <;> cases r <;> simp [Custody.after, Custody.afterRemove, hs]
  | scanIdle => cases r <;> exact hreturned
  | lookup id => cases r <;> first | exact hreturned | rfl
  | removeIfExpired id a cutoff => cases r <;> exact hreturned
  | isCurrent id a => cases r <;> rfl
  | appendIdle _ | swapIdle | register _ _ | snapshot | drain | cacheGet _ _ | cacheSet _ _ _ =>
    exact hreturned
  | _ => cases ho

theorem mayPerform_body {o : Op} (ho : o.isBody = true) (l : LockId)
    (hallowed : g.MayPerform limits o) :
    { g with locks := l :: g.locks }.MayPerform limits o := by
  cases o with
  | removeIfCurrent id a => exact ⟨List.mem_cons_of_mem _ hallowed.1, hallowed.2⟩
  | removeIfExpired id a cutoff => exact ⟨hallowed.1, List.mem_cons_of_mem _ hallowed.2⟩
  | scanIdle | lookup _ | isCurrent _ _ | appendIdle _ | swapIdle | register _ _ | snapshot | drain
  | cacheGet _ _ | cacheSet _ _ _ => exact hallowed
  | _ => cases ho

/-- A section under a lock other than a transaction's has the effect of its body. -/
theorem meets_section {l : LockId} {o : Op} {ok : o.Res → Custody → Prop}
    (hl : l.isActive = false) (ho : o.isBody = true) (hover : g.stage.isOver = false)
    (hleaf : ∀ l' ∈ g.locks, l'.isActive = true) (hallowed : g.MayPerform limits o)
    (hok : ∀ r, ok r (g.after limits o r)) :
    (custody limits).Meets (withLock l (perform o)) ok err g := by
  have hreturned : g.stage.returned = false := Stage.returned_of_isOver hover
  have hlock : g.afterLock l = { g with locks := l :: g.locks } := by
    cases l <;> first | cases hl; done | rfl
  refine meets_withLock ⟨hreturned, hover, ?_⟩ ?_
  · simp only [Custody.MayLock, hl]
    exact hleaf
  rw [hlock]
  refine meets_op ⟨hreturned, mayPerform_body ho l hallowed⟩ fun r => ?_
  rw [after_body limits g ho]
  have hlocks : (g.after limits o r).locks = g.locks := after_body_locks ho r
  refine ⟨⟨after_body_returned ho hover r, ?_⟩, ?_⟩
  · exact ⟨List.mem_cons_self, fun h => by rw [hl] at h; cases h⟩
  · have hunlock : { g.after limits o r with locks := l :: g.locks }.afterUnlock l =
        g.after limits o r := by
      simp only [Custody.afterUnlock, List.erase_cons_head, hl, ← hlocks]
      rfl
    rw [hunlock]
    exact hok r

end Rules

section Calm

variable (limits : ResultLimitPolicy) {α β : Type}

/-- From nothing in hand to nothing in hand, however it ends. -/
def Calm (x : Act α) : Prop :=
  ∀ g : Custody, g.Ready → (custody limits).Meets x (fun _ => Custody.Ready)
    (fun _ => Custody.Ready) g

variable {limits}

theorem calm_iff {x : Act α} : Calm limits x ↔ (custody limits).Keeps Custody.Ready x :=
  ⟨fun h => ⟨h⟩, fun h => h.meets⟩

theorem calm_pure (a : α) : Calm limits (pure a : Act α) :=
  calm_iff.mpr (keeps_pure a)

theorem calm_ofExcept (r : Except PyExc α) : Calm limits (Action.ofExcept r) :=
  calm_iff.mpr (keeps_ofExcept r)

theorem calm_bind {x : Act α} {f : α → Act β} (hx : Calm limits x)
    (hf : ∀ a, Calm limits (f a)) : Calm limits (x >>= f) :=
  calm_iff.mpr (keeps_bind ⟨hx⟩ fun a => ⟨hf a⟩)

theorem calm_neutral {o : Op} (ho : o.isNeutral = true) : Calm limits (perform o) := by
  intro g hg
  refine meets_neutral ho ?_ fun _ => hg
  rw [hg.stage]
  rfl

theorem calm_log (record : LogRecord) : Calm limits (log record) :=
  calm_neutral (o := .log record) rfl

/-- A neutral body under a lock that is not a transaction's. -/
theorem calm_section {l : LockId} {o : Op} (hl : l.isActive = false) (hbody : o.isBody = true)
    (ho : o.isNeutral = true) : Calm limits (withLock l (perform o)) := by
  intro g hg
  have hover : g.stage.isOver = false := by rw [hg.stage]; rfl
  have hsame : ∀ r, g.after limits o r = g := by
    cases o <;> first | cases ho; done | exact fun _ => rfl
  have hallowed : g.MayPerform limits o := by
    cases o <;> first | cases ho; done | exact hover
  refine meets_section hl hbody hover ?_ hallowed fun r => ?_
  · simp [hg.locks]
  · rw [hsame]
    exact hg

end Calm

end RfcMcp
