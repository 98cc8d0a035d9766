import RfcMcp.Custody.Lifecycle
import RfcMcp.Framework.Alone
import RfcMcp.Mcp.Server

namespace RfcMcp

open Framework

section Operations

/-- An RFC of the request itself, and neither of the discovery nor of the sweep. -/
def Purpose.isOwn : Purpose → Bool
  | .discovery | .expire _ => false
  | .read | .write _ | .commit _ | .rollback _ | .shutdown _ => true

def Op.issuesOwn : Op → Bool
  | .rfcBegin _ p _ _ => p.isOwn
  | _ => false

/-- Operations with an effect outside of the thread, apart from locks and the clock. -/
def Op.isEffect : Op → Bool
  | .acquire _ | .tryAcquire _ | .release _ | .sleep _ | .rfcEnd _ _ _ | .poolRelease _ _ _
  | .lookup _ | .isCurrent _ _ | .snapshot | .readLastUsed _ | .monotonic | .log _ => false
  | _ => true

/-- Operations that neither issue an RFC of the request nor change a transaction, except that they
may expire it. -/
def Op.isBystander : Op → Bool
  | .rfcBegin _ p _ _ => !p.isOwn
  | .newTransaction _ _ | .tokenUrlsafe | .register _ _ | .removeIfCurrent _ _ | .drain
  | .setLastUsed _ _ => false
  | _ => true

def Op.effects (o : Op) (v : o.Res) : Trace Effects := if o.isEffect then [⟨o, v⟩] else []

/-- The transactions that an operation expires. -/
def Op.expires : (o : Op) → o.Res → List Entry
  | .removeIfExpired id a _, true => [(id, a)]
  | _, _ => []

def effectsOf (trace : Trace Effects) : Trace Effects :=
  trace.flatMap fun did => did.1.effects did.2

def expiredIn (trace : Trace Effects) : List Entry :=
  trace.flatMap fun did => did.1.expires did.2

end Operations

section States

variable (s₀ : Shared) (e : Entry) (trace : Trace Effects) (s : Shared)

/-- The transactions that the sweep has left in the table. -/
def remaining : List Entry := s₀.table.filter fun e => decide (e ∉ expiredIn trace)

/-- Those among them that are not `e`. -/
def others : List Entry := PyDict.erase (remaining s₀ trace) e.1

def NoOwn : Prop := ∀ did ∈ trace, did.1.issuesOwn = false

/-- The request has come to nothing that concerns transactions yet, except for the sweep. -/
structure Unwritten : Prop where
  table : s.table = remaining s₀ trace
  lastUsed : s.lastUsed = s₀.lastUsed
  nextRef : s.nextRef = s₀.nextRef
  tokens : s.tokens = s₀.tokens
  own : NoOwn trace

/-- `e` is registered, beside what the sweep has left. -/
structure Holds : Prop where
  active : s.active e.1 = some e.2
  table : PyDict.erase s.table e.1 = others s₀ e trace
  lastUsed : ∀ ref < s₀.nextRef, s.lastUsed ref = s₀.lastUsed ref

/-- `e` is not registered any more. -/
structure Gone : Prop where
  table : s.table = others s₀ e trace
  lastUsed : ∀ ref < s₀.nextRef, s.lastUsed ref = s₀.lastUsed ref

/-- The RFC of the request has been issued on the connection of `e`, as its only one, and `effects`
are what it has had an effect with since then. -/
def Issued (effects : Trace Effects) : Prop :=
  ∃ (before after : Trace Effects) (f : String) (kwargs : PyDict),
    trace = after ++ ⟨.rfcBegin e.2.connection (.write e) f kwargs, ()⟩ :: before ∧
      NoOwn before ∧ effectsOf after = effects

end States

section Phases

variable (s₀ : Shared) (e : Entry) (trace : Trace Effects) (s : Shared)

/-- A token has been drawn for a new transaction. -/
structure Creating (id : TxId) : Prop where
  table : s.table = remaining s₀ trace
  lastUsed : ∀ ref < s₀.nextRef, s.lastUsed ref = s₀.lastUsed ref
  nextRef : s₀.nextRef ≤ s.nextRef
  fresh : id ∉ s₀.table.map (·.1)
  own : NoOwn trace

/-- The write is about to be issued. -/
def Reserved : Prop := NoOwn trace ∧ Holds s₀ e trace s

/-- The write has been issued. -/
def Written : Prop := Issued e trace [] ∧ Holds s₀ e trace s

/-- What discarding `e` comes to, the newest first. -/
def discards : Trace Effects :=
  [⟨.semRelease, ()⟩, ⟨.closeConnection e.2.connection, ()⟩, ⟨.removeIfCurrent e.1 e.2, true⟩]

/-- The write has failed, and `e` has been given up for it. -/
def Discarded : Prop :=
  Issued e trace (discards e) ∧ Gone s₀ e trace s ∧ e.2.connection ∈ s.closed

/-- The transaction of a request with this ID: one that was registered, or a new one. -/
def Concerns : Option TxId → Prop
  | some id => e.1 = id ∧ e ∈ s₀.table
  | none => e.1 ∉ s₀.table.map (·.1)

end Phases

section Steps

variable {cfg : AppSettings} {t : ℕ} {s₀ s s' : Shared} {e : Entry} {trace effects : Trace Effects}
  {o : Op} {v : o.Res}

theorem quiet_expires (ho : o.isEffect = false) : o.expires v = [] := by
  cases o <;> first | rfl | cases ho

theorem quiet_issuesOwn (ho : o.isEffect = false) : o.issuesOwn = false := by
  cases o <;> first | rfl | cases ho

theorem expiredIn_cons (h : o.expires v = []) : expiredIn (⟨o, v⟩ :: trace) = expiredIn trace := by
  rw [expiredIn, List.flatMap_cons, h]
  rfl

theorem others_cons (h : o.expires v = []) : others s₀ e (⟨o, v⟩ :: trace) = others s₀ e trace := by
  rw [others, remaining, expiredIn_cons h]
  rfl

theorem NoOwn.cons (h : NoOwn trace) (ho : o.issuesOwn = false) : NoOwn (⟨o, v⟩ :: trace) := by
  intro did hdid
  cases List.mem_cons.mp hdid with
  | inl hnow => rw [hnow]; exact ho
  | inr hpast => exact h did hpast

theorem quiet_frame (hdoes : Does cfg t s o v s') (ho : o.isEffect = false) :
    s'.table = s.table ∧ s'.lastUsed = s.lastUsed ∧ s'.closed = s.closed := by
  cases hdoes <;> first | exact ⟨rfl, rfl, rfl⟩ | cases ho

theorem Holds.quiet (h : Holds s₀ e trace s) (hdoes : Does cfg t s o v s')
    (ho : o.isEffect = false) : Holds s₀ e (⟨o, v⟩ :: trace) s' := by
  obtain ⟨htable, hlastUsed, _⟩ := quiet_frame hdoes ho
  constructor
  · rw [Shared.active, htable]
    exact h.active
  · rw [htable, others_cons (quiet_expires ho)]
    exact h.table
  · rw [hlastUsed]
    exact h.lastUsed

theorem Gone.quiet (h : Gone s₀ e trace s) (hdoes : Does cfg t s o v s')
    (ho : o.isEffect = false) : Gone s₀ e (⟨o, v⟩ :: trace) s' := by
  obtain ⟨htable, hlastUsed, _⟩ := quiet_frame hdoes ho
  constructor
  · rw [htable, others_cons (quiet_expires ho)]
    exact h.table
  · rw [hlastUsed]
    exact h.lastUsed

/-- After the RFC a step adds its effect, unless it issues another. -/
theorem Issued.cons (h : Issued e trace effects) :
    Issued e (⟨o, v⟩ :: trace) (o.effects v ++ effects) := by
  obtain ⟨before, after, f, kwargs, rfl, hown, rfl⟩ := h
  exact ⟨before, ⟨o, v⟩ :: after, f, kwargs, rfl, hown, by rw [effectsOf, List.flatMap_cons]; rfl⟩

theorem Issued.quiet (h : Issued e trace effects) (ho : o.isEffect = false) :
    Issued e (⟨o, v⟩ :: trace) effects := by
  have hcons := h.cons (o := o) (v := v)
  rw [Op.effects, ho] at hcons
  exact hcons

variable (hids : (s₀.table.map (·.1)).Nodup)
include hids

theorem remaining_expired {id : TxId} {a : ActiveTransaction} {cutoff : Time}
    (hmem : (id, a) ∈ remaining s₀ trace) :
    PyDict.erase (remaining s₀ trace) id =
      remaining s₀ (⟨.removeIfExpired id a cutoff, true⟩ :: trace) := by
  have hmem₀ : (id, a) ∈ s₀.table := List.mem_of_mem_filter hmem
  unfold PyDict.erase remaining
  rw [List.filter_filter]
  refine List.filter_congr fun e he => ?_
  have hsame : e.1 = id ↔ e = (id, a) := by
    constructor
    · intro heq
      exact List.inj_on_of_nodup_map hids he hmem₀ heq
    · intro heq
      rw [heq]
  have hexpired : expiredIn (⟨.removeIfExpired id a cutoff, true⟩ :: trace) =
      (id, a) :: expiredIn trace := rfl
  rw [hexpired]
  by_cases heq : e = (id, a)
  · simp [heq]
  · have hne : e.1 ≠ id := fun h => heq (hsame.mp h)
    simp [heq, hne]

/-- A step of a bystander changes nothing but what it expires. -/
theorem Unwritten.step (h : Unwritten s₀ trace s) (hdoes : Does cfg t s o v s')
    (ho : o.isBystander = true) : Unwritten s₀ (⟨o, v⟩ :: trace) s' := by
  have hown : o.issuesOwn = false := by
    cases o with
    | rfcBegin conn p f kwargs => simpa [Op.isBystander, Op.issuesOwn] using ho
    | _ => rfl
  have hnothing : o.expires v = [] → s'.table = s.table → s'.lastUsed = s.lastUsed →
      s'.nextRef = s.nextRef → s'.tokens = s.tokens → Unwritten s₀ (⟨o, v⟩ :: trace) s' := by
    intro hexpires htable hlastUsed hnextRef htokens
    refine ⟨?_, hlastUsed.trans h.lastUsed, hnextRef.trans h.nextRef, htokens.trans h.tokens,
      h.own.cons hown⟩
    rw [htable, h.table, remaining, remaining, expiredIn_cons hexpires]
  cases hdoes with
  | expired hactive hcutoff =>
    refine ⟨?_, h.lastUsed, h.nextRef, h.tokens, h.own.cons hown⟩
    have hmem := lookup_mem hactive
    rw [h.table] at hmem
    change PyDict.erase s.table _ = _
    rw [h.table]
    exact remaining_expired hids hmem
  | newTransaction | tokenUrlsafe | register | removed | notCurrent | drain | setLastUsed =>
    cases ho
  | _ => exact hnothing rfl rfl rfl rfl rfl

end Steps

end RfcMcp
