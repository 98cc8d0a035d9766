import Mathlib.Logic.Function.Basic
import RfcMcp.Framework.System

namespace Framework

/-- What a call does to the unit of work of its connection. -/
inductive WorkEffect
  | none
  | stages
  | commits
  | rollsBack
deriving DecidableEq, Repr

/-- A database server behind connections. What is staged on a connection waits there for its commit;
a commit makes it durable as one group. The newest entries come first. -/
structure Ledger (κ α : Type) where
  pending : κ → List α
  executing : κ → Option α
  durable : List (List α)

namespace Ledger

variable {κ α : Type} [DecidableEq κ] (effect : α → WorkEffect)

def empty : Ledger κ α := ⟨fun _ => [], fun _ => .none, []⟩

/-- A call arrives on connection `k`. -/
def begin (L : Ledger κ α) (k : κ) (a : α) : Ledger κ α :=
  { L with executing := Function.update L.executing k (some a) }

/-- The call on `k` fails without having taken effect, or after it has. -/
def drop (L : Ledger κ α) (k : κ) : Ledger κ α :=
  { L with executing := Function.update L.executing k .none }

/-- The call on `k` takes effect. -/
def execute (L : Ledger κ α) (k : κ) (a : α) : Ledger κ α :=
  match effect a with
  | .none => L.drop k
  | .stages => { L.drop k with pending := Function.update L.pending k (a :: L.pending k) }
  | .commits =>
    { L.drop k with
      pending := Function.update L.pending k []
      durable := L.pending k :: L.durable }
  | .rollsBack => { L.drop k with pending := Function.update L.pending k [] }

/-- What is staged on `k`, with the call that may still take effect. -/
def staged (L : Ledger κ α) (k : κ) : List α :=
  ((L.executing k).toList.filter fun a => effect a = .stages) ++ L.pending k

variable {effect} {L : Ledger κ α} {k k' : κ} {a : α}

@[simp] theorem begin_self : (L.begin k a).executing k = some a := Function.update_self ..

theorem begin_ne (h : k' ≠ k) : (L.begin k a).executing k' = L.executing k' :=
  Function.update_of_ne h ..

@[simp] theorem drop_self : (L.drop k).executing k = .none := Function.update_self ..

theorem drop_ne (h : k' ≠ k) : (L.drop k).executing k' = L.executing k' :=
  Function.update_of_ne h ..

/-- Where nothing is under way, nothing is lost. -/
theorem drop_quiet (h : L.executing k = .none) : L.drop k = L := by
  rw [drop, ← h, Function.update_eq_self]

@[simp] theorem execute_executing : (L.execute effect k a).executing = (L.drop k).executing := by
  unfold execute
  split <;> rfl

theorem execute_pending_ne (h : k' ≠ k) : (L.execute effect k a).pending k' = L.pending k' := by
  unfold execute
  split
  · rfl
  all_goals exact Function.update_of_ne h ..

/-- Unless it stages something, a call leaves nothing behind where there was nothing. -/
theorem execute_pending_nil (ha : effect a ≠ .stages) (h : L.pending k = []) :
    (L.execute effect k a).pending k = [] := by
  cases he : effect a with
  | stages => exact absurd he ha
  | none =>
    rw [execute, he]
    exact h
  | commits | rollsBack => simp only [execute, he, Function.update_self]

theorem execute_ends (ha : effect a = .commits ∨ effect a = .rollsBack) :
    (L.execute effect k a).pending k = [] := by
  rcases ha with ha | ha <;> simp only [execute, ha, Function.update_self]

theorem execute_durable (ha : effect a ≠ .commits) :
    (L.execute effect k a).durable = L.durable := by
  unfold execute
  split
  · rfl
  · rfl
  · exact absurd ‹_› ha
  · rfl

omit [DecidableEq κ] in
theorem staged_quiet (h : L.executing k = .none) : L.staged effect k = L.pending k := by
  simp [staged, h]

theorem staged_begin (h : L.executing k = .none) :
    (L.begin k a).staged effect k =
      [a].filter (fun a => effect a = .stages) ++ L.staged effect k := by
  rw [staged_quiet h, staged, begin_self]
  rfl

/-- Whether the call that is under way has taken effect already makes no difference to what it
stages. -/
theorem staged_execute (h : L.executing k = some a)
    (ha : effect a = .none ∨ effect a = .stages) :
    (L.execute effect k a).staged effect k = L.staged effect k := by
  have hquiet : (L.execute effect k a).executing k = .none := by simp
  rw [staged_quiet hquiet, staged, h]
  rcases ha with ha | ha
  · simp [execute, ha, drop]
  · simp [execute, ha]

omit [DecidableEq κ] in
theorem staged_congr {L' : Ledger κ α} (hpending : L'.pending k = L.pending k)
    (hexecuting : L'.executing k = L.executing k) : L'.staged effect k = L.staged effect k := by
  rw [staged, staged, hpending, hexecuting]

end Ledger

section Views

open Ledger

variable {κ α R : Type} {S : Signature} [DecidableEq κ] (effect : α → WorkEffect)
  (begins : S.Op → Option (κ × α)) (ends : (o : S.Op) → S.Res o → Option (κ × Bool))

/-- The server's part in an event. A call that returns has taken effect; one that fails may have. -/
inductive Observes (L : Ledger κ α) : Event S R → Ledger κ α → Prop
  | start (t : ℕ) (r : R) : Observes L (.start t r) L
  | quiet {t : ℕ} {o : S.Op} {v : S.Res o} (hbegins : begins o = none) (hends : ends o v = none) :
      Observes L (.did t o v) L
  | begun {t : ℕ} {o : S.Op} {v : S.Res o} {k : κ} {a : α} (hbegins : begins o = some (k, a)) :
      Observes L (.did t o v) (L.begin k a)
  | returned {t : ℕ} {o : S.Op} {v : S.Res o} {k : κ} (hends : ends o v = some (k, true))
      (hdone : L.executing k = none) : Observes L (.did t o v) L
  | failed {t : ℕ} {o : S.Op} {v : S.Res o} {k : κ} (hends : ends o v = some (k, false)) :
      Observes L (.did t o v) (L.drop k)

/-- Some call takes effect. -/
def Executes (L L' : Ledger κ α) : Prop :=
  ∃ k a, L.executing k = some a ∧ L' = L.execute effect k a

/-- The server may be in state `L` after a history: its calls take effect at any time between their
beginning and their end. -/
def Sees : List (Event S R) → Ledger κ α → Prop
  | [], L => L = Ledger.empty
  | ev :: h, L => ∃ L₀ L₁, Sees h L₀ ∧ Observes begins ends L₀ ev L₁ ∧
      Relation.ReflTransGen (Executes effect) L₁ L

variable {effect begins ends}

/-- Every history has a view: the one where calls take effect at once. -/
theorem exists_sees (h : List (Event S R)) :
    ∃ L : Ledger κ α, Sees effect begins ends h L ∧ ∀ k, L.executing k = none := by
  induction h with
  | nil => exact ⟨_, rfl, fun _ => rfl⟩
  | cons ev h ih =>
    obtain ⟨L, hsees, hnone⟩ := ih
    cases ev with
    | start t r => exact ⟨L, ⟨L, L, hsees, .start t r, .refl⟩, hnone⟩
    | did t o v =>
      cases hb : begins o with
      | some call =>
        obtain ⟨k, a⟩ := call
        have hexec : Executes effect (L.begin k a) ((L.begin k a).execute effect k a) :=
          ⟨k, a, begin_self, rfl⟩
        refine ⟨_, ⟨L, _, hsees, .begun hb, .single hexec⟩, fun k' => ?_⟩
        rw [execute_executing]
        by_cases hk : k' = k
        · subst hk
          exact drop_self
        · rw [drop_ne hk, begin_ne hk]
          exact hnone k'
      | none =>
        cases he : ends o v with
        | none => exact ⟨L, ⟨L, L, hsees, .quiet hb he, .refl⟩, hnone⟩
        | some answer =>
          obtain ⟨k, returned⟩ := answer
          cases returned with
          | true => exact ⟨L, ⟨L, L, hsees, .returned he (hnone k), .refl⟩, hnone⟩
          | false =>
            refine ⟨_, ⟨L, _, hsees, .failed he, .refl⟩, fun k' => ?_⟩
            by_cases hk : k' = k
            · subst hk
              exact drop_self
            · rw [drop_ne hk]
              exact hnone k'

namespace System

variable {Y : System S}

/-- The induction principle for what holds of a run and of the server beside it. -/
theorem Reachable.sees_induction {I : Y.Config → Ledger κ α → Prop}
    (hinit : I Y.initial Ledger.empty)
    (hspawn : ∀ c r L, Reachable c → I c L → I (c.spawn r) L)
    (hrun : ∀ c t o v c' L L', Reachable c → Performs c t o v c' →
      Observes (R := Y.Request) begins ends L (.did t o v) L' → I c L → I c' L')
    (hexecutes : ∀ c L k a, Reachable c → L.executing k = some a → I c L →
      I c (L.execute effect k a))
    {c : Y.Config} (h : Reachable c) {L : Ledger κ α}
    (hsees : Sees effect begins ends c.history L) : I c L := by
  have hrest : ∀ c, Reachable c → ∀ L₁ L₂, Relation.ReflTransGen (Executes effect) L₁ L₂ →
      I c L₁ → I c L₂ := by
    intro c hc L₁ L₂ hlater hI
    induction hlater with
    | refl => exact hI
    | tail _ hstep ih =>
      obtain ⟨k, a, hk, rfl⟩ := hstep
      exact hexecutes c _ k a hc hk ih
  refine Reachable.induction (I := fun c => ∀ L, Sees effect begins ends c.history L → I c L)
    ?_ ?_ ?_ h L hsees
  · rintro L rfl
    exact hinit
  · rintro c r hc ih L ⟨L₀, L₁, hsees, hobserves, hlater⟩
    have hsame : L₁ = L₀ := by
      cases hobserves
      rfl
    subst hsame
    exact hrest _ (hc.step (.start r)) _ _ hlater (hspawn c r _ hc (ih _ hsees))
  · intro c t o v c' hc ih hp L hL
    have hhistory : c'.history = .did t o v :: c.history := by
      cases hp
      rfl
    rw [hhistory] at hL
    obtain ⟨L₀, L₁, hsees, hobserves, hlater⟩ := hL
    have hstep := hrun c t o v c' L₀ L₁ hc hp hobserves (ih _ hsees)
    exact hrest _ (hc.step (.run hp)) _ _ hlater hstep

end System

end Views

end Framework
