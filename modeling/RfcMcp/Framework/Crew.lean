import RfcMcp.Framework.System
import Mathlib.Algebra.BigOperators.Group.Finset.Basic
import Mathlib.Algebra.Order.BigOperators.Group.Finset

namespace Framework

open Framework.System

/-- A system seen through a protocol: of its programs only the locals of the threads are left. -/
structure Crew {S : Signature} (Y : System S) (P : Protocol S) where
  shared : Y.Shared
  size : ℕ
  locals : ℕ → P.Local

namespace Crew

variable {S : Signature} {Y : System S} {P : Protocol S}

def advance (w : Crew Y P) (t : ℕ) (o : S.Op) (v : S.Res o) (s : Y.Shared) : Crew Y P :=
  ⟨s, w.size, Function.update w.locals t (P.after o v (w.locals t))⟩

/-- Threads appear, and those that are there perform allowed operations, in any order. -/
inductive Reachable : Crew Y P → Prop
  | init : Reachable ⟨Y.init, 0, fun _ => P.start⟩
  | start {w : Crew Y P} (h : Reachable w) : Reachable { w with size := w.size + 1 }
  | run {w : Crew Y P} {t : ℕ} {o : S.Op} {ch : Y.Choice} {v : S.Res o} {s : Y.Shared}
      (h : Reachable w) (ht : t < w.size) (hallowed : P.allows o (w.locals t))
      (hperform : Y.perform t o ch w.shared = some (v, s)) : Reachable (w.advance t o v s)

@[simp] theorem advance_self (w : Crew Y P) (t : ℕ) (o : S.Op) (v : S.Res o) (s : Y.Shared) :
    (w.advance t o v s).locals t = P.after o v (w.locals t) := by
  simp [advance]

theorem advance_ne (w : Crew Y P) {t u : ℕ} (hu : u ≠ t) (o : S.Op) (v : S.Res o) (s : Y.Shared) :
    (w.advance t o v s).locals u = w.locals u := by
  simp [advance, hu]

theorem Reachable.unborn {w : Crew Y P} (h : Reachable w) {t : ℕ} (ht : w.size ≤ t) :
    w.locals t = P.start := by
  induction h with
  | init => rfl
  | start h ih => exact ih (Nat.le_of_succ_le ht)
  | run h hlt _ _ ih =>
    rw [advance_ne _ (Nat.ne_of_gt (Nat.lt_of_lt_of_le hlt ht))]
    exact ih ht

section Simulation

variable (P)

def of (c : Y.Config) : Crew Y P := ⟨c.shared, c.threads.length, fun t => localOf P t c.history⟩

variable {P} {post : Y.Request → Y.Reply → P.Local → Prop}

theorem of_performs {c c' : Y.Config} {t : ℕ} {o : S.Op} {v : S.Res o} (h : Performs c t o v c') :
    of P c' = (of P c).advance t o v c'.shared := by
  obtain ⟨hthread, hperform⟩ := h
  simp only [of, advance, List.length_set, Crew.mk.injEq, true_and]
  funext u
  by_cases hu : u = t
  · subst hu
    simp
  · rw [localOf_did_ne P (Ne.symm hu), Function.update_of_ne hu]

theorem of_spawn (c : Y.Config) (r : Y.Request) :
    of P (c.spawn r) = { of P c with size := (of P c).size + 1 } := by
  simp [of, Config.spawn]

/-- Programs that follow the protocol run as a crew that does. -/
theorem of_reachable (hprog : ∀ r, P.Follows (post r) (Y.program r) P.start) {c : Y.Config}
    (h : System.Reachable c) : Reachable (of P c) := by
  refine System.Reachable.induction (I := fun c => Reachable (of P c)) .init
    (fun c r _ ih => ?_) (fun c t o v c' hc ih hp => ?_) h
  · rw [of_spawn]
    exact ih.start
  · rw [of_performs hp]
    have hallowed := hp.allowed hprog hc
    have hlt := hp.lt
    obtain ⟨hthread, hperform⟩ := hp
    exact ih.run hlt hallowed hperform

end Simulation

section Total

variable (f g : P.Local → ℕ)

/-- The total of a quantity over all threads. -/
def total (w : Crew Y P) : ℕ := ∑ t ∈ Finset.range w.size, f (w.locals t)

theorem total_start (w : Crew Y P) :
    total f { w with size := w.size + 1 } = total f w + f (w.locals w.size) :=
  Finset.sum_range_succ _ _

/-- One thread's step changes the total by its own change. -/
theorem total_advance (w : Crew Y P) {t : ℕ} (ht : t < w.size) (o : S.Op) (v : S.Res o)
    (s : Y.Shared) :
    total f (w.advance t o v s) + f (w.locals t) =
      total f w + f (P.after o v (w.locals t)) := by
  have hmem := Finset.mem_range.mpr ht
  have hsize : (w.advance t o v s).size = w.size := rfl
  simp only [total, hsize]
  rw [← Finset.add_sum_erase _ _ hmem, ← Finset.add_sum_erase _ _ hmem, advance_self]
  have hrest : ∀ u ∈ (Finset.range w.size).erase t,
      f ((w.advance t o v s).locals u) = f (w.locals u) := by
    intro u hu
    rw [advance_ne w (Finset.ne_of_mem_erase hu)]
  rw [Finset.sum_congr rfl hrest]
  omega

theorem total_add (w : Crew Y P) :
    total (fun k => f k + g k) w = total f w + total g w :=
  Finset.sum_add_distrib

theorem total_le {w : Crew Y P} (h : ∀ t, f (w.locals t) ≤ g (w.locals t)) :
    total f w ≤ total g w :=
  Finset.sum_le_sum fun t _ => h t

theorem le_total {w : Crew Y P} {t : ℕ} (ht : t < w.size) : f (w.locals t) ≤ total f w :=
  Finset.single_le_sum (f := fun t => f (w.locals t)) (fun _ _ => Nat.zero_le _)
    (Finset.mem_range.mpr ht)

theorem add_le_total {w : Crew Y P} {t u : ℕ} (ht : t < w.size) (hu : u < w.size) (hne : t ≠ u) :
    f (w.locals t) + f (w.locals u) ≤ total f w := by
  have hmem := Finset.mem_erase.mpr ⟨hne.symm, Finset.mem_range.mpr hu⟩
  rw [total, ← Finset.add_sum_erase _ _ (Finset.mem_range.mpr ht)]
  exact Nat.add_le_add_left (Finset.single_le_sum
    (f := fun t => f (w.locals t)) (fun _ _ => Nat.zero_le _) hmem) _

theorem exists_of_total_pos {w : Crew Y P} (h : 0 < total f w) :
    ∃ t < w.size, 0 < f (w.locals t) := by
  obtain ⟨t, ht, hne⟩ := Finset.exists_ne_zero_of_sum_ne_zero (Nat.pos_iff_ne_zero.mp h)
  exact ⟨t, Finset.mem_range.mp ht, Nat.pos_of_ne_zero hne⟩

end Total

end Crew

end Framework
