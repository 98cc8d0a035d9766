import RfcMcp.Framework.System
import Mathlib.Logic.Hydra
import Mathlib.Data.List.Perm.Basic

namespace Framework

variable {S : Signature} {α : Type}

/-- `q` is what `p` goes on with after its next operation. -/
def Program.Rest (q p : Program S α) : Prop :=
  ∃ (o : S.Op) (next : S.Res o → Program S α) (v : S.Res o), p = .call o next ∧ q = next v

/-- A program is finite, whatever the answers are. -/
theorem Program.rest_wellFounded : WellFounded (Program.Rest (S := S) (α := α)) := by
  constructor
  intro p
  induction p with
  | ret a =>
    constructor
    rintro q ⟨o, next, v, hcall, _⟩
    cases hcall
  | call o next ih =>
    constructor
    rintro q ⟨o', next', v, hcall, rfl⟩
    cases hcall
    exact ih v

namespace System

variable {Y : System S} {c c' : Y.Config} {t : ℕ}

/-- What the threads have left to do. -/
def Config.programs (c : Y.Config) : Multiset (Program S Y.Reply) :=
  ↑(c.threads.map fun thread => thread.2)

/-- A step replaces one program by its rest. -/
theorem Performs.cutExpand {o : S.Op} {v : S.Res o} (h : Performs c t o v c') :
    Relation.CutExpand Program.Rest c'.programs c.programs := by
  obtain @⟨req, next, _, _, hthread, _⟩ := h
  obtain ⟨hlt, hget⟩ := List.getElem?_eq_some_iff.mp hthread
  refine ⟨{next v}, .call o next, ?_, ?_⟩
  · intro p hp
    rw [Multiset.mem_singleton.mp hp]
    exact ⟨o, next, v, rfl, rfl⟩
  · have hnew := (List.set_perm_cons_eraseIdx hlt (req, next v)).map fun thread => thread.2
    have hold := (List.getElem_cons_eraseIdx_perm hlt).map fun thread => thread.2
    rw [hget] at hold
    unfold Config.programs
    simp only [List.map_cons] at hnew hold
    have hswap : ∀ (others : Multiset (Program S Y.Reply)) (p q : Program S Y.Reply),
        q ::ₘ others + {p} = p ::ₘ others + {q} := by
      intro others p q
      rw [Multiset.cons_add, Multiset.cons_add, Multiset.add_comm others,
        Multiset.add_comm others, Multiset.singleton_add, Multiset.singleton_add,
        Multiset.cons_swap]
    rw [Multiset.coe_eq_coe.mpr hnew, ← Multiset.coe_eq_coe.mpr hold]
    exact hswap (c.threads.eraseIdx t |>.map fun thread => thread.2) (.call o next) (next v)

/-- No request arrives, the threads that are there go on. -/
abbrev Works : Y.Config → Y.Config → Prop :=
  Relation.ReflTransGen fun c c' => ∃ t o v, Performs c t o v c'

theorem Works.leads (h : Works c c') : Leads c c' := by
  induction h with
  | refl => exact .refl
  | tail _ hs ih =>
    obtain ⟨t, o, v, hp⟩ := hs
    exact ih.tail (.run hp)

/-- Every thread has returned. -/
def Config.Returned (c : Y.Config) : Prop :=
  ∀ (t : ℕ) (r : Y.Request) (p : Program S Y.Reply), c.threads[t]? = some (r, p) → ∃ a, p = .ret a

/-- However the threads that are there interleave, they never get stuck and all return, and then
`Q` holds. -/
inductive Finishes (Q : Y.Config → Prop) : Y.Config → Prop
  | done {c : Y.Config} (h : c.Returned) (hq : Q c) : Finishes Q c
  | step {c : Y.Config} (hcan : ∃ t o v c', Performs c t o v c')
    (hall : ∀ t o v c', Performs c t o v c' → Finishes Q c') : Finishes Q c

/-- The rule for total correctness of a system: it is enough that some thread can go on while one
has not returned. -/
theorem finishes_of_progress {Q : Y.Config → Prop}
    (hprogress : ∀ c', Works c c' → ¬ c'.Returned → ∃ t o v c'', Performs c' t o v c'')
    (hq : ∀ c', Works c c' → c'.Returned → Q c') : Finishes Q c := by
  have hwf : WellFounded (InvImage (Relation.CutExpand Program.Rest)
      (Config.programs : Y.Config → _)) := InvImage.wf _ Program.rest_wellFounded.cutExpand
  induction c using hwf.induction with
  | h c ih =>
    by_cases hdone : c.Returned
    · exact .done hdone (hq c .refl hdone)
    · refine .step (hprogress c .refl hdone) ?_
      intro t o v c' hperforms
      have hfirst : Works c c' := .single ⟨t, o, v, hperforms⟩
      apply ih c' hperforms.cutExpand
      · intro d hd
        exact hprogress d (hfirst.trans hd)
      · intro d hd
        exact hq d (hfirst.trans hd)

end System

end Framework
