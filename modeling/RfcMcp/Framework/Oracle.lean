import RfcMcp.Framework.Program

namespace Framework

variable {S : Signature} {ε α β : Type}

namespace Program

variable (oracle : (o : S.Op) → S.Res o)

/-- What a program comes to when the oracle answers its operations. -/
def answer : Program S α → α
  | .ret a => a
  | .call o next => answer (next (oracle o))

/-- The operations it performs, the first one first. -/
def asks : Program S α → List S.Op
  | .ret _ => []
  | .call o next => o :: asks (next (oracle o))

theorem answer_program_bind (p : Program S α) (f : α → Program S β) :
    (p.bind f).answer oracle = (f (p.answer oracle)).answer oracle := by
  induction p with
  | ret a => rfl
  | call o next ih => exact ih (oracle o)

theorem asks_program_bind (p : Program S α) (f : α → Program S β) :
    (p.bind f).asks oracle = p.asks oracle ++ (f (p.answer oracle)).asks oracle := by
  induction p with
  | ret a => rfl
  | call o next ih => exact congrArg (o :: ·) (ih (oracle o))

end Program

namespace Action

variable (oracle : (o : S.Op) → S.Res o)

/-- The outcome of an action when the oracle answers. -/
def outcome (x : Action S ε α) : Except ε α := Program.answer oracle x

def asked (x : Action S ε α) : List S.Op := Program.asks oracle x

@[simp] theorem outcome_pure (a : α) : (pure a : Action S ε α).outcome oracle = .ok a := rfl

@[simp] theorem asked_pure (a : α) : (pure a : Action S ε α).asked oracle = [] := rfl

@[simp] theorem outcome_ofExcept (r : Except ε α) :
    (ofExcept r : Action S ε α).outcome oracle = r := rfl

@[simp] theorem asked_ofExcept (r : Except ε α) :
    (ofExcept r : Action S ε α).asked oracle = [] := rfl

variable {oracle}

theorem outcome_bind {x : Action S ε α} {f : α → Action S ε β} :
    (x >>= f : Action S ε β).outcome oracle =
      (x.outcome oracle).bind fun a => (f a).outcome oracle := by
  refine (Program.answer_program_bind oracle x _).trans ?_
  change Program.answer oracle _ = Except.bind (Program.answer oracle x) _
  cases Program.answer oracle x <;> rfl

theorem asked_bind_ok {x : Action S ε α} {f : α → Action S ε β} {a : α}
    (hx : x.outcome oracle = .ok a) :
    (x >>= f : Action S ε β).asked oracle = x.asked oracle ++ (f a).asked oracle := by
  refine (Program.asks_program_bind oracle x _).trans ?_
  have hanswer : Program.answer oracle x = .ok a := hx
  rw [hanswer]
  rfl

theorem asked_bind_error {x : Action S ε α} {f : α → Action S ε β} {e : ε}
    (hx : x.outcome oracle = .error e) :
    (x >>= f : Action S ε β).asked oracle = x.asked oracle := by
  refine (Program.asks_program_bind oracle x _).trans ?_
  have hanswer : Program.answer oracle x = .error e := hx
  rw [hanswer]
  exact List.append_nil _

theorem outcome_tryExcept {x : Action S ε α} {handler : ε → Action S ε α} :
    (x.tryExcept handler).outcome oracle =
      (x.outcome oracle).tryCatch fun e => (handler e).outcome oracle := by
  refine (Program.answer_program_bind oracle x _).trans ?_
  change Program.answer oracle _ = Except.tryCatch (Program.answer oracle x) _
  cases Program.answer oracle x <;> rfl

section Collect

variable {items : List α} {body body' : α → Action S ε (List β)}

theorem outcome_collect_cons (a : α) (rest : List α) :
    (collect (a :: rest) body).outcome oracle =
      ((body a).outcome oracle).bind fun found =>
        ((collect rest body).outcome oracle).bind fun more => .ok (found ++ more) := by
  refine outcome_bind.trans ?_
  cases (body a).outcome oracle with
  | error e => rfl
  | ok found => exact outcome_bind

theorem outcome_collect_congr
    (h : ∀ a ∈ items, (body a).outcome oracle = (body' a).outcome oracle) :
    (collect items body).outcome oracle = (collect items body').outcome oracle := by
  induction items with
  | nil => rfl
  | cons a rest ih =>
    have hrest := ih fun b hb => h b (List.mem_cons_of_mem a hb)
    rw [outcome_collect_cons, outcome_collect_cons, h a List.mem_cons_self, hrest]

/-- A loop that has an outcome has one wherever its body does less. -/
theorem outcome_collect_sublist
    (h : ∀ a ∈ items, ∀ found', (body' a).outcome oracle = .ok found' →
      ∃ found, (body a).outcome oracle = .ok found ∧ found.Sublist found')
    {found' : List β} (hfound' : (collect items body').outcome oracle = .ok found') :
    ∃ found, (collect items body).outcome oracle = .ok found ∧ found.Sublist found' := by
  induction items generalizing found' with
  | nil =>
    cases hfound'
    exact ⟨[], rfl, List.Sublist.refl []⟩
  | cons a rest ih =>
    rw [outcome_collect_cons] at hfound'
    cases ha : (body' a).outcome oracle with
    | error e =>
      rw [ha] at hfound'
      cases hfound'
    | ok first' =>
      rw [ha] at hfound'
      cases hrest : (collect rest body').outcome oracle with
      | error e =>
        rw [hrest] at hfound'
        cases hfound'
      | ok more' =>
        rw [hrest] at hfound'
        cases hfound'
        obtain ⟨first, hfirst, hsub⟩ := h a List.mem_cons_self first' ha
        obtain ⟨more, hmore, hsub'⟩ :=
          ih (fun b hb => h b (List.mem_cons_of_mem a hb)) hrest
        have hboth : (collect (a :: rest) body).outcome oracle = .ok (first ++ more) := by
          rw [outcome_collect_cons, hfirst, hmore]
          rfl
        exact ⟨first ++ more, hboth, hsub.append hsub'⟩

end Collect

end Action

end Framework
