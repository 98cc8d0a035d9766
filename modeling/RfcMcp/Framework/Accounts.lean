import RfcMcp.Framework.Replay

namespace Framework

open Protocol

variable {S : Signature} {ε α β : Type}

/-- The protocol that allows everything. -/
abbrev observing : Protocol S := tracing fun _ _ => True

/-- What is done later changes nothing. -/
abbrev Enduring (J : Trace S → Prop) : Prop := ∀ did trace, J trace → J (did :: trace)

/-- After `J`, `x` returns only with `Q`, and for every error it raises there is a cause `C`. -/
def Accounts (C : ε → Trace S → Prop) (J : Trace S → Prop) (x : Action S ε α)
    (Q : α → Trace S → Prop) : Prop :=
  ∀ trace, J trace → observing.Meets x Q C trace

/-- `x` raises nothing. -/
abbrev Silent (x : Action S ε α) : Prop :=
  Accounts (fun _ _ => False) (fun _ => True) x fun _ _ => True

section Rules

variable {C D : ε → Trace S → Prop} {J K : Trace S → Prop} {Q Q' : α → Trace S → Prop}
  {R : β → Trace S → Prop} {x : Action S ε α}

theorem Accounts.weaken (h : Accounts C J x Q) (hJ : ∀ trace, K trace → J trace)
    (hok : ∀ a trace, Q a trace → Q' a trace) : Accounts C K x Q' := by
  intro trace htrace
  exact (h trace (hJ trace htrace)).mono (fun a trace' hret => hok a trace' hret)
    fun e trace' hraised => hraised

theorem Accounts.causes (h : Accounts C J x Q)
    (hcause : ∀ e trace, C e trace → D e trace) : Accounts D J x Q := by
  intro trace htrace
  exact (h trace htrace).mono (fun a trace' hret => hret) fun e trace' hraised =>
    hcause e trace' hraised

/-- What endures and was there before is there afterwards. -/
theorem Accounts.frame (h : Accounts C J x Q) (hJ : ∀ trace, K trace → J trace)
    (henduring : Enduring K) : Accounts C K x fun a trace => Q a trace ∧ K trace := by
  intro trace htrace
  have hkeeps : observing.Keeps K x := keeps_tracing (fun _ _ _ => trivial) henduring x
  have hboth := meets_both (h trace (hJ trace htrace)) (hkeeps.meets trace htrace)
  exact hboth.mono (fun a trace' hret => hret) fun e trace' hraised => hraised.1

theorem accounts_pure {a : α} (h : ∀ trace, J trace → Q a trace) :
    Accounts C J (pure a : Action S ε α) Q := h

theorem accounts_raise {e : ε} (h : ∀ trace, J trace → C e trace) :
    Accounts C J (Action.raise e : Action S ε α) Q := h

theorem accounts_ofExcept {r : Except ε α} (hok : ∀ a trace, r = .ok a → J trace → Q a trace)
    (herr : ∀ e trace, r = .error e → J trace → C e trace) :
    Accounts C J (Action.ofExcept r) Q := by
  intro trace htrace
  rw [meets_ofExcept]
  exact ⟨fun a hr => hok a trace hr htrace, fun e hr => herr e trace hr htrace⟩

theorem accounts_perform {o : S.Op} {Q : S.Res o → Trace S → Prop}
    (h : ∀ v trace, J trace → Q v (⟨o, v⟩ :: trace)) :
    Accounts C J (Action.perform o : Action S ε _) Q :=
  fun trace htrace => traced_op trivial fun v => h v trace htrace

theorem accounts_bind {f : α → Action S ε β} (hx : Accounts C J x Q)
    (hf : ∀ a, Accounts C (Q a) (f a) R) : Accounts C J (x >>= f) R := by
  intro trace htrace
  rw [meets_bind]
  exact (hx trace htrace).mono (fun a trace' hret => hf a trace' hret) fun e trace' hraised =>
    hraised

theorem accounts_ite {p : Prop} [Decidable p] {y : Action S ε α} (hx : p → Accounts C J x Q)
    (hy : ¬p → Accounts C J y Q) : Accounts C J (if p then x else y) Q := by
  by_cases hp : p
  · rw [if_pos hp]
    exact hx hp
  · rw [if_neg hp]
    exact hy hp

/-- A silent action in front loses nothing that endures. -/
theorem Silent.accounts_bind {f : α → Action S ε β} (hx : Silent x) (henduring : Enduring J)
    (hf : ∀ a, Accounts C J (f a) R) : Accounts C J (x >>= f) R := by
  have hframed := (hx.frame (fun _ _ => trivial) henduring).causes (D := C)
    fun _ _ hfalse => hfalse.elim
  refine Framework.accounts_bind hframed fun a => ?_
  exact (hf a).weaken (fun trace htrace => htrace.2) fun b trace hret => hret

theorem silent_perform {o : S.Op} : Silent (Action.perform o : Action S ε _) :=
  accounts_perform fun _ _ _ => trivial

theorem Silent.returns (hx : Silent x) {mid : Trace S} {r : Except ε α}
    (h : Program.Replays x mid r) : ∃ a, r = .ok a := by
  have hends := Follows.of_replays (hx [] trivial) h
  cases r with
  | ok a => exact ⟨a, rfl⟩
  | error e => exact hends.elim

/-- Whatever is raised can be replayed from what has been done. -/
theorem accounts_replays (x : Action S ε α) :
    Accounts (fun e trace => ∃ mid, Program.Replays x mid (.error e) ∧ mid.reverse <:+: trace)
      (fun _ => True) x fun _ _ => True := by
  intro trace _
  refine (meets_replays (Program.only_any x) (fun _ _ _ => trivial) trace).mono
    (fun _ _ _ => trivial) fun e trace' h => ?_
  obtain ⟨mid, hreplays, rfl⟩ := h
  exact ⟨mid, hreplays, (List.prefix_append mid.reverse trace).isInfix⟩

theorem silent_pure {a : α} : Silent (pure a : Action S ε α) := fun _ _ => trivial

theorem silent_bind {f : α → Action S ε β} (hx : Silent x) (hf : ∀ a, Silent (f a)) :
    Silent (x >>= f) :=
  accounts_bind hx hf

/-- The handler may count on the cause of the error. -/
theorem accounts_tryExcept {handler : ε → Action S ε α} (hx : Accounts C J x Q)
    (hhandler : ∀ e, Accounts D (C e) (handler e) Q) :
    Accounts D J (x.tryExcept handler) Q := by
  intro trace htrace
  rw [meets_tryExcept]
  exact (hx trace htrace).mono (fun a trace' hret => hret) fun e trace' hraised =>
    hhandler e trace' hraised

/-- A handler that raises another error in the end, for which there is a cause as well. -/
theorem accounts_reraise {y : ε → Action S ε β} {g : ε → ε} (hx : Accounts C J x Q)
    (hy : ∀ e, Silent (y e)) (hcause : ∀ e trace, C e trace → D (g e) trace)
    (henduring : ∀ e, Enduring (D (g e))) :
    Accounts D J (x.tryExcept fun e => y e >>= fun _ => Action.raise (g e)) Q := by
  refine accounts_tryExcept hx fun e => ?_
  have hhandler : Accounts D (D (g e)) (y e >>= fun _ => Action.raise (g e)) Q :=
    (hy e).accounts_bind (henduring e) fun _ => accounts_raise fun _ hg => hg
  exact hhandler.weaken (hcause e) fun _ _ hret => hret

theorem silent_tryExcept {handler : ε → Action S ε α}
    (hhandler : ∀ e, Silent (handler e)) : Silent (x.tryExcept handler) := by
  intro trace _
  rw [meets_tryExcept]
  have hx : observing.Keeps (fun _ => True) x :=
    keeps_tracing (fun _ _ _ => trivial) (fun _ _ _ => trivial) x
  exact (hx.meets trace trivial).mono (fun _ _ _ => trivial) fun e trace' _ =>
    hhandler e trace' trivial

theorem accounts_tryFinally {last : Action S ε Unit} (hx : Accounts C J x Q)
    (hlast : Silent last) (hok : ∀ a, Enduring (Q a)) (hcause : ∀ e, Enduring (C e)) :
    Accounts C J (x.tryFinally last) Q := by
  have hkeeps : ∀ {K : Trace S → Prop}, Enduring K → ∀ trace, K trace →
      observing.Meets last (fun _ => K) (fun _ _ => False) trace := by
    intro K hK trace htrace
    exact ((hlast.frame (fun _ _ => trivial) hK) trace htrace).mono (fun _ _ hret => hret.2)
      fun _ _ hraised => hraised
  intro trace htrace
  rw [meets_tryFinally]
  refine (hx trace htrace).mono (fun a trace' hret => ?_) fun e trace' hraised => ?_
  · exact (hkeeps (hok a) trace' hret).mono (fun _ _ h => h) fun _ _ hfalse => hfalse.elim
  · exact (hkeeps (hcause e) trace' hraised).mono (fun _ _ h => h) fun _ _ hfalse => hfalse.elim

theorem silent_tryFinally {last : Action S ε Unit} (hx : Silent x) (hlast : Silent last) :
    Silent (x.tryFinally last) :=
  accounts_tryFinally hx hlast (fun _ _ _ _ => trivial) fun _ _ _ hfalse => hfalse

theorem silent_forEach {items : List α} {body : α → Action S ε Unit}
    (hbody : ∀ a, Silent (body a)) : Silent (Action.forEach items body) := by
  induction items with
  | nil => exact silent_pure
  | cons item items ih => exact silent_bind (hbody item) fun _ => ih

theorem accounts_collect {items : List α} {body : α → Action S ε (List β)} (henduring : Enduring J)
    (hbody : ∀ a ∈ items, Accounts C J (body a) fun _ _ => True) :
    Accounts C J (Action.collect items body) fun _ _ => True := by
  have hframed : ∀ a ∈ items, Accounts C J (body a) fun _ => J := fun a ha =>
    ((hbody a ha).frame (fun _ h => h) henduring).weaken (fun _ h => h) fun _ _ hret => hret.2
  induction items with
  | nil => exact accounts_pure fun _ _ => trivial
  | cons item items ih =>
    have hrest := ih (fun a ha => hbody a (List.mem_cons_of_mem _ ha))
      fun a ha => hframed a (List.mem_cons_of_mem _ ha)
    refine accounts_bind (hframed item List.mem_cons_self) fun part => ?_
    exact accounts_bind hrest fun parts => accounts_pure fun _ _ => trivial

end Rules

end Framework
