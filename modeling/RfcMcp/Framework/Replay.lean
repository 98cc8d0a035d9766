import RfcMcp.Framework.Trace
import Mathlib.Data.List.Forall2

namespace Framework

variable {S : Signature} {ε α β : Type}

/-- With these answers the program ends with `a`. The oldest operation comes first. -/
inductive Program.Replays {α : Type} : Program S α → Trace S → α → Prop
  | ret (a : α) : Replays (.ret a) [] a
  | call {o : S.Op} {next : S.Res o → Program S α} {v : S.Res o} {mid : Trace S} {a : α}
      (h : Replays (next v) mid a) : Replays (.call o next) (⟨o, v⟩ :: mid) a

/-- Once `p` has done `before`, `q` is left to do. -/
inductive Program.Leaves {α : Type} : Program S α → Trace S → Program S α → Prop
  | here (p : Program S α) : Leaves p [] p
  | call {o : S.Op} {next : S.Res o → Program S α} {v : S.Res o} {before : Trace S}
      {q : Program S α} (h : Leaves (next v) before q) : Leaves (.call o next) (⟨o, v⟩ :: before) q

/-- In doing `trace`, `p` comes to where `x` is to be done, and `x` comes to `a`. All that is left
is looked at: a program that begins like `x` and goes on in another way does not count. -/
def Program.Passes (p : Program S β) (trace : Trace S) (x : Program S α) (a : α) : Prop :=
  ∃ before mid after rest, trace = before ++ (mid ++ after) ∧ p.Leaves before (x.bind rest) ∧
    x.Replays mid a

open Program

section Stages

variable {γ : Type} {p q : Program S α} {f : α → Program S β} {before first second : Trace S}
  {a : α} {x : Program S γ} {r : γ}

theorem Program.Leaves.bind (h : p.Leaves before q) (f : α → Program S β) :
    (p.bind f).Leaves before (q.bind f) := by
  induction h with
  | here p => exact .here _
  | call _ ih => exact .call ih

theorem Program.Replays.leads (hp : p.Replays first a) {rest : Program S β}
    (h : (f a).Leaves before rest) : (p.bind f).Leaves (first ++ before) rest := by
  induction hp with
  | ret a => exact h
  | call _ ih => exact .call (ih h)

theorem Program.Replays.passes (h : p.Replays first a) : p.Passes first p a := by
  refine ⟨[], first, [], .ret, by rw [List.nil_append, List.append_nil], ?_, h⟩
  rw [bind_ret]
  exact .here p

/-- What is passed in the first part is passed in the whole, -/
theorem Program.Passes.front (h : p.Passes first x r) (f : α → Program S β) (second : Trace S) :
    (p.bind f).Passes (first ++ second) x r := by
  obtain ⟨before, mid, after, rest, rfl, hleaves, hreplays⟩ := h
  refine ⟨before, mid, after ++ second, fun c => (rest c).bind f, ?_, ?_, hreplays⟩
  · simp only [List.append_assoc]
  · rw [← bind_assoc]
    exact hleaves.bind f

/-- and so is what is passed in the second part. -/
theorem Program.Passes.rest (h : (f a).Passes second x r) (hp : p.Replays first a) :
    (p.bind f).Passes (first ++ second) x r := by
  obtain ⟨before, mid, after, rest, rfl, hleaves, hreplays⟩ := h
  exact ⟨first ++ before, mid, after, rest, (List.append_assoc ..).symm, hp.leads hleaves, hreplays⟩

end Stages

theorem Program.Replays.only {good : S.Op → Prop} {p : Program S α} {trace : Trace S} {a : α}
    (h : p.Replays trace a) (hp : p.Only good) : ∀ did ∈ trace, good did.1 := by
  induction h with
  | ret a => exact fun _ hmem => absurd hmem List.not_mem_nil
  | call _ ih =>
    intro did hdid
    cases List.mem_cons.mp hdid with
    | inl hnow => rw [hnow]; exact hp.1
    | inr hlater => exact ih (hp.2 _) did hlater

section Rules

variable {guard : S.Op → Trace S → Prop} {good : S.Op → Prop}

/-- A program that may do all it does leaves behind a trace that it can be replayed from. -/
theorem Program.Only.follows_replays {p : Program S α} (hp : p.Only good)
    (hguard : ∀ o trace, good o → guard o trace) (trace : Trace S) :
    (tracing guard).Follows
      (fun a trace' => ∃ mid, p.Replays mid a ∧ trace' = mid.reverse ++ trace) p trace := by
  induction p generalizing trace with
  | ret a => exact ⟨[], .ret a, rfl⟩
  | call o next ih =>
    refine ⟨hguard o trace hp.1, fun v => ?_⟩
    refine Protocol.Follows.mono (ih v (hp.2 v) (⟨o, v⟩ :: trace)) fun a trace' h => ?_
    obtain ⟨mid, hreplays, htrace⟩ := h
    refine ⟨⟨o, v⟩ :: mid, .call hreplays, ?_⟩
    rw [htrace, List.reverse_cons, List.append_assoc]
    rfl

/-- What holds whenever the program ends holds of every replay. -/
theorem Protocol.Follows.of_replays {post : α → Trace S → Prop} {p : Program S α} {trace : Trace S}
    (h : (tracing guard).Follows post p trace) {mid : Trace S} {a : α}
    (hreplays : p.Replays mid a) : post a (mid.reverse ++ trace) := by
  induction hreplays generalizing trace with
  | ret a => exact h
  | @call o next v mid a _ ih =>
    have hrest := ih (h.2 v)
    rw [List.reverse_cons, List.append_assoc]
    exact hrest

theorem meets_replays {x : Action S ε α} (hx : Only good x)
    (hguard : ∀ o trace, good o → guard o trace) (trace : Trace S) :
    (tracing guard).Meets x
      (fun a trace' => ∃ mid, Replays x mid (.ok a) ∧ trace' = mid.reverse ++ trace)
      (fun e trace' => ∃ mid, Replays x mid (.error e) ∧ trace' = mid.reverse ++ trace) trace := by
  refine Protocol.Follows.mono (hx.follows_replays hguard trace) fun r trace' h => ?_
  cases r <;> exact h

end Rules

section Inversion

variable {mid : Trace S} {b : β}

theorem replays_program_bind {p : Program S α} {f : α → Program S β}
    (h : (p.bind f).Replays mid b) :
    ∃ a first rest, mid = first ++ rest ∧ p.Replays first a ∧ (f a).Replays rest b := by
  induction p generalizing mid with
  | ret a => exact ⟨a, [], mid, rfl, .ret a, h⟩
  | call o next ih =>
    cases h with
    | call h =>
      obtain ⟨a, first, rest, rfl, hp, hf⟩ := ih _ h
      exact ⟨a, ⟨o, _⟩ :: first, rest, rfl, .call hp, hf⟩

theorem replays_ofExcept {r r' : Except ε α}
    (h : Replays (Action.ofExcept r : Action S ε α) mid r') : mid = [] ∧ r = r' := by
  cases h
  exact ⟨rfl, rfl⟩

theorem replays_pure {a : α} {r : Except ε α} (h : Replays (pure a : Action S ε α) mid r) :
    mid = [] ∧ .ok a = r :=
  replays_ofExcept h

theorem replays_bind {x : Action S ε α} {f : α → Action S ε β}
    (h : Replays (x >>= f : Action S ε β) mid (.ok b)) :
    ∃ a first rest, mid = first ++ rest ∧ Replays x first (.ok a) ∧
      Replays (f a) rest (.ok b) := by
  obtain ⟨r, first, rest, hmid, hx, hf⟩ := replays_program_bind h
  cases r with
  | ok a => exact ⟨a, first, rest, hmid, hx, hf⟩
  | error e => cases hf

theorem replays_perform_bind {o : S.Op} {f : S.Res o → Action S ε β}
    (h : Replays (Action.perform o >>= f : Action S ε β) mid (.ok b)) :
    ∃ v rest, mid = ⟨o, v⟩ :: rest ∧ Replays (f v) rest (.ok b) := by
  cases h with
  | call h => exact ⟨_, _, rfl, h⟩

/-- What comes first has gone well, and so has what comes next. -/
theorem replays_ofExcept_bind {r : Except ε α} {f : α → Action S ε β}
    (h : Replays (Action.ofExcept r >>= f : Action S ε β) mid (.ok b)) :
    ∃ a, r = .ok a ∧ Replays (f a) mid (.ok b) := by
  obtain ⟨a, first, rest, rfl, hr, hf⟩ := replays_bind h
  obtain ⟨rfl, rfl⟩ := replays_ofExcept hr
  exact ⟨a, rfl, hf⟩

theorem not_replays_raise {e : ε} {a : α} :
    ¬ Replays (Action.raise e : Action S ε α) mid (.ok a) := by
  intro h
  cases h

theorem replays_tryExcept_cases {x : Action S ε α} {handler : ε → Action S ε α} {a : α}
    (h : Replays (x.tryExcept handler) mid (.ok a)) :
    Replays x mid (.ok a) ∨ ∃ e first rest, mid = first ++ rest ∧ Replays x first (.error e) ∧
      Replays (handler e) rest (.ok a) := by
  obtain ⟨r, first, rest, rfl, hx, hf⟩ := replays_program_bind h
  cases r with
  | ok a =>
    cases hf
    rw [List.append_nil]
    exact .inl hx
  | error e => exact .inr ⟨e, first, rest, rfl, hx, hf⟩

/-- A handler that raises in the end cannot have made anything go well. -/
theorem replays_tryExcept {x : Action S ε α} {handler : ε → Action S ε α} {a : α}
    (hraises : ∀ e mid, ¬ Replays (handler e) mid (.ok a))
    (h : Replays (x.tryExcept handler) mid (.ok a)) : Replays x mid (.ok a) := by
  rcases replays_tryExcept_cases h with hx | ⟨e, first, rest, _, _, hhandler⟩
  · exact hx
  · exact absurd hhandler (hraises e rest)

theorem not_replays_bind_raise {x : Action S ε β} {e : ε} {a : α} :
    ¬ Replays (x >>= fun _ => Action.raise e : Action S ε α) mid (.ok a) := by
  intro h
  obtain ⟨_, _, _, _, _, hraise⟩ := replays_bind h
  exact not_replays_raise hraise

/-- Each item has found its part. -/
theorem replays_collect {items : List α} {body : α → Action S ε (List β)} {found : List β}
    (h : Replays (Action.collect items body) mid (.ok found)) :
    ∃ parts, List.Forall₂ (fun item part => ∃ mid', mid' <:+: mid ∧
      Replays (body item) mid' (.ok part)) items parts ∧ found = parts.flatten := by
  induction items generalizing mid found with
  | nil =>
    cases h
    exact ⟨[], .nil, rfl⟩
  | cons item items ih =>
    obtain ⟨part, first, rest, rfl, hpart, h⟩ := replays_bind h
    obtain ⟨more, first', rest', rfl, hmore, h⟩ := replays_bind h
    obtain ⟨parts, hparts, rfl⟩ := ih hmore
    have hwithin : first' <:+: first ++ (first' ++ rest') :=
      ⟨first, rest', List.append_assoc first first' rest'⟩
    cases h
    refine ⟨part :: parts, .cons ⟨first, (List.prefix_append first _).isInfix, hpart⟩ ?_, rfl⟩
    refine hparts.imp fun item part h => ?_
    obtain ⟨mid', hmid', hreplays⟩ := h
    exact ⟨mid', hmid'.trans hwithin, hreplays⟩

end Inversion

end Framework
