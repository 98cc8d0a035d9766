import RfcMcp.Framework.Accounts
import RfcMcp.Framework.Oracle
import RfcMcp.Framework.Replay

namespace Framework

open Protocol

variable {S : Signature} {ε α β γ δ : Type}

/-- Two results that fit together, or two errors that do. -/
inductive Corresponds (E : ε → ε → Prop) (R : α → β → Prop) : Except ε α → Except ε β → Prop
  | ok {a : α} {b : β} (h : R a b) : Corresponds E R (.ok a) (.ok b)
  | error {e e' : ε} (h : E e e') : Corresponds E R (.error e) (.error e')

theorem corresponds_refl {E : ε → ε → Prop} (hE : ∀ e, E e e) (r : Except ε α) :
    Corresponds E Eq r r := by
  cases r with
  | ok a => exact .ok rfl
  | error e => exact .error (hE e)

theorem Corresponds.mono {E E' : ε → ε → Prop} {R R' : α → β → Prop} {r : Except ε α}
    {r' : Except ε β} (h : Corresponds E R r r') (hE : ∀ e e', E e e' → E' e e')
    (hR : ∀ a b, R a b → R' a b) : Corresponds E' R' r r' := by
  cases h with
  | ok h => exact .ok (hR _ _ h)
  | error h => exact .error (hE _ _ h)

/-- What surrounds an action: its answers may have been honest, and there may have been trouble.
Whoever is `lax` may go on after trouble, all others raise. -/
structure Surroundings (S : Signature) where
  honest : Trace S → Prop
  honest_tail : ∀ did trace, honest (did :: trace) → honest trace
  troubled : Trace S → Prop
  troubled_enduring : Enduring troubled
  lax : Prop

namespace Surroundings

variable (K : Surroundings S)

/-- There has been trouble that `r` may come from. -/
def Excuses (r : Except ε α) (trace : Trace S) : Prop :=
  K.troubled trace ∧ (K.lax ∨ ∃ e, r = .error e)

/-- If all has been honest, `r` is as it should be, or there is an excuse. -/
def Fits (E : ε → ε → Prop) (R : α → β → Prop) (r' : Except ε β) (r : Except ε α)
    (trace : Trace S) : Prop :=
  K.honest trace → Corresponds E R r r' ∨ K.Excuses r trace

/-- In these surroundings `x` comes to `r`. -/
def Mirrors (E : ε → ε → Prop) (R : α → β → Prop) (x : Action S ε α) (r : Except ε β) : Prop :=
  Accounts (fun e => K.Fits E R r (.error e)) (fun _ => True) x fun a => K.Fits E R r (.ok a)

/-- `x` comes to what it comes to when the oracle answers. -/
abbrev Conforms (oracle : (o : S.Op) → S.Res o) (E : ε → ε → Prop) (x : Action S ε α) : Prop :=
  K.Mirrors E Eq x (x.outcome oracle)

section Rules

variable {K} {E E' : ε → ε → Prop} {R R' : α → β → Prop} {r' : Except ε β} {x : Action S ε α}

theorem fits_enduring (r : Except ε α) : Enduring (K.Fits E R r' r) := by
  intro did trace hfits hhonest
  rcases hfits (K.honest_tail did trace hhonest) with hsame | ⟨htrouble, hmay⟩
  · exact .inl hsame
  · exact .inr ⟨K.troubled_enduring did trace htrouble, hmay⟩

theorem Mirrors.mono (h : K.Mirrors E R x r') (hE : ∀ e e', E e e' → E' e e')
    (hR : ∀ a b, R a b → R' a b) : K.Mirrors E' R' x r' := by
  have hfits : ∀ (r : Except ε α) trace, K.Fits E R r' r trace → K.Fits E' R' r' r trace := by
    intro r trace hfits hhonest
    exact (hfits hhonest).imp (fun hsame => hsame.mono hE hR) fun hexcuse => hexcuse
  exact (h.weaken (fun _ _ => trivial) fun a => hfits (.ok a)).causes fun e => hfits (.error e)

/-- What agrees to the letter agrees all the more. -/
theorem Mirrors.of_eq (h : K.Mirrors Eq R x r') (hE : ∀ e, E e e) : K.Mirrors E R x r' := by
  refine h.mono (fun e e' he => ?_) fun _ _ hR => hR
  rw [he]
  exact hE e'

theorem mirrors_ofExcept {r : Except ε α} (h : Corresponds E R r r') :
    K.Mirrors E R (Action.ofExcept r) r' := by
  refine accounts_ofExcept (fun a trace hr _ _ => ?_) fun e trace hr _ _ => ?_
  · exact .inl (hr ▸ h)
  · exact .inl (hr ▸ h)

theorem mirrors_pure {a : α} {b : β} (h : R a b) : K.Mirrors E R (pure a) (.ok b) :=
  mirrors_ofExcept (.ok h)

theorem mirrors_raise {e e' : ε} (h : E e e') : K.Mirrors E R (Action.raise e) (.error e') :=
  mirrors_ofExcept (.error h)

/-- What raises only in trouble, and returns only what fits. -/
theorem mirrors_of_accounts {b : β}
    (h : Accounts (fun _ trace => K.honest trace → K.troubled trace) (fun _ => True) x
      fun a trace => K.honest trace → R a b) : K.Mirrors E R x (.ok b) := by
  refine (h.weaken (fun _ _ => trivial) fun a trace hR hhonest => ?_).causes
    fun e trace htrouble hhonest => ?_
  · exact .inl (.ok (hR hhonest))
  · exact .inr ⟨htrouble hhonest, .inr ⟨e, rfl⟩⟩

theorem mirrors_silent {b : β} (hx : Silent x) (hR : ∀ a, R a b) : K.Mirrors E R x (.ok b) := by
  refine mirrors_of_accounts ((hx.causes fun _ _ hfalse => hfalse.elim).weaken
    (fun _ h => h) fun a trace _ _ => hR a)

/-- Only the lax go on with something else than what should be there. -/
theorem lax_of_unlike {r : Except ε α} {trace : Trace S} (h : K.Fits E R r' r trace)
    (hunlike : ¬ Corresponds E R r r') (hok : ∃ a, r = .ok a) (hhonest : K.honest trace) :
    K.troubled trace ∧ K.lax := by
  obtain ⟨a, rfl⟩ := hok
  rcases h hhonest with hsame | ⟨htrouble, hlax | ⟨e, he⟩⟩
  · exact absurd hsame hunlike
  · exact ⟨htrouble, hlax⟩
  · cases he

/-- After trouble the lax may do whatever they do. -/
theorem mirrors_excused (x : Action S ε α) : Accounts (fun e => K.Fits E R r' (.error e))
    (fun trace => K.honest trace → K.troubled trace ∧ K.lax) x fun a => K.Fits E R r' (.ok a) := by
  intro trace hexcused
  have henduring : Enduring fun trace => K.honest trace → K.troubled trace ∧ K.lax := by
    intro did trace h hhonest
    obtain ⟨htrouble, hlax⟩ := h (K.honest_tail did trace hhonest)
    exact ⟨K.troubled_enduring did trace htrouble, hlax⟩
  have hkeeps : observing.Keeps (fun trace => K.honest trace → K.troubled trace ∧ K.lax) x :=
    keeps_tracing (fun _ _ _ => trivial) henduring x
  refine (hkeeps.meets trace hexcused).mono (fun a trace' h hhonest => ?_)
    fun e trace' h hhonest => ?_
  · obtain ⟨htrouble, hlax⟩ := h hhonest
    exact .inr ⟨htrouble, .inl hlax⟩
  · obtain ⟨htrouble, hlax⟩ := h hhonest
    exact .inr ⟨htrouble, .inl hlax⟩

theorem mirrors_bind {Q : γ → δ → Prop} {f : α → Action S ε γ} {k : β → Except ε δ}
    (hx : K.Mirrors E R x r') (hf : ∀ a b, R a b → K.Mirrors E Q (f a) (k b)) :
    K.Mirrors E Q (x >>= f) (r'.bind k) := by
  have hraised : ∀ e trace, K.Fits E R r' (.error e) trace →
      K.Fits E Q (r'.bind k) (.error e : Except ε γ) trace := by
    intro e trace hfits hhonest
    rcases hfits hhonest with hsame | ⟨htrouble, _⟩
    · cases hsame with
      | error h => exact .inl (.error h)
    · exact .inr ⟨htrouble, .inr ⟨e, rfl⟩⟩
  refine accounts_bind (hx.causes hraised) fun a => ?_
  by_cases hlike : Corresponds E R (.ok a) r'
  · cases hlike with
    | ok hR => exact (hf a _ hR).weaken (fun _ _ => trivial) fun _ _ h => h
  · -- the reference goes another way, so there has been trouble
    refine (mirrors_excused (f a)).weaken (fun trace hfits hhonest => ?_) fun _ _ h => h
    exact lax_of_unlike hfits hlike ⟨a, rfl⟩ hhonest

/-- What comes last returns what there is already. -/
theorem mirrors_finish {Q : γ → β → Prop} {f : α → Action S ε γ} (hx : K.Mirrors E R x r')
    (hf : ∀ a b, R a b → K.Mirrors E Q (f a) (.ok b)) : K.Mirrors E Q (x >>= f) r' := by
  have hsame : r' = r'.bind .ok := by cases r' <;> rfl
  rw [hsame]
  exact mirrors_bind hx hf

/-- What comes first raises nothing, and its result does not matter. -/
theorem mirrors_after {y : Action S ε γ} {f : γ → Action S ε α} (hy : Silent y)
    (hf : ∀ c, K.Mirrors E R (f c) r') : K.Mirrors E R (y >>= f) r' :=
  mirrors_bind (R := fun _ _ => True) (k := fun _ : Unit => r')
    (mirrors_silent (b := ()) hy fun _ => trivial) fun c _ _ => hf c

/-- A handler that notes the error and raises another one. -/
theorem mirrors_reraise {y : ε → Action S ε γ} {g : ε → ε} (hx : K.Mirrors E R x r')
    (hy : ∀ e, Silent (y e)) (hg : ∀ e e', E e e' → E' (g e) (g e')) :
    K.Mirrors E' R (x.tryExcept fun e => y e >>= fun _ => Action.raise (g e))
      (r'.mapError g) := by
  have hreturned : ∀ a trace, K.Fits E R r' (.ok a) trace →
      K.Fits E' R (r'.mapError g) (.ok a) trace := by
    intro a trace hfits hhonest
    rcases hfits hhonest with hsame | hexcuse
    · cases hsame with
      | ok h => exact .inl (.ok h)
    · exact .inr hexcuse
  have hraised : ∀ e trace, K.Fits E R r' (.error e : Except ε α) trace →
      K.Fits E' R (r'.mapError g) (.error (g e) : Except ε α) trace := by
    intro e trace hfits hhonest
    rcases hfits hhonest with hsame | ⟨htrouble, _⟩
    · cases hsame with
      | error h => exact .inl (.error (hg _ _ h))
    · exact .inr ⟨htrouble, .inr ⟨g e, rfl⟩⟩
  refine accounts_reraise (hx.weaken (fun _ _ => trivial) hreturned) hy hraised fun e => ?_
  exact fits_enduring _

/-- Who handles an error otherwise is lax. -/
theorem mirrors_recover {handler : ε → Action S ε α} {k : ε → Except ε β} (hlax : K.lax)
    (hx : K.Mirrors E R x r') (hhandler : ∀ e e', E e e' → K.Mirrors E' R (handler e) (k e')) :
    K.Mirrors E' R (x.tryExcept handler) (r'.tryCatch k) := by
  have hreturned : ∀ a trace, K.Fits E R r' (.ok a) trace →
      K.Fits E' R (r'.tryCatch k) (.ok a) trace := by
    intro a trace hfits hhonest
    rcases hfits hhonest with hsame | ⟨htrouble, _⟩
    · cases hsame with
      | ok h => exact .inl (.ok h)
    · exact .inr ⟨htrouble, .inl hlax⟩
  refine accounts_tryExcept (hx.weaken (fun _ _ => trivial) hreturned) fun e => ?_
  by_cases hlike : Corresponds E R (.error e : Except ε α) r'
  · cases hlike with
    | error hE => exact (hhandler e _ hE).weaken (fun _ _ => trivial) fun _ _ h => h
  · refine (mirrors_excused (handler e)).weaken (fun trace hfits hhonest => ?_) fun _ _ h => h
    exact ⟨((hfits hhonest).resolve_left hlike).1, hlax⟩

/-- What has been replayed from honest answers is as it should be. -/
theorem Mirrors.of_replays (h : K.Mirrors E R x r') {mid : Trace S} {r : Except ε α}
    (hreplays : Program.Replays x mid r) (hhonest : K.honest mid.reverse) :
    Corresponds E R r r' ∨ K.Excuses r mid.reverse := by
  have hfits := Protocol.Follows.of_replays (h [] trivial) hreplays
  rw [List.append_nil] at hfits
  cases r with
  | ok a => exact hfits hhonest
  | error e => exact hfits hhonest

/-- Who is not lax returns nothing else. -/
theorem Mirrors.returned {x : Action S ε β} (h : K.Mirrors E Eq x r') (hstrict : ¬K.lax)
    {mid : Trace S} {b : β} (hreplays : Program.Replays x mid (.ok b))
    (hhonest : K.honest mid.reverse) : r' = .ok b := by
  rcases h.of_replays hreplays hhonest with hsame | ⟨_, hlax | ⟨e, he⟩⟩
  · cases hsame with
    | ok hb => rw [hb]
  · exact absurd hlax hstrict
  · cases he

end Rules

section Oracle

variable {K} {oracle : (o : S.Op) → S.Res o} {E : ε → ε → Prop} {x : Action S ε α}

theorem conforms_bind {f : α → Action S ε β} (hx : K.Conforms oracle E x)
    (hf : ∀ a, K.Conforms oracle E (f a)) : K.Conforms oracle E (x >>= f) := by
  unfold Conforms
  rw [Action.outcome_bind]
  refine mirrors_bind hx fun a b hab => ?_
  rw [← hab]
  exact hf a

theorem conforms_ofExcept (hE : ∀ e, E e e) (r : Except ε α) :
    K.Conforms oracle E (Action.ofExcept r) :=
  mirrors_ofExcept (corresponds_refl hE r)

theorem conforms_silent {x : Action S ε Unit} (hx : Silent x) (hok : x.outcome oracle = .ok ()) :
    K.Conforms oracle E x := by
  unfold Conforms
  rw [hok]
  exact mirrors_silent hx fun _ => rfl

theorem conforms_ite {p : Prop} [Decidable p] {y : Action S ε α} (hx : p → K.Conforms oracle E x)
    (hy : ¬p → K.Conforms oracle E y) : K.Conforms oracle E (if p then x else y) := by
  by_cases hp : p
  · rw [if_pos hp]
    exact hx hp
  · rw [if_neg hp]
    exact hy hp

theorem conforms_collect {items : List α} {body : α → Action S ε (List β)}
    (hE : ∀ e, E e e) (hbody : ∀ a, K.Conforms oracle E (body a)) :
    K.Conforms oracle E (Action.collect items body) := by
  induction items with
  | nil => exact conforms_ofExcept hE (.ok [])
  | cons item items ih =>
    refine conforms_bind (hbody item) fun part => ?_
    exact conforms_bind ih fun parts => conforms_ofExcept hE (.ok (part ++ parts))

end Oracle

end Surroundings

end Framework
