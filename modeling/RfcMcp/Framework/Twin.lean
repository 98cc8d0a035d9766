import RfcMcp.Framework.Runs

namespace Framework

variable {S : Signature} {ε α β α' β' : Type}

/-- Two sequences of inputs agree as far as both go. -/
def Agree {ι : Type} (l l' : List ι) : Prop := l <+: l' ∨ l' <+: l

section Agree

variable {ι : Type} {a a' b b' : List ι}

theorem Agree.first (h : Agree (a ++ b) (a' ++ b')) : Agree a a' := by
  have ha := List.prefix_append a b
  have ha' := List.prefix_append a' b'
  cases h with
  | inl h => exact List.prefix_or_prefix_of_prefix (ha.trans h) ha'
  | inr h => exact List.prefix_or_prefix_of_prefix ha (ha'.trans h)

theorem Agree.rest (h : Agree (a ++ b) (a ++ b')) : Agree b b' :=
  h.imp (List.prefix_append_right_inj a).mp (List.prefix_append_right_inj a).mp

theorem Agree.head {i i' : ι} (h : Agree (i :: b) (i' :: b')) : i = i' := by
  cases h with
  | inl h => exact (List.cons_prefix_cons.mp h).1
  | inr h => exact (List.cons_prefix_cons.mp h).1.symm

end Agree

/-- What is compared in two runs: the inputs they get on each channel, the outputs they make, and
what is assumed of the two programs and what they do besides, part by part. -/
structure Pairing (S : Signature) where
  Channel : Type
  Input : Channel → Type
  Output : Type
  inputs : (i : Channel) → (o : S.Op) → S.Res o → List (Input i)
  outputs : (o : S.Op) → S.Res o → List Output
  Same : {α β : Type} → Program S α → Trace S → Program S β → Trace S → Prop
  front : ∀ {α β α' β' : Type} {p : Program S α} {q : Program S β} {f : α → Program S α'}
    {g : β → Program S β'} {first first' second second' : Trace S},
    Same (p.bind f) (first ++ second) (q.bind g) (first' ++ second') → Same p first q first'
  rest : ∀ {α β α' β' : Type} {p : Program S α} {q : Program S β} {f : α → Program S α'}
    {g : β → Program S β'} {first first' second second' : Trace S} {a : α} {b : β},
    Same (p.bind f) (first ++ second) (q.bind g) (first' ++ second') → p.Replays first a →
      q.Replays first' b → Same (f a) second (g b) second'

namespace Pairing

variable (W : Pairing S)

def inputsOf (i : W.Channel) (trace : Trace S) : List (W.Input i) :=
  trace.flatMap fun did => W.inputs i did.1 did.2

def outputsOf (trace : Trace S) : List W.Output := trace.flatMap fun did => W.outputs did.1 did.2

@[simp] theorem inputsOf_append (i : W.Channel) (trace trace' : Trace S) :
    W.inputsOf i (trace ++ trace') = W.inputsOf i trace ++ W.inputsOf i trace' :=
  List.flatMap_append

@[simp] theorem outputsOf_append (trace trace' : Trace S) :
    W.outputsOf (trace ++ trace') = W.outputsOf trace ++ W.outputsOf trace' := List.flatMap_append

@[simp] theorem inputsOf_single (i : W.Channel) (did : Σ o, S.Res o) :
    W.inputsOf i [did] = W.inputs i did.1 did.2 := List.flatMap_singleton ..

@[simp] theorem outputsOf_single (did : Σ o, S.Res o) :
    W.outputsOf [did] = W.outputs did.1 did.2 := List.flatMap_singleton ..

end Pairing

variable {Y : System S} (W : Pairing S) (t : ℕ)

/-- The two runs have had the same inputs and made the same outputs. -/
structure Pairing.Matches (trace trace' : Trace S) : Prop where
  inputs : ∀ i, W.inputsOf i trace = W.inputsOf i trace'
  outputs : W.outputsOf trace = W.outputsOf trace'

/-- The two runs have had the same inputs as far as both go. -/
def Pairing.Agrees (trace trace' : Trace S) : Prop :=
  ∀ i, Agree (W.inputsOf i trace) (W.inputsOf i trace')

section Parts

variable {W} {first first' second second' : Trace S}

theorem Pairing.Agrees.front (h : W.Agrees (first ++ second) (first' ++ second')) :
    W.Agrees first first' := by
  intro i
  have hi := h i
  rw [W.inputsOf_append, W.inputsOf_append] at hi
  exact hi.first

theorem Pairing.Agrees.rest (h : W.Agrees (first ++ second) (first' ++ second'))
    (hfirst : W.Matches first first') : W.Agrees second second' := by
  intro i
  have hi := h i
  rw [W.inputsOf_append, W.inputsOf_append, hfirst.inputs i] at hi
  exact hi.rest

theorem Pairing.Matches.append (hfirst : W.Matches first first')
    (hsecond : W.Matches second second') : W.Matches (first ++ second) (first' ++ second') := by
  constructor
  · intro i
    rw [W.inputsOf_append, W.inputsOf_append, hfirst.inputs i, hsecond.inputs i]
  · rw [W.outputsOf_append, W.outputsOf_append, hfirst.outputs, hsecond.outputs]

end Parts

/-- Run alone from states that `pre` relates, on the same inputs as far as they go, `p` and `q` make
the same outputs, and `post` relates what they come to. -/
def Twin (pre : Y.Shared → Y.Shared → Prop) (p : Program S α) (q : Program S β)
    (post : α → β → Y.Shared → Y.Shared → Prop) : Prop :=
  ∀ s s' trace trace' a b d d', pre s s' → Runs Y t s p trace a d → Runs Y t s' q trace' b d' →
    W.Agrees trace trace' → W.Same p trace q trace' →
      W.Matches trace trace' ∧ post a b d d'

variable {W t} {pre : Y.Shared → Y.Shared → Prop}

theorem twin_ret {a : α} {b : β} {post : α → β → Y.Shared → Y.Shared → Prop}
    (h : ∀ s s', pre s s' → post a b s s') : Twin W t pre (.ret a) (.ret b) post := by
  intro s s' trace trace' _ _ d d' hpre hrun hrun' _ _
  obtain ⟨rfl, rfl, rfl⟩ := runs_ret hrun
  obtain ⟨rfl, rfl, rfl⟩ := runs_ret hrun'
  exact ⟨⟨fun _ => rfl, rfl⟩, h _ _ hpre⟩

theorem Twin.mono {p : Program S α} {q : Program S β} {pre' : Y.Shared → Y.Shared → Prop}
    {post post' : α → β → Y.Shared → Y.Shared → Prop} (h : Twin W t pre p q post)
    (hpre : ∀ s s', pre' s s' → pre s s') (hpost : ∀ a b s s', post a b s s' → post' a b s s') :
    Twin W t pre' p q post' := by
  intro s s' trace trace' a b d d' hs hrun hrun' hagree hsame
  have hboth := h s s' trace trace' a b d d' (hpre s s' hs) hrun hrun' hagree hsame
  exact ⟨hboth.1, hpost a b d d' hboth.2⟩

/-- What `pre` says whatever the states are is at hand. -/
theorem twin_fact {φ : Prop} {p : Program S α} {q : Program S β}
    {post : α → β → Y.Shared → Y.Shared → Prop} (h : φ → Twin W t pre p q post) :
    Twin W t (fun s s' => φ ∧ pre s s') p q post := by
  intro s s' trace trace' a b d d' hpre
  exact h hpre.1 s s' trace trace' a b d d' hpre.2

/-- Sequencing: the first parts match, so that the second parts begin on the same inputs. -/
theorem twin_program {p : Program S α} {q : Program S β} {f : α → Program S α'}
    {g : β → Program S β'} {mid : α → β → Y.Shared → Y.Shared → Prop}
    {post : α' → β' → Y.Shared → Y.Shared → Prop} (hfirst : Twin W t pre p q mid)
    (hsecond : ∀ a b, Twin W t (mid a b) (f a) (g b) post) :
    Twin W t pre (p.bind f) (q.bind g) post := by
  intro s s' trace trace' a b d d' hpre hrun hrun' hagree hsame
  obtain ⟨first, x, s₁, second, rfl, hp, hf⟩ := runs_bind hrun
  obtain ⟨first', y, s₁', second', rfl, hq, hg⟩ := runs_bind hrun'
  have hone := hfirst s s' first first' x y s₁ s₁' hpre hp hq hagree.front (W.front hsame)
  obtain ⟨hmatches, hmid⟩ := hone
  have htwo := hsecond x y s₁ s₁' second second' a b d d' hmid hf hg (hagree.rest hmatches)
    (W.rest hsame hp.replays hq.replays)
  exact ⟨hmatches.append htwo.1, htwo.2⟩

section Actions

/-- Both return, related by `ok`, or both raise, related by `err`. -/
def Both (ok : α → β → Y.Shared → Y.Shared → Prop) (err : ε → ε → Y.Shared → Y.Shared → Prop) :
    Except ε α → Except ε β → Y.Shared → Y.Shared → Prop
  | .ok a, .ok b => ok a b
  | .error e, .error e' => err e e'
  | _, _ => fun _ _ => False

variable {ok : α → β → Y.Shared → Y.Shared → Prop} {err : ε → ε → Y.Shared → Y.Shared → Prop}
  {ok' : α' → β' → Y.Shared → Y.Shared → Prop} {x : Action S ε α} {y : Action S ε β}

theorem Twin.weaken {ok₁ : α → β → Y.Shared → Y.Shared → Prop}
    {err₁ : ε → ε → Y.Shared → Y.Shared → Prop}
    (h : Twin W t pre x y (Both ok err)) (hok : ∀ a b s s', ok a b s s' → ok₁ a b s s')
    (herr : ∀ e e' s s', err e e' s s' → err₁ e e' s s') : Twin W t pre x y (Both ok₁ err₁) := by
  refine h.mono (fun _ _ hs => hs) fun r r' s s' hpost => ?_
  cases r with
  | ok a =>
    cases r' with
    | ok b => exact hok a b s s' hpost
    | error e' => exact hpost
  | error e =>
    cases r' with
    | ok b => exact hpost
    | error e' => exact herr e e' s s' hpost

theorem twin_outcome {f : Except ε α → Program S α'} {g : Except ε β → Program S β'}
    {post : α' → β' → Y.Shared → Y.Shared → Prop} (hfirst : Twin W t pre x y (Both ok err))
    (hok : ∀ a b, Twin W t (ok a b) (f (.ok a)) (g (.ok b)) post)
    (herr : ∀ e e', Twin W t (err e e') (f (.error e)) (g (.error e')) post) :
    Twin W t pre (Program.bind x f) (Program.bind y g) post := by
  refine twin_program hfirst fun r r' => ?_
  cases r with
  | ok a =>
    cases r' with
    | ok b => exact hok a b
    | error e' => exact fun _ _ _ _ _ _ _ _ hfalse => hfalse.elim
  | error e =>
    cases r' with
    | ok b => exact fun _ _ _ _ _ _ _ _ hfalse => hfalse.elim
    | error e' => exact herr e e'

theorem twin_pure {a : α} {b : β} (h : ∀ s s', pre s s' → ok a b s s') :
    Twin W t pre (pure a : Action S ε α) (pure b : Action S ε β) (Both ok err) :=
  twin_ret h

theorem twin_raise {e e' : ε} (h : ∀ s s', pre s s' → err e e' s s') :
    Twin W t pre (Action.raise e : Action S ε α) (Action.raise e' : Action S ε β) (Both ok err) :=
  twin_ret h

theorem twin_ofExcept {r : Except ε α} {r' : Except ε β}
    (h : ∀ s s', pre s s' → Both ok err r r' s s') :
    Twin W t pre (Action.ofExcept r) (Action.ofExcept r') (Both ok err) :=
  twin_ret h

theorem twin_perform {o o' : S.Op} {ok : S.Res o → S.Res o' → Y.Shared → Y.Shared → Prop}
    (h : ∀ s s' ch ch' v v' d d', pre s s' → Y.perform t o ch s = some (v, d) →
      Y.perform t o' ch' s' = some (v', d') → (∀ i, Agree (W.inputs i o v) (W.inputs i o' v')) →
        (∀ i, W.inputs i o v = W.inputs i o' v') ∧ W.outputs o v = W.outputs o' v' ∧ ok v v' d d') :
    Twin W t pre (Action.perform o : Action S ε _) (Action.perform o') (Both ok err) := by
  intro s s' trace trace' r r' d d' hpre hrun hrun' hagree _
  obtain ⟨v, ch, rfl, rfl, hperform⟩ := runs_perform hrun
  obtain ⟨v', ch', rfl, rfl, hperform'⟩ := runs_perform hrun'
  have hsingle : ∀ i, Agree (W.inputs i o v) (W.inputs i o' v') := by
    intro i
    have hi := hagree i
    rw [W.inputsOf_single, W.inputsOf_single] at hi
    exact hi
  obtain ⟨hinputs, houtputs, hok⟩ := h s s' ch ch' v v' d d' hpre hperform hperform' hsingle
  refine ⟨⟨fun i => ?_, ?_⟩, hok⟩
  · rw [W.inputsOf_single, W.inputsOf_single, hinputs i]
  · rw [W.outputsOf_single, W.outputsOf_single, houtputs]

theorem twin_bind {f : α → Action S ε α'} {g : β → Action S ε β'}
    (hfirst : Twin W t pre x y (Both ok err))
    (hsecond : ∀ a b, Twin W t (ok a b) (f a) (g b) (Both ok' err)) :
    Twin W t pre (x >>= f : Action S ε α') (y >>= g : Action S ε β') (Both ok' err) :=
  twin_outcome hfirst hsecond fun _ _ => twin_ret fun _ _ h => h

theorem twin_tryExcept {handler handler' : ε → Action S ε _}
    {err' : ε → ε → Y.Shared → Y.Shared → Prop} (hfirst : Twin W t pre x y (Both ok err))
    (hhandler : ∀ e e', Twin W t (err e e') (handler e) (handler' e') (Both ok err')) :
    Twin W t pre (x.tryExcept handler) (y.tryExcept handler') (Both ok err') :=
  twin_outcome hfirst (fun _ _ => twin_ret fun _ _ h => h) hhandler

theorem twin_tryFinally {last last' : Action S ε Unit} (hfirst : Twin W t pre x y (Both ok err))
    (hok : ∀ a b, Twin W t (ok a b) last last' (Both (fun _ _ => ok a b) err))
    (herr : ∀ e e', Twin W t (err e e') last last' (Both (fun _ _ => err e e') err)) :
    Twin W t pre (x.tryFinally last) (y.tryFinally last') (Both ok err) := by
  refine twin_outcome hfirst (fun a b => ?_) fun e e' => ?_
  · exact twin_outcome (hok a b) (fun _ _ => twin_ret fun _ _ h => h)
      fun _ _ => twin_ret fun _ _ h => h
  · exact twin_outcome (herr e e') (fun _ _ => twin_ret fun _ _ h => h)
      fun _ _ => twin_ret fun _ _ h => h

end Actions

section Lockstep

/-- From one state, on the same inputs, `p` always does the same. -/
def Lockstep (Y : System S) (W : Pairing S) (t : ℕ) (p : Program S α) : Prop :=
  Twin (Y := Y) W t (· = ·) p p fun a b s s' => a = b ∧ s = s'

/-- Nothing but the inputs decides what `o` comes to. -/
def Determined (Y : System S) (W : Pairing S) (t : ℕ) (o : S.Op) : Prop :=
  ∀ s ch ch' v v' d d', Y.perform t o ch s = some (v, d) → Y.perform t o ch' s = some (v', d') →
    (∀ i, Agree (W.inputs i o v) (W.inputs i o v')) → v = v' ∧ d = d'

theorem lockstep_ret (a : α) : Lockstep Y W t (.ret a) := twin_ret fun _ _ h => ⟨rfl, h⟩

theorem lockstep_program {p : Program S α} {f : α → Program S β} (hp : Lockstep Y W t p)
    (hf : ∀ a, Lockstep Y W t (f a)) : Lockstep Y W t (p.bind f) := by
  refine twin_program hp fun a b => ?_
  intro s s' trace trace' x y d d' hpre
  obtain ⟨rfl, hs⟩ := hpre
  exact hf a s s' trace trace' x y d d' hs

theorem lockstep_bind {x : Action S ε α} {f : α → Action S ε β} (hx : Lockstep Y W t x)
    (hf : ∀ a, Lockstep Y W t (f a)) : Lockstep Y W t (x >>= f : Action S ε β) := by
  refine lockstep_program hx fun r => ?_
  cases r with
  | ok a => exact hf a
  | error e => exact lockstep_ret _

theorem lockstep_tryExcept {x : Action S ε α} {handler : ε → Action S ε α}
    (hx : Lockstep Y W t x) (hhandler : ∀ e, Lockstep Y W t (handler e)) :
    Lockstep Y W t (x.tryExcept handler) := by
  refine lockstep_program hx fun r => ?_
  cases r with
  | ok a => exact lockstep_ret _
  | error e => exact hhandler e

theorem lockstep_tryFinally {x : Action S ε α} {last : Action S ε Unit}
    (hx : Lockstep Y W t x) (hlast : Lockstep Y W t last) :
    Lockstep Y W t (x.tryFinally last) := by
  refine lockstep_program hx fun r => lockstep_program hlast fun r' => ?_
  cases r' <;> exact lockstep_ret _

theorem lockstep_forEach {items : List α} {body : α → Action S ε Unit}
    (hbody : ∀ a, Lockstep Y W t (body a)) : Lockstep Y W t (Action.forEach items body) := by
  induction items with
  | nil => exact lockstep_ret _
  | cons a rest ih => exact lockstep_bind (hbody a) fun _ => ih

theorem lockstep_call {o : S.Op} {next : S.Res o → Program S α} (ho : Determined Y W t o)
    (hnext : ∀ v, Lockstep Y W t (next v)) : Lockstep Y W t (.call o next) := by
  intro s s' trace trace' a a' d d' hpre hrun hrun' hagree hsame
  subst hpre
  cases hrun with
  | @call _ s₁ _ _ _ ch v rest _ hperform hrest =>
    cases hrun' with
    | @call _ s₁' _ _ _ ch' v' rest' _ hperform' hrest' =>
      have hsplit : W.Agrees ([⟨o, v⟩] ++ rest) ([⟨o, v'⟩] ++ rest') := hagree
      have hsingle : ∀ i, Agree (W.inputs i o v) (W.inputs i o v') := by
        intro i
        have hi := hsplit.front i
        rw [W.inputsOf_single, W.inputsOf_single] at hi
        exact hi
      obtain ⟨rfl, rfl⟩ := ho s ch ch' v v' _ _ hperform hperform' hsingle
      have hfirst : W.Matches [⟨o, v⟩] [⟨o, v⟩] := ⟨fun _ => rfl, rfl⟩
      have hperformed : (Program.call o .ret : Program S (S.Res o)).Replays [⟨o, v⟩] v :=
        .call (.ret v)
      have hparts : W.Same ((Program.call o .ret : Program S (S.Res o)).bind next)
          ([⟨o, v⟩] ++ rest) ((Program.call o .ret : Program S (S.Res o)).bind next)
          ([⟨o, v⟩] ++ rest') := hsame
      have hrestSame : W.Same (next v) rest (next v) rest' := W.rest hparts hperformed hperformed
      have hboth := hnext v s₁ s₁ rest rest' a a' d d' rfl hrest hrest' (hsplit.rest hfirst)
        hrestSame
      exact ⟨hfirst.append hboth.1, hboth.2⟩

/-- A program of such operations. -/
theorem lockstep_only {good : S.Op → Prop} (hgood : ∀ o, good o → Determined Y W t o)
    {p : Program S α} (hp : p.Only good) : Lockstep Y W t p := by
  induction p with
  | ret a => exact lockstep_ret a
  | call o next ih => exact lockstep_call (hgood o hp.1) fun v => ih v (hp.2 v)

theorem Lockstep.both {x : Action S ε α} (h : Lockstep Y W t x) :
    Twin (Y := Y) W t (· = ·) x x
      (Both (fun a b s s' => a = b ∧ s = s') fun e e' s s' => e = e' ∧ s = s') := by
  refine Twin.mono h (fun _ _ hs => hs) fun r r' s s' hpost => ?_
  obtain ⟨rfl, hs⟩ := hpost
  cases r with
  | ok a => exact ⟨rfl, hs⟩
  | error e => exact ⟨rfl, hs⟩

end Lockstep

end Framework
