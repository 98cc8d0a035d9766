import RfcMcp.Framework.Protocol
import Mathlib.Data.Nat.Notation
import Mathlib.Logic.Relation

namespace Framework

/-- Threads over one shared state. `perform t o ch s` is operation `o` of thread `t` when the
environment chooses `ch`; it is `none` while `o` is blocked or the choice does not fit it. -/
structure System (S : Signature) where
  Shared : Type
  Choice : Type
  Request : Type
  Reply : Type
  init : Shared
  perform : ℕ → (o : S.Op) → Choice → Shared → Option (S.Res o × Shared)
  program : Request → Program S Reply

/-- What a run leaves behind: a request began, or a thread got the answer `v` to `o`. -/
inductive Event (S : Signature) (Request : Type) : Type where
  | start (t : ℕ) (r : Request)
  | did (t : ℕ) (o : S.Op) (v : S.Res o)

namespace System

variable {S : Signature} (Y : System S)

/-- Threads are numbered by their place in `threads`; `history` has the newest event first. -/
structure Config where
  shared : Y.Shared
  threads : List (Y.Request × Program S Y.Reply)
  history : List (Event S Y.Request)

def initial : Y.Config := ⟨Y.init, [], []⟩

variable {Y}

def Config.spawn (c : Y.Config) (r : Y.Request) : Y.Config :=
  ⟨c.shared, c.threads ++ [(r, Y.program r)], .start c.threads.length r :: c.history⟩

/-- Thread `t` performs `o` and gets the answer `v`. -/
inductive Performs (c : Y.Config) (t : ℕ) (o : S.Op) (v : S.Res o) : Y.Config → Prop
  | mk {req : Y.Request} {next : S.Res o → Program S Y.Reply} {ch : Y.Choice} {s : Y.Shared}
      (hthread : c.threads[t]? = some (req, .call o next))
      (hperform : Y.perform t o ch c.shared = some (v, s)) :
      Performs c t o v ⟨s, c.threads.set t (req, next v), .did t o v :: c.history⟩

/-- One step of the system: a request arrives or some thread performs its next operation. -/
inductive Step (c : Y.Config) : Y.Config → Prop
  | start (r : Y.Request) : Step c (c.spawn r)
  | run {t : ℕ} {o : S.Op} {v : S.Res o} {c' : Y.Config} (h : Performs c t o v c') : Step c c'

/-- `c'` comes after `c` in some interleaving. -/
abbrev Leads : Y.Config → Y.Config → Prop := Relation.ReflTransGen Step

def Reachable (c : Y.Config) : Prop := Leads Y.initial c

theorem Reachable.step {c c' : Y.Config} (h : Reachable c) (hs : Step c c') : Reachable c' :=
  Relation.ReflTransGen.tail h hs

theorem Reachable.leads {c c' : Y.Config} (h : Reachable c) (hs : Leads c c') : Reachable c' :=
  Relation.ReflTransGen.trans h hs

/-- The induction principle for invariants: requests may arrive, threads may perform. -/
theorem Reachable.induction {I : Y.Config → Prop} (hinit : I Y.initial)
    (hspawn : ∀ c r, Reachable c → I c → I (c.spawn r))
    (hrun : ∀ c t o v c', Reachable c → I c → Performs c t o v c' → I c')
    {c : Y.Config} (h : Reachable c) : I c := by
  induction h with
  | refl => exact hinit
  | tail hr hs ih =>
    cases hs with
    | start r => exact hspawn _ r hr ih
    | run hp => exact hrun _ _ _ _ _ hr ih hp

theorem history_suffix {c c' : Y.Config} (h : Leads c c') : c.history <:+ c'.history := by
  induction h with
  | refl => exact List.suffix_rfl
  | tail _ hs ih =>
    cases hs with
    | start r => exact ih.trans (List.suffix_cons _ _)
    | run hp => cases hp; exact ih.trans (List.suffix_cons _ _)

/-- Every past of a reachable configuration belongs to a configuration the run went through. -/
theorem Reachable.past {c : Y.Config} (h : Reachable c) {past : List (Event S Y.Request)}
    (hp : past <:+ c.history) : ∃ d, Reachable d ∧ Leads d c ∧ d.history = past := by
  induction h with
  | refl =>
    refine ⟨_, .refl, .refl, ?_⟩
    exact (List.suffix_nil.mp hp).symm
  | @tail b c hr hs ih =>
    have hc : past = c.history ∨ past <:+ b.history := by
      cases hs with
      | start r => exact List.suffix_cons_iff.mp hp
      | run hq => cases hq; exact List.suffix_cons_iff.mp hp
    rcases hc with rfl | hc
    · exact ⟨c, hr.tail hs, .refl, rfl⟩
    · obtain ⟨d, hd, hdb, he⟩ := ih hc
      exact ⟨d, hd, hdb.tail hs, he⟩

/-- An event of a run, with the configurations before and after it. -/
theorem Reachable.performed {c : Y.Config} (h : Reachable c)
    {later earlier : List (Event S Y.Request)} {t : ℕ} {o : S.Op} {v : S.Res o}
    (hh : c.history = later ++ .did t o v :: earlier) :
    ∃ b d, Reachable b ∧ Performs b t o v d ∧ Leads d c ∧ b.history = earlier ∧
      d.history = .did t o v :: earlier := by
  obtain ⟨d, hd, hlead, hpast⟩ := h.past ⟨later, hh.symm⟩
  cases hd with
  | refl => cases hpast
  | tail hb hs =>
    cases hs with
    | start r => cases hpast
    | run hp =>
      have hp' := hp
      cases hp with
      | mk hthread hperform =>
        cases hpast
        exact ⟨_, _, hb, hp', hlead, rfl, rfl⟩

/-- An event since `c`, with the configurations before and after it. -/
theorem Leads.performed {c d : Y.Config} (h : Leads c d) {later earlier : List (Event S Y.Request)}
    {t : ℕ} {o : S.Op} {v : S.Res o}
    (hh : d.history = later ++ .did t o v :: (earlier ++ c.history)) :
    ∃ b b', Leads c b ∧ Performs b t o v b' ∧ Leads b' d ∧ b.history = earlier ++ c.history := by
  induction h generalizing later with
  | refl =>
    have hlength := congrArg List.length hh
    simp only [List.length_append, List.length_cons] at hlength
    omega
  | @tail b d hlead hs ih =>
    cases later with
    | nil =>
      cases hs with
      | start r => cases hh
      | run hp =>
        have hp' := hp
        cases hp with
        | mk hthread hperform =>
          simp only [List.nil_append, List.cons.injEq] at hh
          obtain ⟨hevent, hpast⟩ := hh
          cases hevent
          exact ⟨b, _, hlead, hp', .refl, hpast⟩
    | cons ev later =>
      have hrest : b.history = later ++ .did t o v :: (earlier ++ c.history) := by
        cases hs with
        | start r => exact (List.cons.inj hh).2
        | run hp => cases hp; exact (List.cons.inj hh).2
      obtain ⟨b₀, b', hb, hp, hlead', hhistory⟩ := ih hrest
      exact ⟨b₀, b', hb, hp, hlead'.tail hs, hhistory⟩

section Execution

/-- A scheduler's decision, for running the system on given choices. -/
inductive Move (Y : System S) : Type where
  | start (r : Y.Request)
  | run (t : ℕ) (ch : Y.Choice)

def advance (c : Y.Config) : Move Y → Option Y.Config
  | .start r => some (c.spawn r)
  | .run t ch =>
    match c.threads[t]? with
    | some (req, .call o next) =>
      (Y.perform t o ch c.shared).map fun (v, s) =>
        ⟨s, c.threads.set t (req, next v), .did t o v :: c.history⟩
    | _ => none

def execute (c : Y.Config) : List (Move Y) → Option Y.Config
  | [] => some c
  | m :: ms => (advance c m).bind fun c' => execute c' ms

theorem advance_step {c c' : Y.Config} {m : Move Y} (h : advance c m = some c') : Step c c' := by
  cases m with
  | start r => cases h; exact .start r
  | run t ch =>
    simp only [advance] at h
    split at h
    · rename_i req o next hthread
      obtain ⟨⟨v, s⟩, hperform, rfl⟩ := Option.map_eq_some_iff.mp h
      exact .run (.mk hthread hperform)
    · cases h

theorem execute_leads {c c' : Y.Config} {ms : List (Move Y)} (h : execute c ms = some c') :
    Leads c c' := by
  induction ms generalizing c with
  | nil => cases h; exact .refl
  | cons m ms ih =>
    obtain ⟨d, hd, hrest⟩ := Option.bind_eq_some_iff.mp h
    exact (ih hrest).head (advance_step hd)

theorem execute_reachable {c : Y.Config} {ms : List (Move Y)}
    (h : execute Y.initial ms = some c) : Reachable c :=
  execute_leads h

/-- A scheduler's decision that keeps to a condition on the steps. -/
def permitted (ok : Y.Config → ℕ → S.Op → Bool) (c : Y.Config) : Move Y → Bool
  | .start _ => true
  | .run t _ =>
    match c.threads[t]? with
    | some (_, .call o _) => ok c t o
    | _ => true

def executeWhere (ok : Y.Config → ℕ → S.Op → Bool) (c : Y.Config) :
    List (Move Y) → Option Y.Config
  | [] => some c
  | m :: ms =>
    if permitted ok c m then (advance c m).bind fun c' => executeWhere ok c' ms else none

/-- Reachable by steps that all meet a condition on the configuration before them. -/
inductive ReachableWhere (ok : Y.Config → ℕ → S.Op → Bool) : Y.Config → Prop
  | init : ReachableWhere ok Y.initial
  | start {c : Y.Config} (h : ReachableWhere ok c) (r : Y.Request) : ReachableWhere ok (c.spawn r)
  | run {c c' : Y.Config} {t : ℕ} {o : S.Op} {v : S.Res o} (h : ReachableWhere ok c)
      (hok : ok c t o = true) (hp : Performs c t o v c') : ReachableWhere ok c'

theorem ReachableWhere.reachable {ok : Y.Config → ℕ → S.Op → Bool} {c : Y.Config}
    (h : ReachableWhere ok c) : Reachable c := by
  induction h with
  | init => exact .refl
  | start _ r ih => exact ih.step (.start r)
  | run _ _ hp ih => exact ih.step (.run hp)

/-- An event of such a run, with the configurations before and after it. -/
theorem ReachableWhere.performed {ok : Y.Config → ℕ → S.Op → Bool} {c : Y.Config}
    (h : ReachableWhere ok c) {later earlier : List (Event S Y.Request)} {t : ℕ} {o : S.Op}
    {v : S.Res o} (hh : c.history = later ++ .did t o v :: earlier) :
    ∃ b d, ReachableWhere ok b ∧ Performs b t o v d ∧ ReachableWhere ok d ∧
      b.history = earlier := by
  induction h generalizing later with
  | init => exact absurd hh.symm (List.append_ne_nil_of_right_ne_nil _ (List.cons_ne_nil _ _))
  | start _ r ih =>
    cases later with
    | nil => cases hh
    | cons ev later => exact ih (List.cons.inj hh).2
  | run hb hok hp ih =>
    have hp' := hp
    cases hp with
    | mk hthread hperform =>
      cases later with
      | nil =>
        cases hh
        exact ⟨_, _, hb, hp', hb.run hok hp', rfl⟩
      | cons ev later => exact ih (List.cons.inj hh).2

theorem ReachableWhere.advance {ok : Y.Config → ℕ → S.Op → Bool} {c c' : Y.Config} {m : Move Y}
    (h : ReachableWhere ok c) (hm : permitted ok c m = true) (ha : advance c m = some c') :
    ReachableWhere ok c' := by
  cases m with
  | start r => cases ha; exact h.start r
  | run t ch =>
    simp only [System.advance] at ha
    simp only [permitted] at hm
    split at ha
    · rename_i req o next hthread
      rw [hthread] at hm
      obtain ⟨⟨v, s⟩, hperform, rfl⟩ := Option.map_eq_some_iff.mp ha
      exact h.run hm (.mk hthread hperform)
    · cases ha

theorem executeWhere_reachable {ok : Y.Config → ℕ → S.Op → Bool} {c c' : Y.Config}
    {ms : List (Move Y)} (hc : ReachableWhere ok c) (h : executeWhere ok c ms = some c') :
    ReachableWhere ok c' := by
  induction ms generalizing c with
  | nil => cases h; exact hc
  | cons m ms ih =>
    rw [executeWhere] at h
    by_cases hm : permitted ok c m = true
    · rw [if_pos hm] at h
      obtain ⟨d, hd, hrest⟩ := Option.bind_eq_some_iff.mp h
      exact ih (hc.advance hm hd) hrest
    · rw [if_neg hm] at h
      cases h

end Execution

section Discipline

variable (P : Protocol S)

/-- What the history says about thread `t`. -/
def localOf (t : ℕ) : List (Event S Y.Request) → P.Local
  | [] => P.start
  | .start _ _ :: h => localOf t h
  | .did u o v :: h => if u = t then P.after o v (localOf t h) else localOf t h

@[simp] theorem localOf_start (t u : ℕ) (r : Y.Request) (h : List (Event S Y.Request)) :
    localOf P t (.start u r :: h) = localOf P t h := rfl

@[simp] theorem localOf_did_self (t : ℕ) (o : S.Op) (v : S.Res o) (h : List (Event S Y.Request)) :
    localOf P t (.did t o v :: h) = P.after o v (localOf P t h) := by
  simp [localOf]

theorem localOf_did_ne {t u : ℕ} (hu : u ≠ t) (o : S.Op) (v : S.Res o)
    (h : List (Event S Y.Request)) : localOf P t (.did u o v :: h) = localOf P t h := by
  simp [localOf, hu]

variable {P}

/-- A thread that does not exist yet has done nothing. -/
theorem Reachable.unborn {c : Y.Config} (h : Reachable c) {t : ℕ} (ht : c.threads.length ≤ t) :
    localOf P t c.history = P.start := by
  refine Reachable.induction
    (I := fun c => c.threads.length ≤ t → localOf P t c.history = P.start)
    (fun _ => rfl) (fun c r _ ih ht => ?_) (fun c u o v c' _ ih hp ht => ?_) h ht
  · refine ih ?_
    simp only [Config.spawn, List.length_append, List.length_singleton] at ht
    omega
  · obtain ⟨hthread, _⟩ := hp
    have hlt : u < c.threads.length := (List.getElem?_eq_some_iff.mp hthread).1
    simp only [List.length_set] at ht
    rw [localOf_did_ne P (by omega)]
    exact ih ht

/-- The request of a thread never changes. -/
theorem Leads.request {c c' : Y.Config} (h : Leads c c') {t : ℕ} {r : Y.Request}
    {p : Program S Y.Reply} (ht : c.threads[t]? = some (r, p)) :
    ∃ p', c'.threads[t]? = some (r, p') := by
  induction h with
  | refl => exact ⟨p, ht⟩
  | tail _ hs ih =>
    obtain ⟨p', hp'⟩ := ih
    cases hs with
    | start r' =>
      refine ⟨p', ?_⟩
      simp only [Config.spawn]
      rw [List.getElem?_append_left (List.getElem?_eq_some_iff.mp hp').1]
      exact hp'
    | @run u o v _ hq =>
      obtain ⟨hthread, _⟩ := hq
      by_cases hu : u = t
      · subst hu
        rw [hp'] at hthread
        cases hthread
        exact ⟨_, List.getElem?_set_self (List.getElem?_eq_some_iff.mp hp').1⟩
      · exact ⟨p', by rw [List.getElem?_set_ne hu]; exact hp'⟩

/-- A thread that has returned does nothing any more. -/
theorem Leads.returned {c c' : Y.Config} (h : Leads c c') {t : ℕ} {r : Y.Request} {a : Y.Reply}
    (ht : c.threads[t]? = some (r, .ret a)) :
    c'.threads[t]? = some (r, .ret a) ∧
      ∃ later, c'.history = later ++ c.history ∧ ∀ o v, .did t o v ∉ later := by
  induction h with
  | refl => exact ⟨ht, [], rfl, fun _ _ => List.not_mem_nil⟩
  | tail _ hs ih =>
    obtain ⟨hret, later, hlater, hnone⟩ := ih
    cases hs with
    | start r' =>
      refine ⟨?_, _ :: later, congrArg _ hlater, fun o v hmem => ?_⟩
      · simp only [Config.spawn]
        rw [List.getElem?_append_left (List.getElem?_eq_some_iff.mp hret).1]
        exact hret
      · rcases List.mem_cons.mp hmem with heq | hmem
        · cases heq
        · exact hnone o v hmem
    | @run u o v _ hq =>
      obtain ⟨hthread, _⟩ := hq
      have hu : u ≠ t := by
        rintro rfl
        rw [hret] at hthread
        cases hthread
      refine ⟨?_, _ :: later, congrArg _ hlater, fun o' v' hmem => ?_⟩
      · rw [List.getElem?_set_ne hu]
        exact hret
      · rcases List.mem_cons.mp hmem with heq | hmem
        · cases heq
          exact hu rfl
        · exact hnone o' v' hmem

section Indexed

-- a protocol for each request
variable {P : Y.Request → Protocol S} {post : (r : Y.Request) → Y.Reply → (P r).Local → Prop}

/-- Every thread is at a point of its program from which it still follows its protocol. -/
def Disciplined (P : Y.Request → Protocol S)
    (post : (r : Y.Request) → Y.Reply → (P r).Local → Prop) (c : Y.Config) : Prop :=
  ∀ t r p, c.threads[t]? = some (r, p) →
    (P r).Follows (post r) p (localOf (P r) t c.history)

/-- Programs that follow the protocol still follow it in the middle of any run. -/
theorem Reachable.disciplined (hprog : ∀ r, (P r).Follows (post r) (Y.program r) (P r).start)
    {c : Y.Config} (h : Reachable c) : Disciplined P post c := by
  refine Reachable.induction (I := Disciplined P post) ?_ (fun c r hc ih => ?_)
    (fun c t o v c' _ ih hp => ?_) h
  · intro t r p hp
    simp [initial] at hp
  · intro t req p hp
    simp only [Config.spawn, List.getElem?_append] at hp
    split at hp
    · exact ih t req p hp
    · rename_i ht
      obtain ⟨_, he⟩ := List.getElem?_eq_some_iff.mp hp
      simp only [List.getElem_singleton, Prod.mk.injEq] at he
      obtain ⟨rfl, rfl⟩ := he
      simp only [Config.spawn, localOf_start, hc.unborn (Nat.le_of_not_lt ht)]
      exact hprog r
  · obtain ⟨hthread, hperform⟩ := hp
    rename_i req next ch s
    have hlt : t < c.threads.length := (List.getElem?_eq_some_iff.mp hthread).1
    have hfollow := ih t req _ hthread
    intro u req' p hp
    by_cases hu : t = u
    · subst hu
      rw [List.getElem?_set_self hlt] at hp
      cases hp
      rw [localOf_did_self]
      exact hfollow.2 v
    · rw [List.getElem?_set_ne hu] at hp
      rw [localOf_did_ne _ hu]
      exact ih u req' p hp

/-- An operation of a run was allowed by the protocol of its request. -/
theorem Reachable.allowed (hprog : ∀ r, (P r).Follows (post r) (Y.program r) (P r).start)
    {c : Y.Config} (h : Reachable c) {later earlier : List (Event S Y.Request)} {t : ℕ} {o : S.Op}
    {v : S.Res o} (hh : c.history = later ++ .did t o v :: earlier) :
    ∃ r p, c.threads[t]? = some (r, p) ∧ (P r).allows o (localOf (P r) t earlier) := by
  obtain ⟨b, d, hb, hp, hlead, rfl, _⟩ := h.performed hh
  have hp' := hp
  obtain ⟨hthread, _⟩ := hp
  obtain ⟨p', hp'⟩ := Leads.request (hlead.head (.run hp')) hthread
  exact ⟨_, p', hp', (hb.disciplined hprog t _ _ hthread).1⟩

/-- What every allowed operation keeps, holds of every thread in the middle of any run. -/
theorem Reachable.local_invariant
    (hprog : ∀ r, (P r).Follows (post r) (Y.program r) (P r).start)
    {I : (r : Y.Request) → (P r).Local → Prop} (hstart : ∀ r, I r (P r).start)
    (hstep : ∀ r o v g, (P r).allows o g → I r g → I r ((P r).after o v g))
    {c : Y.Config} (h : Reachable c) {t : ℕ} {r : Y.Request} {p : Program S Y.Reply}
    (hthread : c.threads[t]? = some (r, p)) : I r (localOf (P r) t c.history) := by
  refine Reachable.induction (I := fun c => ∀ t r p, c.threads[t]? = some (r, p) →
    I r (localOf (P r) t c.history)) ?_ (fun c r hc ih => ?_) (fun c u o v c' hc ih hp => ?_)
    h t r p hthread
  · intro t r p hget
    simp [initial] at hget
  · intro t req p hget
    simp only [Config.spawn, List.getElem?_append] at hget
    split at hget
    · exact ih t req p hget
    · rename_i ht
      simp only [Config.spawn, localOf_start, hc.unborn (Nat.le_of_not_lt ht)]
      exact hstart req
  · obtain ⟨hget, hperform⟩ := hp
    have hlt := (List.getElem?_eq_some_iff.mp hget).1
    intro t req p hget'
    by_cases hu : u = t
    · subst hu
      rw [List.getElem?_set_self hlt] at hget'
      cases hget'
      rw [localOf_did_self]
      exact hstep _ _ _ _ (hc.disciplined hprog u _ _ hget).1 (ih u _ _ hget)
    · rw [List.getElem?_set_ne hu] at hget'
      rw [localOf_did_ne _ hu]
      exact ih t req p hget'

end Indexed

variable {post : Y.Request → Y.Reply → P.Local → Prop}

theorem Performs.allowed (hprog : ∀ r, P.Follows (post r) (Y.program r) P.start)
    {c c' : Y.Config} {t : ℕ} {o : S.Op} {v : S.Res o} (hc : Reachable c)
    (h : Performs c t o v c') : P.allows o (localOf P t c.history) := by
  obtain ⟨hthread, _⟩ := h
  exact (hc.disciplined (P := fun _ => P) hprog t _ _ hthread).1

theorem Performs.lt {c c' : Y.Config} {t : ℕ} {o : S.Op} {v : S.Res o}
    (h : Performs c t o v c') : t < c.threads.length := by
  obtain ⟨hthread, _⟩ := h
  exact (List.getElem?_eq_some_iff.mp hthread).1

end Discipline

end System

end Framework
