import RfcMcp.Mediation.Demo

namespace RfcMcp

open Framework Framework.System

/-- The settings of a server over the demo backend. -/
def demoSettings (cfg : AppSettings) : AppSettings :=
  { cfg with backend := some (DemoConnection.call cfg.text) }

/-- Any number of calls over the demo backend. -/
@[reducible] def demoServer (cfg : AppSettings) : System Effects :=
  runtime (demoSettings cfg) (DemoRequest.program (demoSettings cfg))

/-- A state of a run over the demo backend. -/
abbrev DemoRun (cfg : AppSettings) : Type := (demoServer cfg).Config

section Honesty

variable {cfg : AppSettings} {c d : DemoRun cfg}

/-- A cache entry that the demo backend may have led to. -/
def DemoCached : (id : CacheId) → String → id.Value → Prop
  | .search, _, _ => True
  | .interface, key, found => Discovered key found

/-- Over the demo backend every thread is dealt with honestly. -/
theorem demo_honest (h : Reachable c) :
    (∀ id, ∀ e ∈ c.shared.cache id, DemoCached id e.1 e.2.2) ∧
      ∀ t, DemoHonest cfg.text (traceOf t c.history) := by
  refine Reachable.induction (I := fun c : DemoRun cfg =>
    (∀ id, ∀ e ∈ c.shared.cache id, DemoCached id e.1 e.2.2) ∧
      ∀ t, DemoHonest cfg.text (traceOf t c.history)) ?_ ?_ ?_ h
  · constructor
    · intro id e he
      cases he
    · intro t
      constructor
      · intro conn f kwargs r hdid
        cases hdid
      · intro key found hdid
        cases hdid
  · intro c r _ ih
    exact ih
  · intro c t o v c' hc ih hp
    obtain ⟨hcaches, hhonest⟩ := ih
    obtain ⟨hthread, hperform⟩ := hp
    have hdoes : Does (demoSettings cfg) t c.shared o v _ := Shared.perform_does hperform
    have hguard := (hc.traced (demo_program _) hthread).1
    constructor
    · refine cache_step hdoes hcaches fun id key value ho => ?_
      subst ho
      cases id with
      | search => trivial
      | interface => exact hguard (hhonest t)
    · intro u
      constructor
      · intro conn f kwargs r hdid
        rw [mem_traceOf] at hdid
        cases List.mem_cons.mp hdid with
        | inl hnow =>
          cases hnow
          cases hdoes with
          | rfcEnd hanswer => exact hanswer _ rfl
        | inr hold => exact (hhonest u).answers conn f kwargs r (mem_traceOf.mpr hold)
      · intro key found hdid
        rw [mem_traceOf] at hdid
        cases List.mem_cons.mp hdid with
        | inl hnow =>
          cases hnow
          exact cache_hit (I := DemoCached) hdoes hcaches rfl
        | inr hold => exact (hhonest u).cached key found (mem_traceOf.mpr hold)

end Honesty

section Spelling

variable {cfg : AppSettings} {c d : DemoRun cfg} {name : String} {parameters : PyDict}

/-- Whenever a call of `name` makes the demo connection take the branch of a function, that function
may be read under its own name. -/
def OnlyAllowedBranches (cfg : AppSettings) (name : String) (parameters : PyDict) : Prop :=
  ∀ (c d : DemoRun cfg) (conn : Conn) (f : String) (kwargs : PyDict) (F : String), Reachable c →
    Leads (c.spawn (.call name parameters)) d →
    .did c.threads.length (.rfcBegin conn .read f kwargs) () ∈ d.history →
    DemoConnection.branch cfg.text f = some F → cfg.policy.isReadAllowed cfg.text F = true

/-- What a call issues, it issues under the name it was given, allowed by the policy, and with
arguments for an interface that the demo backend has for this name. -/
theorem issued_call (h : Reachable c) (hlead : Leads (c.spawn (.call name parameters)) d)
    {conn : Conn} {f : String} {kwargs : PyDict}
    (hdid : .did c.threads.length (.rfcBegin conn .read f kwargs) () ∈ d.history) :
    f = name ∧ ExecutionPolicy.allows cfg.text cfg.policy name "read" parameters = true ∧
      ∃ found, Discovered (cfg.text.upper name) found ∧
        buildCallKwargs cfg.text found parameters = .ok kwargs := by
  obtain ⟨after, before, htrace⟩ := List.append_of_mem (mem_traceOf.mpr hdid)
  have hfollows := @demo_program (demoSettings cfg) (.call name parameters)
  obtain ⟨parameters', hrequest, hallows, hfits⟩ := hlead.guarded h hfollows htrace
  cases hrequest
  have hspawn : Reachable (c.spawn (.call name parameters)) :=
    h.step (.start (Y := demoServer cfg) _)
  have hhonest := (demo_honest (hspawn.leads hlead)).2 c.threads.length
  rw [htrace, List.append_cons] at hhonest
  exact ⟨rfl, hallows, hfits (hhonest.of_append _)⟩

theorem isReadAllowed_of_allows
    (h : ExecutionPolicy.allows cfg.text cfg.policy name "read" parameters = true) :
    cfg.policy.isReadAllowed cfg.text name = true := by
  rw [ExecutionPolicy.allows_eq, Bool.and_eq_true] at h
  simpa [ExecutionPolicy.allowsFunction] using h.1

/-- An interface without parameters takes none. -/
theorem nil_of_buildCallKwargs {T : PyText} {found : FunctionInterface} {kwargs : PyDict}
    (hfound : found.parameters = []) (h : buildCallKwargs T found parameters = .ok kwargs) :
    parameters = [] := by
  cases parameters with
  | nil => rfl
  | cons e rest => simp [buildCallKwargs, hfound] at h

/-- A name that the demo knows as it is, in upper case, has the branch of this very name. -/
theorem isReadAllowed_branch {F : String} (hbranch : DemoConnection.branch cfg.text name = some F)
    (hknown : cfg.text.upper name ∈ DemoConnection.interfaces.map (·.1)) :
    cfg.policy.isReadAllowed cfg.text F = cfg.policy.isReadAllowed cfg.text name := by
  obtain ⟨hF, hname⟩ := DemoConnection.branch_eq_some cfg.text hbranch
  rw [DemoConnection.strip_of_interface cfg.text hknown] at hname
  apply PolicySettings.isReadAllowed_congr
  rw [DemoConnection.upper_name cfg.text hF, hname]

/-- The demo backend answers a call that borrows a connection for it. -/
theorem demo_answered {t : ℕ} {s : Shared} {f : String} {params r : PyDict}
    (h : DemoConnection.call cfg.text f params = .ok r) :
    Outcome (demoServer cfg) t s
      (PooledCaller.call (demoSettings cfg) demoConnectionPool f params) (.ok r)
      { s with nextConn := s.nextConn + 1, closed := s.nextConn :: s.closed } := by
  have hanswer : ∀ (conn : Conn) (s : Shared), Shared.perform (demoSettings cfg) t
      (.rfcEnd conn f params) (.answer (.ok [])) s = some (.ok r, s) := by
    intro conn s
    show some (DemoConnection.call cfg.text f params, s) = _
    rw [h]
  refine outcome_call.mpr ⟨.go, s.nextConn, { s with nextConn := s.nextConn + 1 }, rfl, ?_⟩
  refine outcome_call.mpr ⟨.go, (), { s with nextConn := s.nextConn + 1 }, rfl, ?_⟩
  refine outcome_call.mpr ⟨.answer (.ok []), .ok r, { s with nextConn := s.nextConn + 1 },
    hanswer _ _, ?_⟩
  exact outcome_call.mpr ⟨.go, (), _, rfl, outcome_ret.mpr ⟨rfl, rfl⟩⟩

/-- What is found out about a name that the demo does not know as it is. -/
theorem demo_discovered (hunknown : cfg.text.upper name ∉ DemoConnection.interfaces.map (·.1))
    {t : ℕ} {s : Shared} : Outcome (demoServer cfg) t s
      (FunctionCatalog.doGetInterface (demoSettings cfg)
        (PooledCaller.call (demoSettings cfg) demoConnectionPool) name)
      (.ok { name := name, parameters := [], exceptions := [] })
      { s with nextConn := s.nextConn + 1, closed := s.nextConn :: s.closed } :=
  (demo_answered (DemoConnection.call_interface cfg.text hunknown)).bind
    (outcome_ret.mpr ⟨rfl, rfl⟩)

theorem interface_found (hunknown : cfg.text.upper name ∉ DemoConnection.interfaces.map (·.1)) :
    ∃ s, Outcome (demoServer cfg) 0 (Shared.initial (demoSettings cfg))
      (ExecutionInvoker.getInterface (demoSettings cfg) demoConnectionPool name)
      (.ok { name := name, parameters := [], exceptions := [] }) s := by
  have hget : (CacheStore.get [] 0 (cfg.text.upper name) : _ × CacheStore FunctionInterface) =
      (none, []) := rfl
  exact ⟨_, outcome_locked.mpr ⟨rfl, _, _, _, perform_cacheGet hget,
    (demo_discovered hunknown).bind (outcome_locked.mpr
      ⟨rfl, _, _, _, perform_cacheSet, outcome_ret.mpr ⟨rfl, rfl⟩⟩)⟩⟩

/-- What is left of a call that the policy allows. -/
def authorizedCall (cfg : AppSettings) (name : String) (parameters : PyDict) : Act PyValue := do
  let interface ← ExecutionInvoker.getInterface cfg demoConnectionPool name
  let callKwargs ← Action.ofExcept (buildCallKwargs cfg.text interface parameters)
  let result ← demoConnectionPool.acquire fun conn =>
    ExecutionInvoker.callOnConnection cfg conn .read name callKwargs "read" none
  ExecutionInvoker.applyResultLimits cfg name "read" result

theorem call_of_allows
    (h : ExecutionPolicy.allows cfg.text cfg.policy name "read" parameters = true) :
    ∃ record, ExecutionInvoker.call cfg demoConnectionPool name parameters "read" =
      (do log record; authorizedCall cfg name parameters) := by
  unfold ExecutionInvoker.call
  rw [if_neg (not_not.mpr rfl), ExecutionPolicy.authorize_of_allows h]
  exact ⟨_, rfl⟩

theorem authorizedCall_issues
    (hunknown : cfg.text.upper name ∉ DemoConnection.interfaces.map (·.1)) :
    ∃ s conn next, Reaches (demoServer cfg) 0 (Shared.initial (demoSettings cfg))
      (authorizedCall (demoSettings cfg) name []) s
      (.call (.rfcBegin conn .read name []) next) := by
  obtain ⟨s, hfound⟩ := interface_found hunknown
  exact ⟨_, _, _, hfound.reaches_bind (Reaches.call Choice.go rfl (.here _ _))⟩

/-- An allowed call without parameters of a name that the demo does not know as it is, is issued. -/
theorem call_issued (hallows : ExecutionPolicy.allows cfg.text cfg.policy name "read" [] = true)
    (hunknown : cfg.text.upper name ∉ DemoConnection.interfaces.map (·.1)) :
    ∃ (d : DemoRun cfg) (conn : Conn),
      Leads ((demoServer cfg).initial.spawn (.call name [])) d ∧
      .did 0 (.rfcBegin conn .read name []) () ∈ d.history := by
  obtain ⟨s, conn, next, hissues⟩ := authorizedCall_issues hunknown
  obtain ⟨record, hcall⟩ := @call_of_allows (demoSettings cfg) name [] hallows
  have hreaches : ∃ next, Reaches (demoServer cfg) 0 (Shared.initial (demoSettings cfg))
      (DemoRequest.program (demoSettings cfg) (.call name [])) s
      (.call (.rfcBegin conn .read name []) next) := by
    simp only [DemoRequest.program]
    rw [hcall]
    exact ⟨_, .call Choice.go rfl (hissues.bind _)⟩
  obtain ⟨next, hreaches⟩ := hreaches
  have hnew := spawn_new (demoServer cfg).initial (.call name [])
  obtain ⟨d, hsolo, hleft, _⟩ := solo_of_reaches hreaches hnew rfl
  have hbegin : (demoServer cfg).perform 0 (.rfcBegin conn .read name []) Choice.go d.shared =
      some ((), d.shared) := rfl
  have hperforms : ∃ d', Performs d 0 (.rfcBegin conn .read name []) () d' ∧
      .did 0 (.rfcBegin conn .read name []) () ∈ d'.history :=
    ⟨_, .mk hleft hbegin, List.mem_cons_self⟩
  obtain ⟨d', hp, hdid⟩ := hperforms
  exact ⟨d', conn, hsolo.leads.tail (.run hp), hdid⟩

theorem branch_escapes {F : String}
    (hallows : ExecutionPolicy.allows cfg.text cfg.policy name "read" [] = true)
    (hunknown : cfg.text.upper name ∉ DemoConnection.interfaces.map (·.1))
    (hbranch : DemoConnection.branch cfg.text name = some F)
    (hdenied : cfg.policy.isReadAllowed cfg.text F = false) :
    ¬ OnlyAllowedBranches cfg name [] := by
  intro honly
  obtain ⟨d, conn, hlead, hdid⟩ := call_issued hallows hunknown
  have hallowed := honly _ d conn name [] F Relation.ReflTransGen.refl hlead hdid hbranch
  rw [hdenied] at hallowed
  cases hallowed

/-- Exactly when a call of `name` can only take branches that the policy allows reading. -/
theorem only_allowed_branches_iff : OnlyAllowedBranches cfg name parameters ↔
    (∀ F, DemoConnection.branch cfg.text name = some F →
      cfg.policy.isReadAllowed cfg.text F = true) ∨
    parameters ≠ [] ∨
    ExecutionPolicy.allows cfg.text cfg.policy name "read" parameters = false := by
  constructor
  · intro honly
    by_cases hparameters : parameters = []
    · subst hparameters
      cases hallows : ExecutionPolicy.allows cfg.text cfg.policy name "read" [] with
      | false => exact Or.inr (Or.inr rfl)
      | true =>
        refine Or.inl fun F hbranch => ?_
        by_cases hknown : cfg.text.upper name ∈ DemoConnection.interfaces.map (·.1)
        · rw [isReadAllowed_branch hbranch hknown]
          exact isReadAllowed_of_allows hallows
        · cases hF : cfg.policy.isReadAllowed cfg.text F with
          | true => rfl
          | false => exact absurd honly (branch_escapes hallows hknown hbranch hF)
    · exact Or.inr (Or.inl hparameters)
  · intro hcondition c d conn f kwargs F hreach hlead hdid hbranch
    obtain ⟨hf, hallows, found, hdiscovered, hkwargs⟩ := issued_call hreach hlead hdid
    subst hf
    by_cases hknown : cfg.text.upper f ∈ DemoConnection.interfaces.map (·.1)
    · rw [isReadAllowed_branch hbranch hknown]
      exact isReadAllowed_of_allows hallows
    · cases hcondition with
      | inl hbranches => exact hbranches F hbranch
      | inr hrest =>
        cases hrest with
        | inl hparameters =>
          exact absurd (nil_of_buildCallKwargs (hdiscovered hknown) hkwargs) hparameters
        | inr hrefused =>
          rw [hallows] at hrefused
          cases hrefused

/-- `STFC_CONNECTION` is denied, and runs for a name with a blank before it. -/
theorem padded_name_escapes : ¬ OnlyAllowedBranches
    { text := asciiText,
      policy := { readAllowPatterns := ["*"], denyPatterns := ["STFC_CONNECTION"] } }
    " STFC_CONNECTION" [] := by
  apply branch_escapes (F := "STFC_CONNECTION")
  · show ExecutionPolicy.allows asciiText _ " STFC_CONNECTION" "read" [] = true
    decide +kernel
  · show asciiText.upper " STFC_CONNECTION" ∉ DemoConnection.interfaces.map (·.1)
    decide +kernel
  · show DemoConnection.branch asciiText " STFC_CONNECTION" = some "STFC_CONNECTION"
    decide +kernel
  · show PolicySettings.isReadAllowed asciiText _ "STFC_CONNECTION" = false
    decide +kernel

end Spelling

end RfcMcp
