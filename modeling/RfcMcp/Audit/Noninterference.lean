import RfcMcp.Audit.Programs
import RfcMcp.Custody.Shutdown

namespace RfcMcp

open Framework Framework.System

section Runs

variable {cfg : AppSettings} {c d d' : Run cfg} {reply reply' : Except PyExc Answer}

/-- What the outside has answered in a run. -/
def answered (source : Source) (trace : Trace Effects) : List source.Answer :=
  trace.flatMap fun did => did.1.inputs source did.2

theorem twin_request {t : ℕ} (a : Audited) {parameters parameters' : PyDict}
    (hkeys : parameters.map (·.1) = parameters'.map (·.1))
    (htarget : ExecutionPolicy.genericTableReaderTarget cfg.text cfg.policy a.functionName
        parameters =
      ExecutionPolicy.genericTableReaderTarget cfg.text cfg.policy a.functionName parameters') :
    Twin (Y := server cfg) (trail cfg a.functionName) t (· = ·)
      ((a.request parameters).program cfg (connectionPool cfg))
      ((a.request parameters').program cfg (connectionPool cfg)) (Both anyhow anyhow) := by
  cases a with
  | call f mode =>
    exact twin_bind (twin_call hkeys htarget) fun _ _ => twin_pure fun _ _ _ => trivial
  | callTransactional f mode id =>
    exact twin_bind (twin_callTransactional hkeys htarget id) fun _ _ =>
      twin_pure fun _ _ _ => trivial

/-- Neither a parameter value nor a result value shows in the audit trail, but for the table of a
generic table reader. -/
theorem audit_noninterference (h : Reachable c) (a : Audited) {parameters parameters' : PyDict}
    (hkeys : parameters.map (·.1) = parameters'.map (·.1))
    (htarget : cfg.policy.isGenericTableReader cfg.text a.functionName = true →
      ExecutionPolicy.genericTableReaderTarget cfg.text cfg.policy a.functionName parameters =
        ExecutionPolicy.genericTableReaderTarget cfg.text cfg.policy a.functionName parameters')
    (hsolo : Solo c.threads.length (c.spawn (a.request parameters)) d)
    (hret : d.threads[c.threads.length]? = some (a.request parameters, .ret reply))
    (hsolo' : Solo c.threads.length (c.spawn (a.request parameters')) d')
    (hret' : d'.threads[c.threads.length]? = some (a.request parameters', .ret reply'))
    (hanswers : ∀ source, Agree (answered source (runOf c.threads.length d))
      (answered source (runOf c.threads.length d')))
    (hcomparable : Comparable cfg a.functionName
      ((a.request parameters).program cfg (connectionPool cfg)) (runOf c.threads.length d)
      ((a.request parameters').program cfg (connectionPool cfg)) (runOf c.threads.length d')) :
    auditOf (runOf c.threads.length d) = auditOf (runOf c.threads.length d') := by
  have htarget' : ExecutionPolicy.genericTableReaderTarget cfg.text cfg.policy a.functionName
      parameters = ExecutionPolicy.genericTableReaderTarget cfg.text cfg.policy a.functionName
        parameters' := by
    cases hreader : cfg.policy.isGenericTableReader cfg.text a.functionName with
    | true => exact htarget hreader
    | false => simp [ExecutionPolicy.genericTableReaderTarget, hreader]
  have hrun := hsolo.run_of h hret
  have hrun' := hsolo'.run_of h hret'
  have hboth := twin_request a hkeys htarget' _ _ _ _ _ _ _ _ rfl hrun hrun' hanswers hcomparable
  unfold auditOf
  exact congrArg (List.filter _) hboth.1.outputs

end Runs

section Sample

/-- Nothing goes wrong in an operation, and the interface is in the cache. -/
def smooth (cfg : AppSettings) (interface : FunctionInterface) : (Σ o : Op, o.Res) → Bool
  | ⟨.semAcquire, got⟩ => got
  | ⟨.openConnection, opened⟩ => opened.isOk
  | ⟨.rfcEnd _ function _, .ok v⟩ =>
    function != "BAPI_TRANSACTION_ROLLBACK" && (cfg.limits.apply (.dict v)).isOk
  | ⟨.rfcEnd _ _ _, .error _⟩ => false
  | ⟨.cacheGet .interface _, found⟩ => found == some interface
  | _ => true

variable {cfg : AppSettings} {interface : FunctionInterface} {f : String} {α β : Type}
  {trace trace' : Trace Effects} {p : Program Effects α} {p' : Program Effects β}

theorem smooth_passed {γ : Type} {x : Program Effects γ} {r : γ}
    (h : trace.all (smooth cfg interface) = true) (hpasses : p.Passes trace x r) :
    ∃ mid, x.Replays mid r ∧ mid.all (smooth cfg interface) = true := by
  obtain ⟨before, mid, after, rest, rfl, _, hreplays⟩ := hpasses
  refine ⟨mid, hreplays, ?_⟩
  rw [List.all_append, List.all_append] at h
  exact (Bool.and_eq_true_iff.mp (Bool.and_eq_true_iff.mp h).2).1

theorem smooth_call {conn : Conn} {purpose : Purpose} {function : String} {kwargs : PyDict}
    {r : Except PyExc PyDict}
    (hreplays : Program.Replays (conn.call purpose function kwargs) trace r)
    (h : trace.all (smooth cfg interface) = true) : function ≠ "BAPI_TRANSACTION_ROLLBACK" ∧
      ∃ v, r = .ok v ∧ (cfg.limits.apply (.dict v)).isOk = true := by
  have hended : ⟨.rfcEnd conn function kwargs, r⟩ ∈ trace := by
    cases hreplays with
    | call hreplays =>
      cases hreplays with
      | call hreplays =>
        cases hreplays
        exact List.mem_cons_of_mem _ List.mem_cons_self
  have hsmooth := List.all_eq_true.mp h _ hended
  cases r with
  | error exc => cases hsmooth
  | ok v =>
    obtain ⟨hname, hlimits⟩ := Bool.and_eq_true_iff.mp hsmooth
    exact ⟨bne_iff_ne.mp hname, v, rfl, hlimits⟩

theorem smooth_ends {r : Except PyExc PyDict} (h : trace.all (smooth cfg interface) = true)
    (hends : RfcEnds f p trace r) : ∃ v, r = .ok v ∧ (cfg.limits.apply (.dict v)).isOk = true := by
  cases hends with
  | read hpasses =>
    obtain ⟨mid, hreplays, hmid⟩ := smooth_passed h hpasses
    exact (smooth_call hreplays hmid).2
  | written hpasses =>
    obtain ⟨mid, hreplays, hmid⟩ := smooth_passed h hpasses
    exact (smooth_call hreplays hmid).2

theorem smooth_returns (h : trace.all (smooth cfg interface) = true) : RfcReturns f p trace := by
  intro r hends
  obtain ⟨v, hv, _⟩ := smooth_ends h hends
  exact ⟨v, hv⟩

/-- A connection is to be had. -/
theorem smooth_checkout {exc : PyExc} (hinstalled : cfg.pyrfcInstalled = true)
    (hkwargs : cfg.pyrfcKwargs.isOk = true) (h : trace.all (smooth cfg interface) = true)
    (hreplays : Program.Replays (ConnectionPool.checkout cfg) trace (.error exc)) : False := by
  have hcovers : CoversBorrowing cfg fun _ trace => ¬ trace.all (smooth cfg interface) = true := by
    refine ⟨fun _ did trace hnot hall => hnot ?_, fun trace hmem hall => ?_, fun _ hnone _ => ?_,
      fun exc _ herror _ => ?_, fun cause trace hmem hall => ?_⟩
    · rw [List.all_cons] at hall
      exact (Bool.and_eq_true_iff.mp hall).2
    · cases List.all_eq_true.mp hall _ hmem
    · rw [hinstalled] at hnone
      cases hnone
    · rw [herror] at hkwargs
      cases hkwargs
    · cases List.all_eq_true.mp hall _ hmem
  have hrough := Protocol.Follows.of_replays (accounts_checkout_of hcovers [] trivial) hreplays
  rw [List.append_nil] at hrough
  exact hrough (by rw [List.all_reverse]; exact h)

theorem smooth_read {kwargs : PyDict} {r : Except PyExc PyDict}
    (hinstalled : cfg.pyrfcInstalled = true) (hkwargs : cfg.pyrfcKwargs.isOk = true)
    (h : trace.all (smooth cfg interface) = true)
    (hpasses : p.Passes trace (readRfc cfg f kwargs) r) : r.isOk = true := by
  obtain ⟨mid, hreplays, hmid⟩ := smooth_passed h hpasses
  rcases readRfc_replays hreplays (smooth_returns hmid) with ⟨v, rfl, _⟩ | ⟨exc, rfl, hnone⟩
  · rfl
  · exact (smooth_checkout hinstalled hkwargs hmid hnone).elim

theorem smooth_created {r : Except PyExc Entry} (hinstalled : cfg.pyrfcInstalled = true)
    (hkwargs : cfg.pyrfcKwargs.isOk = true) (h : trace.all (smooth cfg interface) = true)
    (hpasses : p.Passes trace (ExecutionInvoker.createTransaction (connectionPool cfg)) r) :
    r.isOk = true := by
  obtain ⟨mid, hreplays, hmid⟩ := smooth_passed h hpasses
  cases r with
  | ok e => rfl
  | error exc =>
    exact (smooth_checkout hinstalled hkwargs hmid (notCreated_replays hreplays)).elim

theorem smooth_lookup {r : Except PyExc FunctionInterface}
    (h : trace.all (smooth cfg interface) = true)
    (hpasses : p.Passes trace (ExecutionInvoker.getInterface cfg (connectionPool cfg) f) r) :
    r = .ok interface := by
  obtain ⟨mid, hreplays, hmid⟩ := smooth_passed h hpasses
  cases hreplays with
  | call hreplays =>
    cases hreplays with
    | @call _ _ found _ _ hreplays =>
      have hfound : found = some interface := by
        have hsmooth := List.all_eq_true.mp hmid _ (List.mem_cons_of_mem _ List.mem_cons_self)
        exact beq_iff_eq.mp hsmooth
      subst hfound
      cases hreplays with
      | call hreplays =>
        cases hreplays
        rfl

/-- Two runs in which nothing goes wrong are comparable. -/
theorem comparable_of_smooth (hinstalled : cfg.pyrfcInstalled = true)
    (hkwargs : cfg.pyrfcKwargs.isOk = true) (h : trace.all (smooth cfg interface) = true)
    (h' : trace'.all (smooth cfg interface) = true) : Comparable cfg f p trace p' trace' where
  returns := smooth_returns h
  returns' := smooth_returns h'
  verdict v v' hv hv' := by
    obtain ⟨_, ⟨⟩, hlimits⟩ := smooth_ends h hv
    obtain ⟨_, ⟨⟩, hlimits'⟩ := smooth_ends h' hv'
    left
    cases hx : cfg.limits.apply (.dict v) with
    | error exc => rw [hx] at hlimits; cases hlimits
    | ok x =>
      cases hx' : cfg.limits.apply (.dict v') with
      | error exc => rw [hx'] at hlimits'; cases hlimits'
      | ok x' => exact ⟨x, x', rfl, rfl⟩
  borrowed kwargs kwargs' r r' hr hr' := by
    rw [smooth_read hinstalled hkwargs h hr, smooth_read hinstalled hkwargs h' hr']
  created r r' hr hr' := by
    rw [smooth_created hinstalled hkwargs h hr, smooth_created hinstalled hkwargs h' hr']
  lookup r r' hr hr' := by
    rw [smooth_lookup h hr, smooth_lookup h' hr']
  rollback e r r' hr hr' := by
    obtain ⟨mid, hreplays, hmid⟩ := smooth_passed h hr
    exact absurd rfl (smooth_call hreplays hmid).1

def sampleAudited : Audited := .call "Z_READ" "read"

def sampleParameters (key : String) : PyDict := [("KEY", .str key)]

def echoInterface : FunctionInterface :=
  { name := "Z_READ", parameters := [{ name := "KEY", paramClass := .IMPORT }] }

/-- A client asks for the interface of the function. -/
def sampleLookup : List (Move (server sampleSettings)) :=
  script 0 (.getInterface "Z_READ")
    [.go, .time 0, .go, .go, .go, .liveness fun _ => .alive, .go, .opened (.ok ()), .go,
      .answer (.ok [("PARAMS", .list [.dict [("PARAMETER", .str "KEY"),
        ("PARAMCLASS", .str "I")]])]), .go, .go, .go, .go, .go, .go, .time 0, .go]

/-- The answers to a read of the function, with its interface from the cache. -/
def readAnswers (value : String) : List Choice :=
  [.go, .go, .time 1, .go, .go, .go, .liveness fun _ => .alive, .go, .go,
    .answer (.ok [("VALUE", .str value)]), .go, .go, .go, .go, .go, .go]

/-- The RFC has been sent with this key, and has answered this value. -/
def hasRead (key value : String) : (Σ o : Op, o.Res) → Bool
  | ⟨.rfcEnd _ "Z_READ" [("KEY", .str k)], .ok [("VALUE", .str v)]⟩ => k == key && v == value
  | _ => false

/-- The read of this key is done, and it went well without a look at the clock. -/
def hasGoneWell (key value : String) (d : Run sampleSettings) : Bool :=
  d.threads.all (fun thread => isDone thread.2) &&
    (runOf 1 d).all (smooth sampleSettings echoInterface) &&
    (runOf 1 d).any (hasRead key value) &&
    ((answered .clock (runOf 1 d)).isEmpty && (answered .token (runOf 1 d)).isEmpty)

/-- In the two runs the RFC is sent with different values and answers different values. -/
theorem audit_noninterference_read : ∃ c d d',
    execute (server sampleSettings).initial sampleLookup = some c ∧
    execute (c.spawn (sampleAudited.request (sampleParameters "1")))
      ((readAnswers "a").map (.run 1)) = some d ∧
    execute (c.spawn (sampleAudited.request (sampleParameters "2")))
      ((readAnswers "b").map (.run 1)) = some d' ∧
    (runOf 1 d).any (hasRead "1" "a") = true ∧ (runOf 1 d').any (hasRead "2" "b") = true ∧
    auditOf (runOf 1 d) = auditOf (runOf 1 d') := by
  have hrun : ((execute (server sampleSettings).initial sampleLookup).any fun c =>
      c.threads.length == 1 && [("1", "a"), ("2", "b")].all fun e =>
        (execute (c.spawn (sampleAudited.request (sampleParameters e.1)))
          ((readAnswers e.2).map (.run 1))).any (hasGoneWell e.1 e.2)) = true := by
    decide +kernel
  obtain ⟨c, hc, hreads⟩ := (Option.any_eq_true _ _).mp hrun
  obtain ⟨hone, hreads⟩ := Bool.and_eq_true_iff.mp hreads
  have hlength : c.threads.length = 1 := beq_iff_eq.mp hone
  have hends : ∀ e ∈ [("1", "a"), ("2", "b")], ∃ d reply, execute
      (c.spawn (sampleAudited.request (sampleParameters e.1))) ((readAnswers e.2).map (.run 1)) =
        some d ∧
      d.threads[1]? = some (sampleAudited.request (sampleParameters e.1), .ret reply) ∧
      (runOf 1 d).all (smooth sampleSettings echoInterface) = true ∧
      (runOf 1 d).any (hasRead e.1 e.2) = true ∧ ∀ source, answered source (runOf 1 d) = [] := by
    intro e he
    obtain ⟨d, hd, hwell⟩ := (Option.any_eq_true _ _).mp (List.all_eq_true.mp hreads e he)
    unfold hasGoneWell at hwell
    obtain ⟨hwell, hclock, htoken⟩ := by simpa only [Bool.and_eq_true] using hwell
    obtain ⟨⟨hdone, hsmooth⟩, hread⟩ := hwell
    obtain ⟨q, hq⟩ := Leads.request (solo_of_execute hd).leads (spawn_new _ _)
    obtain ⟨reply, rfl⟩ := quiet_of_all hdone _ _ _ hq
    rw [hlength] at hq
    refine ⟨d, reply, hd, hq, hsmooth, hread, fun source => ?_⟩
    cases source with
    | clock => exact List.isEmpty_iff.mp hclock
    | token => exact List.isEmpty_iff.mp htoken
  obtain ⟨d, reply, hd, hret, hsmooth, hread, hnone⟩ := hends ("1", "a") (by simp)
  obtain ⟨d', reply', hd', hret', hsmooth', hread', hnone'⟩ := hends ("2", "b") (by simp)
  refine ⟨c, d, d', hc, hd, hd', hread, hread', ?_⟩
  have hsolo := solo_of_execute hd
  have hsolo' := solo_of_execute hd'
  rw [← hlength] at hret hret' hsmooth hsmooth' hsolo hsolo' hnone hnone' ⊢
  have hkeys : (sampleParameters "1").map (·.1) = (sampleParameters "2").map (·.1) := rfl
  have hpyrfc : sampleSettings.pyrfcKwargs.isOk = true := rfl
  refine audit_noninterference (execute_reachable hc) sampleAudited hkeys (fun hreader => ?_) hsolo
    hret hsolo' hret' (fun source => ?_) (comparable_of_smooth rfl hpyrfc hsmooth hsmooth')
  · revert hreader
    decide +kernel
  · exact .inl (hnone source ▸ List.nil_prefix)

end Sample

end RfcMcp
