import RfcMcp.Response.Source

namespace RfcMcp

open Framework Framework.Protocol Framework.System

section Limits

/-- The part of a reply that SAP has sent. -/
def Answer.payload : Answer → Option PyValue
  | .result value => some value
  | .written value _ => some value
  | .source text => some (.str text)
  | .summaries _ | .interface _ | .done => none

/-- The list elements that a response is built from. -/
def totalAnswered (answers : List (Except String PyDict)) : ℕ :=
  (answers.map fun answer => match answer with
    | .ok result => (PyValue.dict result).totalRows
    | .error _ => 0).sum

/-- What reaches the client is within the limits, and a result beyond them is refused. -/
structure WithinLimits (limits : ResultLimitPolicy) (answers : List (Except String PyDict))
    (reply : Except PyExc Answer) : Prop where
  returned : ∀ answer payload, reply = .ok answer → answer.payload = some payload →
    totalAnswered answers ≤ limits.maxTableRows ∧
      ∃ text, jsonDumps payload = .ok text ∧ text.utf8ByteSize ≤ limits.maxSerializedBytes
  refused : ∀ result, .ok result ∈ answers → Exceeds limits (.dict result) →
    ∃ message, reply = .error (.resultLimitExceeded message)

/-- The end of a transaction has been answered within the limits, and so has a class read, its
includes taken together. -/
def FitsTogether (cfg : AppSettings) (answers : List (Except String PyDict)) : Request → Prop
  | .commit _ _ | .rollback _ =>
    ∀ result, .ok result ∈ answers → ∃ v, cfg.limits.apply (.dict result) = .ok v
  | .readSource .class_ _ =>
    ∀ reads, classReads cfg answers = some reads → reads ≠ [] →
      totalAnswered answers ≤ cfg.limits.maxTableRows ∧
        sourceBytes reads ≤ cfg.limits.maxSerializedBytes
  | _ => True

variable {cfg : AppSettings} {answers : List (Except String PyDict)} {g : Ledger}

theorem totalAnswered_singleton (result : PyDict) :
    totalAnswered [.ok result] = (PyValue.dict result).totalRows := by
  simp [totalAnswered]

theorem payload_fits {limits : ResultLimitPolicy} {result : PyDict} {v : PyValue}
    (h : limits.apply (.dict result) = .ok v) :
    totalAnswered [.ok result] ≤ limits.maxTableRows ∧
      ∃ text, jsonDumps v = .ok text ∧ text.utf8ByteSize ≤ limits.maxSerializedBytes := by
  obtain ⟨hrows, rfl, text, hdumps, hsize⟩ := (apply_ok_iff v).mp h
  rw [totalAnswered_singleton]
  exact ⟨hrows, text, hdumps, hsize⟩

/-- A request that raises keeps to the limits when they are to blame for what exceeds them. -/
theorem withinLimits_raised {limits : ResultLimitPolicy} {exc : PyExc}
    (h : Blamed limits answers exc) : WithinLimits limits answers (.error exc) := by
  constructor
  · exact nofun
  · intro result hmem hexceeds
    have hlimit := h result hmem hexceeds
    cases exc with
    | resultLimitExceeded message => exact ⟨message, rfl⟩
    | _ => cases hlimit

theorem withinLimits_stopped {limits : ResultLimitPolicy} {exc : PyExc}
    (h : Stopped limits [] exc g) : WithinLimits limits g.answers (.error exc) := by
  obtain ⟨new, hanswers, hblamed, _⟩ := blamed_of_stopped h
  rw [hanswers, List.nil_append]
  exact withinLimits_raised hblamed

/-- A request whose payload fits, and whose results were all let through. -/
theorem withinLimits_returned {limits : ResultLimitPolicy} {answer : Answer}
    (hfits : ∀ payload, answer.payload = some payload →
      totalAnswered answers ≤ limits.maxTableRows ∧
      ∃ text, jsonDumps payload = .ok text ∧ text.utf8ByteSize ≤ limits.maxSerializedBytes)
    (hblamed : ∀ exc, Blamed limits answers exc) : WithinLimits limits answers (.ok answer) := by
  constructor
  · intro answer' payload hanswer hpayload
    cases hanswer
    exact hfits payload hpayload
  · intro result hmem hexceeds
    have hlimit := hblamed (.valueError "") result hmem hexceeds
    cases hlimit

theorem withinLimits_passed {limits : ResultLimitPolicy} {v : PyValue} {answer : Answer}
    (h : Passed limits [] v g) (hpayload : answer.payload = some v) :
    WithinLimits limits g.answers (.ok answer) := by
  obtain ⟨result, hanswers, happly⟩ := h
  rw [hanswers, List.nil_append]
  refine withinLimits_returned (fun payload heq => ?_) fun exc => blamed_of_passed exc happly
  rw [hpayload] at heq
  cases heq
  exact payload_fits happly

theorem withinLimits_silent {limits : ResultLimitPolicy} {reply : Except PyExc Answer}
    (hg : g.answers = []) (hreply : ∀ answer, reply = .ok answer → answer.payload = none) :
    WithinLimits limits g.answers reply := by
  constructor
  · intro answer payload heq hpayload
    rw [hreply answer heq] at hpayload
    cases hpayload
  · intro result hmem
    rw [hg] at hmem
    cases hmem

/-- The lines of one result fit where the result does. -/
theorem lines_fit {limits : ResultLimitPolicy} {result : PyDict} {v : PyValue} {key source : String}
    (h : limits.apply (.dict result) = .ok v)
    (hsource : SourceReader.sourceLines v key = .ok source) :
    WithinLimits limits [.ok result] (.ok (.source source)) := by
  refine withinLimits_returned (fun payload hpayload => ?_) fun exc => blamed_of_passed exc h
  cases hpayload
  obtain ⟨hrows, text, hdumps, hsize⟩ := payload_fits h
  exact ⟨hrows, jsonString source, rfl, Nat.le_trans (sourceLines_bytes hsource hdumps) hsize⟩

end Limits

section Requests

variable {cfg : AppSettings} {g : Ledger}

/-- The limits hold of a request exactly when what it has been answered fits together. -/
def Settled (cfg : AppSettings) (request : Request) (reply : Except PyExc Answer) (g : Ledger) :
    Prop :=
  WithinLimits cfg.limits g.answers reply ↔ FitsTogether cfg g.answers request

theorem settled_of {request : Request} {reply : Except PyExc Answer}
    (hwithin : WithinLimits cfg.limits g.answers reply)
    (hfits : FitsTogether cfg g.answers request) :
    Settled cfg request reply g :=
  ⟨fun _ => hfits, fun _ => hwithin⟩

theorem meets_pure_bind {α β : Type} {x : Act α} {f : α → β} {ok : β → Ledger → Prop}
    {err : PyExc → Ledger → Prop} (h : ledger.Meets x (fun a => ok (f a)) err g) :
    ledger.Meets (x >>= fun a => pure (f a) : Act β) ok err g := by
  rw [meets_bind]
  exact h

/-- What ends a transaction is not measured. -/
theorem settled_finish {request : Request} {id : TxId} {action : ExecutionInvoker.ControlAction}
    (hfits : ∀ answers, FitsTogether cfg answers request ↔
      ∀ result, .ok result ∈ answers → ∃ v, cfg.limits.apply (.dict result) = .ok v) :
    ledger.Meets
      (do
        let value ← (do
          ExecutionPolicy.authorizeTransactionControl cfg.policy
          ExecutionInvoker.finishTransaction cfg (connectionPool cfg) id action)
        pure (Answer.result value))
      (fun answer g' => Settled cfg request (.ok answer) g')
      (fun exc g' => Settled cfg request (.error exc) g') {} := by
  have hraised : ∀ (exc : PyExc) (g : Ledger), g.answers = [] →
      Settled cfg request (.error exc) g := by
    intro exc g hg
    refine settled_of (withinLimits_silent hg nofun) ((hfits _).mpr ?_)
    intro result hmem
    rw [hg] at hmem
    cases hmem
  refine meets_pure_bind ?_
  rw [meets_bind]
  refine ((adds_lookups cfg).authorizeTransactionControl _ |>.meets {} rfl).mono
    (fun _ g hg => ?_) fun exc g hg => hraised exc g hg
  refine (ledger_finishTransaction id action hg).mono (fun v g hv => ?_)
    fun exc g hg => hraised exc g hg
  obtain ⟨result, hanswers, rfl⟩ := hv
  rw [List.nil_append] at hanswers
  rw [Settled, hfits, hanswers]
  constructor
  · intro hwithin result' hmem
    simp only [List.mem_singleton, Except.ok.injEq] at hmem
    subst hmem
    obtain ⟨hrows, text, hdumps, hsize⟩ := hwithin.returned _ _ rfl rfl
    rw [totalAnswered_singleton] at hrows
    exact ⟨_, (apply_ok_iff _).mpr ⟨hrows, rfl, text, hdumps, hsize⟩⟩
  · intro haccepts
    obtain ⟨v, happly⟩ := haccepts result List.mem_cons_self
    have hsafe := ((apply_ok_iff v).mp happly).2.1
    subst hsafe
    rw [← hanswers]
    exact withinLimits_passed ⟨result, hanswers, happly⟩ rfl

/-- A read of lines from one result. -/
theorem settled_lines {request : Request} {f key : String} {parameters : PyDict}
    (hfits : ∀ answers, FitsTogether cfg answers request) :
    ledger.Meets
      (do
        let text ← (do
          let result ← ExecutionInvoker.call cfg (connectionPool cfg) f parameters "read"
          Action.ofExcept (SourceReader.sourceLines result key))
        pure (Answer.source text))
      (fun answer g' => Settled cfg request (.ok answer) g')
      (fun exc g' => Settled cfg request (.error exc) g') {} := by
  refine meets_pure_bind ?_
  rw [meets_bind]
  refine (ledger_invokerCall f parameters "read" rfl).mono (fun v g hpassed => ?_)
    fun exc g hstopped => settled_of (withinLimits_stopped hstopped) (hfits _)
  obtain ⟨result, hanswers, happly⟩ := hpassed
  rw [List.nil_append] at hanswers
  rw [meets_ofExcept]
  refine ⟨fun source hsource => settled_of ?_ (hfits _), fun exc _ => settled_of ?_ (hfits _)⟩
  · rw [hanswers]
    exact lines_fit happly hsource
  · rw [hanswers]
    exact withinLimits_raised (blamed_of_passed exc happly)

theorem classReads_unlisted {result : PyDict} {v : PyValue} {exc : PyExc}
    {answers : List (Except String PyDict)} (h : cfg.limits.apply (.dict result) = .ok v)
    (hlisted : listedIncludes v = .error exc) : classReads cfg (.ok result :: answers) = none := by
  simp only [classReads, h, hlisted]

theorem classReads_listed {result : PyDict} {v : PyValue} {names : List PyValue}
    {answers : List (Except String PyDict)} (h : cfg.limits.apply (.dict result) = .ok v)
    (hlisted : listedIncludes v = .ok names) :
    classReads cfg (.ok result :: answers) = includeReads cfg names answers := by
  simp only [classReads, h, hlisted]

/-- A class read that fails has not gone through its includes. -/
theorem settled_raised {className : String} {exc : PyExc}
    (hblamed : Blamed cfg.limits g.answers exc)
    (hreads : ∀ reads, classReads cfg g.answers = some reads → reads = []) :
    Settled cfg (.readSource .class_ className) (.error exc) g := by
  refine settled_of (withinLimits_raised hblamed) ?_
  intro reads hsome hne
  exact absurd (hreads reads hsome) hne

/-- The source of a class fits exactly when its includes fit together. -/
theorem settled_assembled {className : String} {result : PyDict} {v : PyValue}
    {names : List PyValue} (happly : cfg.limits.apply (.dict result) = .ok v)
    (hlisted : listedIncludes v = .ok names) (hne : names ≠ [])
    (hanswers : g.answers = [.ok result]) :
    ledger.Meets
      (do
        let parts ← Action.collect names
          (SourceReader.readInclude cfg (connectionPool cfg) className)
        pure ("\n\n".intercalate parts))
      (fun text g' => Settled cfg (.readSource .class_ className) (.ok (.source text)) g')
      (fun exc g' => Settled cfg (.readSource .class_ className) (.error exc) g') g := by
  rw [meets_bind]
  refine (ledger_readIncludes className names hanswers).mono (fun parts g' hread => ?_)
    fun exc g' hfailed => ?_
  · obtain ⟨new, reads, hanswers', hreads, rfl, hblamed⟩ := hread
    have hsome : classReads cfg g'.answers = some reads := by
      rw [hanswers', List.singleton_append, classReads_listed happly hlisted, hreads]
    rw [meets_pure, Settled]
    constructor
    · intro hwithin reads' hsome' _
      rw [hsome] at hsome'
      cases hsome'
      obtain ⟨hrows, text, hdumps, hsize⟩ := hwithin.returned _ _ rfl rfl
      cases hdumps
      rw [assembled_bytes] at hsize
      exact ⟨hrows, hsize⟩
    · intro hfits
      refine withinLimits_returned (fun payload hpayload => ?_) fun exc => ?_
      · cases hpayload
        have hreadsNe : reads ≠ [] := by
          intro hnil
          have hlength := includeReads_length hreads
          rw [hnil] at hlength
          exact hne (List.eq_nil_of_length_eq_zero hlength.symm)
        obtain ⟨hrows, hsize⟩ := hfits reads hsome hreadsNe
        rw [← assembled_bytes] at hsize
        exact ⟨hrows, _, rfl, hsize⟩
      · rw [hanswers']
        exact (blamed_of_passed exc happly).append (hblamed exc)
  · obtain ⟨new, hanswers', hblamed, hreads⟩ := hfailed
    refine settled_raised ?_ fun reads hsome => ?_
    · rw [hanswers']
      exact (blamed_of_passed exc happly).append hblamed
    · rw [hanswers', List.singleton_append, classReads_listed happly hlisted, hreads] at hsome
      cases hsome

theorem settled_class (className : String) :
    ledger.Meets
      (do
        let text ← SourceReader.readClassSource cfg (connectionPool cfg) className
        pure (Answer.source text))
      (fun answer g' => Settled cfg (.readSource .class_ className) (.ok answer) g')
      (fun exc g' => Settled cfg (.readSource .class_ className) (.error exc) g') {} := by
  refine meets_pure_bind ?_
  unfold SourceReader.readClassSource
  dsimp only
  rw [meets_bind]
  refine (ledger_invokerCall _ _ "read" rfl).mono (fun v g hpassed => ?_) fun exc g hstopped => ?_
  · obtain ⟨result, hanswers, happly⟩ := hpassed
    rw [List.nil_append] at hanswers
    have hblamed : ∀ exc, Blamed cfg.limits g.answers exc := by
      intro exc
      rw [hanswers]
      exact blamed_of_passed exc happly
    have hunlisted : ∀ exc, listedIncludes v = .error exc →
        Settled cfg (.readSource .class_ className) (.error exc) g := by
      intro exc hlisted
      refine settled_raised (hblamed exc) fun reads hsome => ?_
      rw [hanswers, classReads_unlisted happly hlisted] at hsome
      cases hsome
    rw [meets_bind, meets_ofExcept]
    refine ⟨fun row hrow => ?_, fun exc hrow => hunlisted exc (by simp [listedIncludes, hrow, bind,
      Except.bind])⟩
    rw [meets_bind, meets_ofExcept]
    refine ⟨fun rows hrows => ?_, fun exc hrows => hunlisted exc (by simp [listedIncludes, hrow,
      hrows, bind, Except.bind])⟩
    rw [meets_bind, meets_ofExcept]
    have hlisted : listedIncludes v = SourceReader.includeNames rows := by
      simp only [listedIncludes, hrow, hrows, bind, Except.bind]
    refine ⟨fun names hnames => ?_, fun exc hnames => hunlisted exc (hlisted.trans hnames)⟩
    rw [hnames] at hlisted
    split
    · rename_i hempty
      have hnone : ∀ reads, classReads cfg g.answers = some reads → reads = [] := by
        intro reads hsome
        rw [hanswers, classReads_listed happly hlisted, List.isEmpty_iff.mp hempty] at hsome
        cases hsome
        rfl
      rw [meets_ofExcept]
      refine ⟨fun source hsource => ?_, fun exc _ => settled_raised (hblamed exc) hnone⟩
      refine settled_of ?_ fun reads hsome hne => absurd (hnone reads hsome) hne
      rw [hanswers]
      exact lines_fit happly hsource
    · rename_i hnonempty
      exact settled_assembled happly hlisted (by simpa using hnonempty) hanswers
  · obtain ⟨new, hanswers, hblamed, hnew⟩ := blamed_of_stopped hstopped
    rw [List.nil_append] at hanswers
    refine settled_raised (by rw [hanswers]; exact hblamed) fun reads hsome => ?_
    rw [hanswers] at hsome
    cases hnew with
    | inl hempty => subst hempty; cases hsome
    | inr hresult =>
      obtain ⟨result, rfl, happly⟩ := hresult
      simp only [classReads, happly] at hsome
      cases hsome

theorem follows_of_meets {request : Request} {x : Act Answer}
    (h : ledger.Meets x (fun answer g' => Settled cfg request (.ok answer) g')
      (fun exc g' => Settled cfg request (.error exc) g') {}) :
    ledger.Follows (Settled cfg request) x {} := by
  refine Follows.mono h fun reply g hsettled => ?_
  cases reply with
  | ok answer => exact hsettled
  | error exc => exact hsettled

/-- Requests whose replies carry nothing of SAP's answers to their own RFCs. -/
theorem settled_silent {α : Type} {request : Request} {x : Act α} {f : α → Answer}
    (hx : Adds [] x) (hf : ∀ a, (f a).payload = none)
    (hfits : ∀ answers, FitsTogether cfg answers request) :
    ledger.Meets (x >>= fun a => pure (f a) : Act Answer)
      (fun answer g' => Settled cfg request (.ok answer) g')
      (fun exc g' => Settled cfg request (.error exc) g') {} := by
  refine meets_pure_bind ((hx.meets {} rfl).mono (fun a g hg => ?_) fun exc g hg => ?_)
  · refine settled_of (withinLimits_silent hg ?_) (hfits _)
    intro answer heq
    cases heq
    exact hf a
  · exact settled_of (withinLimits_silent hg nofun) (hfits _)

theorem program_settled (request : Request) :
    ledger.Follows (Settled cfg request) (request.program cfg (connectionPool cfg)) {} := by
  apply follows_of_meets
  cases request with
  | call f parameters mode =>
    refine meets_pure_bind ((ledger_invokerCall f parameters mode rfl).mono (fun v g hg => ?_)
      fun exc g hg => ?_)
    · exact settled_of (withinLimits_passed hg rfl) trivial
    · exact settled_of (withinLimits_stopped hg) trivial
  | callTransactional f parameters mode id =>
    refine meets_pure_bind (f := fun r : PyValue × Option TxId => Answer.written r.1 r.2)
      ((ledger_callTransactional f parameters mode id rfl).mono (fun v g hg => ?_)
      fun exc g hg => ?_)
    · exact settled_of (withinLimits_passed hg rfl) trivial
    · exact settled_of (withinLimits_stopped hg) trivial
  | commit id wait => exact settled_finish fun _ => Iff.rfl
  | rollback id => exact settled_finish fun _ => Iff.rfl
  | search pattern group limit =>
    exact settled_silent ((adds_lookups cfg).search pattern group limit) (fun _ => rfl)
      fun _ => trivial
  | getInterface f =>
    exact settled_silent ((adds_lookups cfg).getInterface f) (fun _ => rfl) fun _ => trivial
  | readSource objectType name =>
    cases objectType with
    | program => exact settled_lines fun _ => trivial
    | class_ => exact settled_class name
    | functionModule => exact settled_lines fun _ => trivial
  | expireTransactions =>
    exact settled_silent (f := fun _ => .done) adds_expireTransactions (fun _ => rfl)
      fun _ => trivial
  | close => exact settled_silent (f := fun _ => .done) adds_close (fun _ => rfl) fun _ => trivial
  | closeAll =>
    exact settled_silent (f := fun _ => .done) (adds_within within_closeAll rfl rfl) (fun _ => rfl)
      fun _ => trivial

end Requests

section Exact

variable {cfg : AppSettings} {c : Run cfg}

/-- What thread `t` has been answered so far. -/
def answersOf (t : ℕ) (c : Run cfg) : List (Except String PyDict) :=
  (localOf ledger t c.history).answers

/-- In every run, a request that has returned keeps to the limits exactly when what it has been
answered fits together. -/
theorem within_limits_iff (h : Reachable c) {t : ℕ} {request : Request}
    {reply : Except PyExc Answer} (hreply : c.threads[t]? = some (request, .ret reply)) :
    WithinLimits cfg.limits (answersOf t c) reply ↔ FitsTogether cfg (answersOf t c) request := by
  have hprog : ∀ r, ledger.Follows (Settled cfg r) ((server cfg).program r) ledger.start :=
    program_settled
  exact h.disciplined (P := fun _ => ledger) hprog t request _ hreply

end Exact

section Sample

/-- Limits of two list elements in a result. -/
def narrowSettings : AppSettings := { sampleSettings with limits := { maxTableRows := 2 } }

def sampleInterfaceResult : PyDict :=
  [("PARAMS", .list [
    .dict [("PARAMETER", .str "PROGRAM_NAME"), ("PARAMCLASS", .str "I")],
    .dict [("PARAMETER", .str "WITH_INCLUDELIST"), ("PARAMCLASS", .str "I"),
      ("OPTIONAL", .str "X")]])]

def samplePool : PyDict := [("INCLUDE_TAB", .list [.dict [("INCLNAME", .str "ZCL_A=CU")]])]

def sampleInclude : PyDict :=
  [("SOURCE_EXTENDED", .list [.dict [("LINE", .str "a")], .dict [("LINE", .str "b")]])]

/-- The answers to a read of a class with one include: the class pool has one row, the include has
two. -/
def classAnswers : List Choice :=
  [.go, .go, .time 0, .go, .go, .go, .liveness fun _ => .alive, .go, .opened (.ok ()), .go,
    .answer (.ok sampleInterfaceResult), .go, .go, .go, .go, .go, .go, .time 0, .go, .go, .go,
    .liveness fun _ => .alive, .go, .go, .answer (.ok samplePool), .go, .go, .go, .go, .go, .go,
    .go, .go, .time 0, .go, .go, .go, .liveness fun _ => .alive, .go, .go,
    .answer (.ok sampleInclude), .go, .go, .go, .go, .go, .go]

def sampleClassRead : List (Move (server narrowSettings)) :=
  .start (.readSource .class_ "ZCL_A") :: classAnswers.map fun ch => .run 0 ch

/-- What thread `t` has returned. -/
def payloadOf {cfg : AppSettings} (t : ℕ) (c : Run cfg) : Option PyValue :=
  match c.threads[t]? with
  | some (_, .ret (.ok answer)) => answer.payload
  | _ => none

theorem returned_of_payloadOf {cfg : AppSettings} {c : Run cfg} {t : ℕ} {payload : PyValue}
    (h : payloadOf t c = some payload) : ∃ request answer,
      c.threads[t]? = some (request, .ret (.ok answer)) ∧ answer.payload = some payload := by
  unfold payloadOf at h
  split at h
  · rename_i request answer hthread
    exact ⟨request, answer, hthread, h⟩
  · cases h

theorem within_limits_iff_class : ∃ c request reply,
    execute (server narrowSettings).initial sampleClassRead = some c ∧
      c.threads[0]? = some (request, .ret reply) ∧
      (WithinLimits narrowSettings.limits (answersOf 0 c) reply ↔
        FitsTogether narrowSettings (answersOf 0 c) request) := by
  have hrun : ((execute (server narrowSettings).initial sampleClassRead).any fun c =>
      (payloadOf 0 c).isSome) = true := by decide +kernel
  obtain ⟨c, hc, hsome⟩ := (Option.any_eq_true _ _).mp hrun
  obtain ⟨payload, hpayload⟩ := Option.isSome_iff_exists.mp hsome
  obtain ⟨request, answer, hthread, _⟩ := returned_of_payloadOf hpayload
  exact ⟨c, request, .ok answer, hc, hthread, within_limits_iff (execute_reachable hc) hthread⟩

/-- Each result is within the limits, and the source is built from three list elements. -/
theorem assembled_exceeds : ∃ c request reply,
    execute (server narrowSettings).initial sampleClassRead = some c ∧
      c.threads[0]? = some (request, .ret reply) ∧
      ¬WithinLimits narrowSettings.limits (answersOf 0 c) reply := by
  have hrun : ((execute (server narrowSettings).initial sampleClassRead).any fun c =>
      (payloadOf 0 c).isSome && decide (2 < totalAnswered (answersOf 0 c))) = true := by
    decide +kernel
  obtain ⟨c, hc, hfound⟩ := (Option.any_eq_true _ _).mp hrun
  obtain ⟨hsome, hrows⟩ := Bool.and_eq_true_iff.mp hfound
  obtain ⟨payload, hpayload⟩ := Option.isSome_iff_exists.mp hsome
  obtain ⟨request, answer, hthread, hanswer⟩ := returned_of_payloadOf hpayload
  refine ⟨c, request, .ok answer, hc, hthread, fun hwithin => ?_⟩
  have hle := (hwithin.returned answer payload rfl hanswer).1
  have hlt := of_decide_eq_true hrows
  exact absurd hle (Nat.not_le_of_lt hlt)

end Sample

end RfcMcp
