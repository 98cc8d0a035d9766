import RfcMcp.Custody.Shutdown
import RfcMcp.Replies.Requests

namespace RfcMcp

open Framework Framework.Protocol Framework.System ExecutionInvoker SourceReader

section Source

variable {cfg : AppSettings} {request : Request} {done : List RfcAttempt}

/-- What one include adds to the source of a class, and to the RFCs. -/
inductive IncludeFetched (cfg : AppSettings) (name : PyValue) :
    List RfcAttempt → List String → List RfcAttempt → Prop
  | read {done : List RfcAttempt} {kwargs : PyDict} {result : Except PyExc PyDict} {value : PyValue}
      {source : String} (hsent : Sent cfg [("PROGRAM_NAME", name)] kwargs)
      (hvalue : limited cfg result = .ok value)
      (hsource : sourceLines value "SOURCE_EXTENDED" = .ok source) :
      IncludeFetched cfg name done ["* === INCLUDE " ++ cfg.text.str name ++ " ===", source]
        (⟨.read, "RPY_PROGRAM_READ", kwargs, some result⟩ :: done)
  | unreadable {done done' : List RfcAttempt} {exc : PyExc} (hexc : isSapError exc = true)
      (htried : Tried .read "RPY_PROGRAM_READ" (Sent cfg [("PROGRAM_NAME", name)]) (limited cfg)
        done (.error exc) done') :
      IncludeFetched cfg name done
        ["* === INCLUDE " ++ cfg.text.str name ++ " (unreadable: " ++ exc.text cfg.text ++ ") ==="]
        done'

/-- The includes of a class are read one after the other. -/
inductive IncludesFetched (cfg : AppSettings) :
    List PyValue → List RfcAttempt → List String → List RfcAttempt → Prop
  | nil {done : List RfcAttempt} : IncludesFetched cfg [] done [] done
  | cons {name : PyValue} {names : List PyValue} {done done' done'' : List RfcAttempt}
      {part parts : List String} (hpart : IncludeFetched cfg name done part done')
      (hparts : IncludesFetched cfg names done' parts done'') :
      IncludesFetched cfg (name :: names) done (part ++ parts) done''

theorem yields_readInclude (className : String) (name : PyValue)
    (hclass : request.readsClass = true) :
    Yields request (readInclude cfg (connectionPool cfg) className name)
      (fun r d => ∀ part, r = .ok part → IncludeFetched cfg name done part d) done := by
  have hcall : Yields request (ExecutionInvoker.call cfg (connectionPool cfg) "RPY_PROGRAM_READ"
      [("PROGRAM_NAME", name)] "read") (Tried .read "RPY_PROGRAM_READ"
        (Sent cfg [("PROGRAM_NAME", name)]) (limited cfg) done) done :=
    yields_invokerCall _ _ _ (.inr hclass)
  have hbody : Yields request
      (ExecutionInvoker.call cfg (connectionPool cfg) "RPY_PROGRAM_READ" [("PROGRAM_NAME", name)]
        "read" >>= fun result => pure (Except.ok result) : Act (Except PyExc PyValue))
      (fun r d => (∃ value, r = .ok (.ok value) ∧ Tried .read "RPY_PROGRAM_READ"
          (Sent cfg [("PROGRAM_NAME", name)]) (limited cfg) done (.ok value) d) ∨
        ∃ exc, r = .error exc ∧ Tried .read "RPY_PROGRAM_READ"
          (Sent cfg [("PROGRAM_NAME", name)]) (limited cfg) done (.error exc) d) done :=
    yields_bind hcall (fun value d hd => yields_pure (.inl ⟨value, rfl, hd⟩))
      fun exc d hd => .inr ⟨exc, rfl, hd⟩
  refine yields_bind (Q := fun r d => ∀ outcome, r = .ok outcome →
      Tried .read "RPY_PROGRAM_READ" (Sent cfg [("PROGRAM_NAME", name)]) (limited cfg) done
        outcome d ∧ ∀ exc, outcome = .error exc → isSapError exc = true)
    (yields_tryExcept hbody (fun outcome d hd => ?_) fun exc d hd => yields_ite (fun hexc => ?_)
      fun _ => yields_raise nofun) (fun outcome d hd => ?_) fun exc d hd => nofun
  · rcases hd with ⟨value, houtcome, htried⟩ | ⟨exc, hexc, _⟩
    · cases houtcome
      rintro _ ⟨⟩
      exact ⟨htried, nofun⟩
    · cases hexc
  · rcases hd with ⟨value, houtcome, _⟩ | ⟨exc', hexc', htried⟩
    · cases houtcome
    · cases hexc'
      refine yields_log (yields_pure ?_)
      rintro _ ⟨⟩
      refine ⟨htried, ?_⟩
      rintro _ ⟨⟩
      exact hexc
  · obtain ⟨htried, hsap⟩ := hd outcome rfl
    cases outcome with
    | error exc =>
      refine yields_pure ?_
      rintro _ ⟨⟩
      exact .unreadable (hsap exc rfl) htried
    | ok value =>
      rcases htried with ⟨_, exc, hexc⟩ | ⟨kwargs, result, hsent, rfl, hresult⟩
      · cases hexc
      refine yields_ofExcept_bind (fun source hsource => yields_pure ?_) fun exc _ => nofun
      rintro _ ⟨⟩
      exact .read hsent hresult.symm hsource

theorem yields_includes (className : String) (names : List PyValue)
    (hclass : request.readsClass = true) :
    Yields request (Action.collect names (readInclude cfg (connectionPool cfg) className))
      (fun r d => ∀ parts, r = .ok parts → IncludesFetched cfg names done parts d) done := by
  induction names generalizing done with
  | nil =>
    refine yields_pure ?_
    rintro _ ⟨⟩
    exact .nil
  | cons name names ih =>
    refine yields_bind (yields_readInclude className name hclass) (fun part d hpart => ?_)
      fun exc d hd => nofun
    refine yields_bind ih (fun parts d' hparts => yields_pure ?_) fun exc d hd => nofun
    rintro _ ⟨⟩
    exact .cons (hpart part rfl) (hparts parts rfl)

/-- The source of a class is that of its includes, or that of the class pool if it has none. -/
structure ClassFetched (cfg : AppSettings) (className source : String) (done : List RfcAttempt) :
    Prop where
  listed : ∃ kwargs result value row rows names,
    Sent cfg [("PROGRAM_NAME", .str (classPoolProgramName cfg.text className)),
      ("WITH_INCLUDELIST", .str "X")] kwargs ∧
    limited cfg result = .ok value ∧ value.asRow = .ok row ∧
    (row.getD "INCLUDE_TAB" (.list [])).iterate = .ok rows ∧ includeNames rows = .ok names ∧
    if names.isEmpty then
      done = [⟨.read, "RPY_PROGRAM_READ", kwargs, some result⟩] ∧
        sourceLines value "SOURCE_EXTENDED" = .ok source
    else ∃ parts, IncludesFetched cfg names [⟨.read, "RPY_PROGRAM_READ", kwargs, some result⟩] parts
        done ∧ source = "\n\n".intercalate parts

theorem yields_readClassSource (className : String) (hclass : request.readsClass = true) :
    Yields request (readClassSource cfg (connectionPool cfg) className)
      (fun r d => ∀ source, r = .ok source → ClassFetched cfg className source d) [] := by
  refine yields_bind (yields_invokerCall _ _ _ (.inr hclass)) (fun value d hd => ?_)
    fun exc d hd => nofun
  rcases hd with ⟨_, exc, hexc⟩ | ⟨kwargs, result, hsent, rfl, hresult⟩
  · cases hexc
  refine yields_ofExcept_bind (fun row hrow => ?_) fun exc _ => nofun
  refine yields_ofExcept_bind (fun rows hrows => ?_) fun exc _ => nofun
  refine yields_ofExcept_bind (fun names hnames => ?_) fun exc _ => nofun
  have hlisted : ∀ {source d}, (if names.isEmpty then
      d = [⟨.read, "RPY_PROGRAM_READ", kwargs, some result⟩] ∧
        sourceLines value "SOURCE_EXTENDED" = .ok source
    else ∃ parts, IncludesFetched cfg names [⟨.read, "RPY_PROGRAM_READ", kwargs, some result⟩] parts
        d ∧ source = "\n\n".intercalate parts) → ClassFetched cfg className source d :=
    fun h => ⟨kwargs, result, value, row, rows, names, hsent, hresult.symm, hrow, hrows, hnames, h⟩
  refine yields_ite (fun hempty => ?_) fun hempty => ?_
  · refine yields_ofExcept fun source hsource => hlisted ?_
    rw [if_pos hempty]
    exact ⟨rfl, hsource⟩
  · refine yields_bind (yields_includes className names hclass) (fun parts d hparts => ?_)
      fun exc d hd => nofun
    refine yields_pure ?_
    rintro _ ⟨⟩
    refine hlisted ?_
    rw [if_neg hempty]
    exact ⟨parts, hparts parts rfl, rfl⟩

end Source

section Requests

variable {cfg : AppSettings} {c : Run cfg}

/-- The reply hands on an outcome. -/
def Replied {α : Type} (answer : α → Answer) (Q : Except PyExc α → List RfcAttempt → Prop)
    (reply : Except PyExc Answer) (done : List RfcAttempt) : Prop :=
  ∃ outcome, reply = outcome.map answer ∧ Q outcome done

/-- What comes of `call_transactional`. -/
def Called (cfg : AppSettings) (f : String) (parameters : PyDict) (mode : String)
    (id : Option TxId) (r : Except PyExc (PyValue × Option TxId)) (done : List RfcAttempt) : Prop :=
  (mode = "read" ∧ id = none ∧ Tried .read f (Sent cfg parameters)
    (fun result => (limited cfg result).map fun value => (value, none)) [] r done) ∨
  (mode = "write" ∧ Wrote cfg f parameters id r done) ∨ (done = [] ∧ ∃ exc, r = .error exc)

/-- What the reply to a request says about the RFCs that it was made for. -/
def Request.Answered (cfg : AppSettings) : Request → Except PyExc Answer → List RfcAttempt → Prop
  | .call f parameters _ =>
    Replied .result (Tried .read f (Sent cfg parameters) (limited cfg) [])
  | .callTransactional f parameters mode id =>
    Replied (fun answer => .written answer.1 answer.2) (Called cfg f parameters mode id)
  | .commit id wait => Replied .result (Finished cfg (.commit wait) id)
  | .rollback id => Replied .result (Finished cfg .rollback id)
  | .readSource .program name =>
    Replied .source (Tried .read "RPY_PROGRAM_READ" (Sent cfg [("PROGRAM_NAME", .str name)])
      (fun result => limited cfg result >>= (sourceLines · "SOURCE_EXTENDED")) [])
  | .readSource .functionModule name =>
    Replied .source (Tried .read "RPY_FUNCTIONMODULE_READ" (Sent cfg [("FUNCTIONNAME", .str name)])
      (fun result => limited cfg result >>= (sourceLines · "SOURCE")) [])
  | .readSource .class_ name =>
    Replied .source fun outcome done =>
      ∀ source, outcome = .ok source → ClassFetched cfg name source done
  | .search _ _ _ | .getInterface _ | .expireTransactions | .close | .closeAll =>
    fun _ done => done = []

theorem yields_answer {α : Type} {request : Request} {x : Act α} (answer : α → Answer)
    {Q : Except PyExc α → List RfcAttempt → Prop} (hx : Yields request x Q []) :
    Yields request (x >>= fun a => pure (answer a) : Act Answer) (Replied answer Q) [] :=
  yields_bind hx (fun a _ hQ => yields_pure ⟨.ok a, rfl, hQ⟩) fun exc _ hQ => ⟨.error exc, rfl, hQ⟩

theorem follows_of_yields {request : Request} {x : Act Answer}
    {Q : Except PyExc Answer → List RfcAttempt → Prop} (h : Yields request x Q []) :
    (once request).Follows (fun r g => Q r (asked g)) x [] := by
  refine Follows.mono (h [] rfl) fun r g hQ => ?_
  cases r <;> exact hQ

theorem yields_keeps {α : Type} {request : Request} {x : Act α} {done : List RfcAttempt}
    (hx : (once request).Keeps (HasAsked done) x) : Yields request x (fun _ d => d = done) done :=
  hx.meets

theorem yields_close {request : Request} {done : List RfcAttempt} :
    Yields request (ExecutionInvoker.close (connectionPool cfg)) (fun _ d => d = done) done := by
  refine yields_keeps (keeps_bind (once_withLock (once_op rfl)) fun pending => ?_)
  refine keeps_forEach fun e _ => once_withLock ?_
  have hrelease : ∀ reusable, (once request).Keeps (HasAsked done)
      (ConnectionPool.release e.2.connection reusable (some e)) := by
    intro reusable
    refine (within_release _ reusable _).keeps fun o ho => once_unasked (isUnasked_of_area ?_)
    rintro h
    simp [h] at ho
  refine keeps_bind (keeps_tryExcept ?_ fun exc => ?_) fun reusable => hrelease reusable
  · exact keeps_bind (once_call rfl) fun _ => keeps_bind (once_op rfl) fun _ => keeps_pure _
  · exact keeps_bind (once_op rfl) fun _ => keeps_pure _

theorem yields_callTransactional {request : Request} (f : String) (parameters : PyDict)
    (mode : String) (id : Option TxId) :
    Yields request (callTransactional cfg (connectionPool cfg) f parameters mode id)
      (Called cfg f parameters mode id) [] := by
  refine yields_after once_expireTransactions (fun _ => ?_) fun exc => .inr (.inr ⟨rfl, exc, rfl⟩)
  refine yields_ite (fun hread => yields_ite (fun _ => ?_) fun hid => ?_)
    fun _ => yields_ite (fun _ => ?_) fun hwrite => ?_
  · exact yields_raise (.inr (.inr ⟨rfl, _, rfl⟩))
  · refine (yields_tried_map (yields_invokerCall f parameters mode (.inl rfl))).mono ?_
    exact fun r d hd => .inl ⟨hread, by simpa using hid, hd⟩
  · exact yields_raise (.inr (.inr ⟨rfl, _, rfl⟩))
  · exact (yields_write f parameters id).mono fun r d hd => .inr (.inl ⟨by simpa using hwrite, hd⟩)

theorem yields_finish {request : Request} (id : TxId) (action : ControlAction) :
    Yields request
      (ExecutionPolicy.authorizeTransactionControl cfg.policy >>= fun _ =>
        finishTransaction cfg (connectionPool cfg) id action)
      (Finished cfg action id) [] := by
  have hlookups : Lookups cfg (once request) (HasAsked []) := once_lookups
  exact yields_after (hlookups.authorizeTransactionControl _)
    (fun _ => yields_finishTransaction id action) fun exc => .inl ⟨rfl, exc, rfl⟩

/-- A program, and a function module, is read with one RFC. -/
theorem yields_source {request : Request} {f key : String} {parameters : PyDict} :
    Yields request
      (ExecutionInvoker.call cfg (connectionPool cfg) f parameters "read" >>= fun result =>
        Action.ofExcept (sourceLines result key))
      (Tried .read f (Sent cfg parameters)
        (fun result => limited cfg result >>= (sourceLines · key)) []) [] :=
  yields_tried_bind (yields_invokerCall f parameters "read" (.inl rfl))
    fun _ _ => yields_ofExcept ⟨rfl, rfl⟩

theorem program_answered (request : Request) :
    (once request).Follows (fun r g => request.Answered cfg r (asked g))
      (request.program cfg (connectionPool cfg)) [] := by
  apply follows_of_yields
  have hlookups : Lookups cfg (once request) (HasAsked []) := once_lookups
  cases request with
  | call f parameters mode =>
    exact yields_answer _ (yields_invokerCall f parameters mode (.inl rfl))
  | callTransactional f parameters mode id =>
    exact yields_answer (fun answer : PyValue × Option TxId => .written answer.1 answer.2)
      (yields_callTransactional f parameters mode id)
  | commit id wait => exact yields_answer _ (yields_finish id _)
  | rollback id => exact yields_answer _ (yields_finish id _)
  | search pattern group limit =>
    exact yields_bind (yields_keeps (hlookups.search pattern group limit))
      (fun found d hd => yields_pure hd) fun exc d hd => hd
  | getInterface f =>
    exact yields_bind (yields_keeps (hlookups.getInterface f))
      (fun found d hd => yields_pure hd) fun exc d hd => hd
  | readSource objectType name =>
    cases objectType with
    | program => exact yields_answer _ yields_source
    | functionModule => exact yields_answer _ yields_source
    | class_ => exact yields_answer _ (yields_readClassSource name rfl)
  | expireTransactions =>
    exact yields_bind (yields_keeps once_expireTransactions)
      (fun found d hd => yields_pure hd) fun exc d hd => hd
  | close => exact yields_bind yields_close (fun found d hd => yields_pure hd) fun exc d hd => hd
  | closeAll =>
    refine yields_bind (yields_keeps (within_closeAll.keeps fun o ho => once_unasked
      (isUnasked_of_area ?_))) (fun found d hd => yields_pure hd) fun exc d hd => hd
    rintro h
    simp [h] at ho

/-- No operation makes a second attempt of it. -/
theorem asked_length_step {request : Request} (hclass : request.readsClass = false) {o : Op}
    (v : o.Res) {attempts : List RfcAttempt} (hallowed : (once request).allows o attempts)
    (h : (asked attempts).length ≤ 1) : (asked (o.onAttempts v attempts)).length ≤ 1 := by
  cases o with
  | rfcBegin conn p f kwargs =>
    cases hp : p.isAsked with
    | true =>
      have hnone : asked attempts = [] := by
        rcases hallowed hp with hnone | hreads
        · exact hnone
        · rw [hclass] at hreads
          cases hreads
      have hasked : asked (⟨p, f, kwargs, none⟩ :: attempts) =
          ⟨p, f, kwargs, none⟩ :: asked attempts := List.filter_cons_of_pos hp
      simp only [Op.onAttempts, hasked, hnone, List.length_singleton, le_refl]
    | false =>
      have hasked : asked (⟨p, f, kwargs, none⟩ :: attempts) = asked attempts :=
        List.filter_cons_of_neg (by simp [hp])
      simp only [Op.onAttempts, hasked, h]
  | rfcEnd conn f kwargs =>
    cases attempts with
    | nil => exact h
    | cons attempt attempts =>
      have hsame : (asked ({ attempt with result := some v } :: attempts)).length =
          (asked (attempt :: attempts)).length := by
        simp only [asked, List.filter_cons]
        split <;> rfl
      exact hsame.trans_le h
  | _ => exact h

/-- In every run, what a client asks for is tried at most once, and the reply to the request is what
comes of the result of that one RFC. -/
structure RepliesExact (c : Run cfg) : Prop where
  once : ∀ (t : ℕ) request p, c.threads[t]? = some (request, p) → request.readsClass = false →
    (asked (attemptsOf t c.history)).length ≤ 1
  answered : ∀ (t : ℕ) request reply, c.threads[t]? = some (request, .ret reply) →
    request.Answered cfg reply (asked (attemptsOf t c.history))

theorem replies_exact (h : Reachable c) : RepliesExact c := by
  constructor
  · intro t request p hthread hclass
    have hlength := h.local_invariant (P := once) program_answered
      (I := fun (request : Request) attempts =>
        request.readsClass = false → (asked attempts).length ≤ 1)
      (fun _ _ => by simp [asked])
      (fun request o v g hallowed ih hclass => asked_length_step hclass v hallowed (ih hclass))
      hthread hclass
    rw [localOf_once] at hlength
    exact hlength
  · intro t request reply hthread
    have hanswered := h.disciplined (P := once) program_answered t request _ hthread
    rw [localOf_once] at hanswered
    exact hanswered

theorem replies_exact_commit :
    ∃ c, execute (server sampleSettings).initial (sampleWrite 0 ++ sampleCommit 1) = some c ∧
      (asked (attemptsOf 1 c.history)).length = 1 ∧ RepliesExact c := by
  have hrun : ((execute (server sampleSettings).initial (sampleWrite 0 ++ sampleCommit 1)).any
      fun c => (asked (attemptsOf 1 c.history)).length == 1) = true := by decide +kernel
  obtain ⟨c, hc, hlength⟩ := (Option.any_eq_true _ _).mp hrun
  exact ⟨c, hc, eq_of_beq hlength, replies_exact (execute_reachable hc)⟩

end Requests

end RfcMcp
