import RfcMcp.Errors.Calls

namespace RfcMcp

open Framework Framework.Protocol ExecutionInvoker SourceReader

section Discovery

variable {cfg : AppSettings} {request : Request}

theorem accounts_pooledCall (f : String) (params : PyDict) :
    Accounts (Blames cfg request) Anything (PooledCaller.call cfg (connectionPool cfg) f params)
      fun raw => RfcEnded .discovery f params (.ok raw) := by
  refine accounts_acquire (fun conn => ?_) fun raw => rfcEnded_enduring _ _ _ _
  refine accounts_tryExcept accounts_call fun exc => accounts_raise fun trace hended => ?_
  exact .failed rfl hended rfl

theorem provided_enduring (id : CacheId) (key : String) (value : id.Value) :
    Enduring (Provided id key value) := fun did _ h => h.cons did

theorem accounts_getOrSet {id : CacheId} {key : String} {factory : Act id.Value}
    (hfactory : Accounts (Blames cfg request) Anything factory fun _ => Anything) :
    Accounts (Blames cfg request) Anything (TTLCache.getOrSet id key factory)
      fun value => Provided id key value := by
  have hget : Accounts (Blames cfg request) Anything (TTLCache.get id key) fun cached trace =>
      ⟨Op.cacheGet id key, cached⟩ ∈ trace :=
    accounts_result
  refine accounts_bind hget fun cached => ?_
  cases cached with
  | some value => exact accounts_pure fun trace hmem => ⟨_, _, .get, hmem⟩
  | none =>
    have hset : ∀ value, Accounts (Blames cfg request) Anything (TTLCache.set id key value)
        fun _ trace => Provided id key value trace := fun value =>
      accounts_section (fun _ => provided_enduring id key value)
        (fun _ _ _ => ⟨_, _, .set, List.mem_cons_self⟩) fun _ _ _ => trivial
    refine accounts_bind (hfactory.weaken (fun _ _ => trivial) fun _ _ h => h) fun value => ?_
    exact accounts_bind (hset value) fun _ => accounts_pure fun _ h => h

theorem accounts_search (pattern : String) (group : Option String) (limit : Int) :
    Accounts (Blames cfg request) Anything
      (FunctionCatalog.search cfg (PooledCaller.call cfg (connectionPool cfg)) pattern group limit)
      fun _ => Anything := by
  have hsearch : Accounts (Blames cfg request) Anything
      (FunctionCatalog.doSearch cfg (PooledCaller.call cfg (connectionPool cfg)) pattern group
        limit) fun _ => Anything := by
    refine accounts_bind (accounts_pooledCall _ _) fun raw => ?_
    refine accounts_ofExcept (fun _ _ _ _ => trivial) fun exc trace hexc hended => ?_
    exact .malformed hended (.search hexc)
  exact (accounts_getOrSet hsearch).weaken (fun _ h => h) fun _ _ _ => trivial

/-- The rows under `key` are gone through; what is done for each is accounted for. -/
theorem accounts_rows {α : Type} {J : Trace Effects → Prop} {raw : PyDict} {key : String}
    {next : List PyValue → Act α} {ok : α → Trace Effects → Prop}
    (hblames : ∀ exc trace, NotRows raw key exc → J trace → Blames cfg request exc trace)
    (hnext : ∀ rows, (raw.getD key (.list [])).iterate = .ok rows →
      Accounts (Blames cfg request) J (next rows) ok) :
    Accounts (Blames cfg request) J
      (Action.ofExcept (raw.getD key (.list [])).iterate >>= next) ok := by
  refine accounts_bind (Q := fun rows trace =>
    (raw.getD key (.list [])).iterate = .ok rows ∧ J trace) ?_ fun rows => ?_
  · exact accounts_ofExcept (fun rows trace hrows htrace => ⟨hrows, htrace⟩)
      fun exc trace hexc htrace => hblames exc trace (.value hexc) htrace
  · intro trace htrace
    exact hnext rows htrace.1 trace htrace.2

theorem accounts_resolve (depth : ℕ) (tabname : String) (seen : List String) :
    Accounts (Blames cfg request) Anything
      (resolve cfg.text (PooledCaller.call cfg (connectionPool cfg)) depth tabname seen)
      fun _ => Anything := by
  induction depth generalizing tabname seen with
  | zero => exact accounts_pure fun _ _ => trivial
  | succ depth ih =>
    unfold resolve
    dsimp only
    generalize cfg.text.upper (strip tabname) = upperName
    refine accounts_ite (fun _ => accounts_pure fun _ _ => trivial) fun _ => ?_
    refine accounts_bind (accounts_pooledCall _ _) fun raw => ?_
    have hblames : ∀ exc trace, NotRows raw "FIELDS" exc →
        RfcEnded .discovery "RFC_GET_STRUCTURE_DEFINITION" [("TABNAME", .str tabname)] (.ok raw)
          trace → Blames cfg request exc trace :=
      fun exc trace hexc hended => .malformed hended (.fields hexc)
    refine accounts_rows hblames fun rows hrows => ?_
    refine accounts_collect (rfcEnded_enduring _ _ _ _) fun row hrow => ?_
    refine accounts_bind (Q := fun _ => Anything) (accounts_ofExcept (fun _ _ _ _ => trivial)
      fun exc trace hexc hended => hblames exc trace (.row hrows hrow hexc) hended) fun d => ?_
    refine accounts_ite (fun _ => accounts_pure fun _ _ => trivial) fun _ => ?_
    refine accounts_ite (fun _ => ?_) fun _ => accounts_pure fun _ _ => trivial
    exact accounts_bind (ih _ _) fun fields => accounts_pure fun _ _ => trivial

theorem notRows_of_exceptions {T : PyText} {rows : List PyValue} {exc : PyExc}
    (h : FunctionCatalog.interfaceExceptions T rows = .error exc) :
    ∃ row ∈ rows, row.asRow = .error exc := by
  induction rows with
  | nil => cases h
  | cons row rows ih =>
    unfold FunctionCatalog.interfaceExceptions at h
    cases hrow : row.asRow with
    | error exc' =>
      rw [hrow] at h
      cases h
      exact ⟨row, List.mem_cons_self, hrow⟩
    | ok d =>
      rw [hrow] at h
      cases hrest : FunctionCatalog.interfaceExceptions T rows with
      | error exc' =>
        have hexc : exc' = exc := by
          simp only [hrest, bind, Except.bind] at h
          split at h
          · exact Except.error.inj h
          · exact Except.error.inj h
        subst hexc
        obtain ⟨row', hmem, hrow'⟩ := ih hrest
        exact ⟨row', List.mem_cons_of_mem _ hmem, hrow'⟩
      | ok exceptions =>
        simp only [hrest, bind, Except.bind] at h
        split at h
        · cases h
        · cases h

theorem accounts_getInterface (f : String) : Accounts (Blames cfg request) Anything
    (ExecutionInvoker.getInterface cfg (connectionPool cfg) f)
    fun interface => Provided .interface (cfg.text.upper f) interface := by
  refine accounts_getOrSet (accounts_bind (accounts_pooledCall _ _) fun raw => ?_)
  have hblames : ∀ key, key = "PARAMS" ∨ key = "EXCEPTIONS" → ∀ exc trace, NotRows raw key exc →
      RfcEnded .discovery "RFC_GET_FUNCTION_INTERFACE" [("FUNCNAME", .str f)] (.ok raw) trace →
        Blames cfg request exc trace :=
    fun key hkey exc trace hexc hended => .malformed hended (.interface hkey hexc)
  refine accounts_rows (hblames "PARAMS" (.inl rfl)) fun rows hrows => ?_
  have hparameters : Accounts (Blames cfg request)
      (RfcEnded .discovery "RFC_GET_FUNCTION_INTERFACE" [("FUNCNAME", .str f)] (.ok raw))
      (Action.collect rows (FunctionCatalog.interfaceParameter cfg
        (PooledCaller.call cfg (connectionPool cfg)))) fun _ => Anything := by
    refine accounts_collect (rfcEnded_enduring _ _ _ _) fun row hrow => ?_
    refine accounts_bind (Q := fun _ => Anything) (accounts_ofExcept (fun _ _ _ _ => trivial)
      fun exc trace hexc hended =>
        hblames "PARAMS" (.inl rfl) exc trace (.row hrows hrow hexc) hended) fun d => ?_
    refine accounts_ite (fun _ => accounts_pure fun _ _ => trivial) fun _ => ?_
    split
    · exact accounts_pure fun _ _ => trivial
    · refine accounts_ite (fun _ => accounts_pure fun _ _ => trivial) fun _ => ?_
      refine accounts_bind (Q := fun _ => Anything) (accounts_ite (fun _ => ?_) fun _ => ?_)
        fun fields => accounts_pure fun _ _ => trivial
      · exact accounts_pure fun _ _ => trivial
      · exact accounts_resolve _ _ _
  refine accounts_bind ((hparameters.frame (fun _ h => h) (rfcEnded_enduring _ _ _ _)).weaken
    (fun _ h => h) fun _ _ h => h.2) fun parameters => ?_
  refine accounts_rows (hblames "EXCEPTIONS" (.inr rfl)) fun rows hrows => ?_
  refine accounts_bind (Q := fun _ => Anything) (accounts_ofExcept (fun _ _ _ _ => trivial)
    fun exc trace hexc hended => ?_) fun exceptions => accounts_pure fun _ _ => trivial
  obtain ⟨row, hrow, hexc⟩ := notRows_of_exceptions hexc
  exact hblames "EXCEPTIONS" (.inr rfl) exc trace (.row hrows hrow hexc) hended

end Discovery

section Invoker

variable {cfg : AppSettings} {request : Request} {f : String} {parameters : PyDict}

theorem denied_of_error {T : PyText} {settings : PolicySettings} {mode : String}
    {tableName : Option String} {exc : PyExc} (hmode : mode = "read" ∨ mode = "write")
    (h : ExecutionPolicy.authorizeUnlogged T settings f mode tableName = .error exc) :
    ∃ reason, exc = .policyDenied f mode reason := by
  unfold ExecutionPolicy.authorizeUnlogged at h
  split at h
  · cases h
    exact ⟨_, rfl⟩
  rcases hmode with rfl | rfl
  · rw [if_pos rfl] at h
    split at h
    · cases h
      exact ⟨_, rfl⟩
    · cases h
  · rw [if_neg (by decide), if_pos rfl] at h
    split at h
    · cases h
      exact ⟨_, rfl⟩
    · split at h
      · cases h
        exact ⟨_, rfl⟩
      · cases h

theorem accounts_authorize {mode : String} (hmode : mode = "read" ∨ mode = "write")
    (hasks : request.AsksFor cfg.text f parameters) :
    Accounts (Blames cfg request) Anything
      (ExecutionPolicy.authorize cfg.text cfg.policy f mode parameters) fun _ => Anything := by
  unfold ExecutionPolicy.authorize
  dsimp only
  cases hresult : ExecutionPolicy.authorizeUnlogged cfg.text cfg.policy f mode
      (ExecutionPolicy.genericTableReaderTarget cfg.text cfg.policy f parameters) with
  | ok done => exact (silent_log _).causes fun _ _ hfalse => hfalse.elim
  | error exc =>
    obtain ⟨reason, rfl⟩ := denied_of_error hmode hresult
    refine (silent_log _).accounts_bind persistent_anything fun _ => accounts_raise ?_
    exact fun _ _ => .denied hasks rfl hresult

theorem accounts_authorizeTransactionControl (hrequest : request.endsTransaction = true) :
    Accounts (Blames cfg request) Anything
      (ExecutionPolicy.authorizeTransactionControl cfg.policy) fun _ => Anything := by
  refine accounts_ite (fun hmode => ?_) fun _ => (silent_log _).causes fun _ _ hfalse => hfalse.elim
  refine (silent_log _).accounts_bind persistent_anything fun _ => accounts_raise fun _ _ => ?_
  exact .controlDenied hrequest hmode rfl

/-- The parameters are held against the interface that the thread has been given. -/
theorem accounts_kwargs {α : Type} {interface : FunctionInterface} {next : PyDict → Act α}
    {ok : α → Trace Effects → Prop} (hasks : request.AsksFor cfg.text f parameters)
    (hnext : ∀ kwargs, Accounts (Blames cfg request) Anything (next kwargs) ok) :
    Accounts (Blames cfg request) (Provided .interface (cfg.text.upper f) interface)
      (Action.ofExcept (buildCallKwargs cfg.text interface parameters) >>= next) ok := by
  refine accounts_bind (Q := fun _ => Anything) (accounts_ofExcept (fun _ _ _ _ => trivial)
    fun exc trace hexc hprovided => ?_) hnext
  exact .unfit hasks hprovided hexc

/-- What a read has come to has passed the limits. -/
def ReadBack (cfg : AppSettings) (value : PyValue) (trace : Trace Effects) : Prop :=
  ∃ f kwargs raw, RfcEnded .read f kwargs (.ok raw) trace ∧ cfg.limits.apply (.dict raw) = .ok value

theorem accounts_invokerCall {mode : String} (hasks : request.AsksFor cfg.text f parameters)
    (hmode : mode ≠ "read" → ∃ f' parameters', request = .call f' parameters' mode) :
    Accounts (Blames cfg request) Anything
      (ExecutionInvoker.call cfg (connectionPool cfg) f parameters mode) (ReadBack cfg) := by
  refine accounts_ite (fun hread => accounts_raise fun trace _ => ?_) fun hread => ?_
  · obtain ⟨f', parameters', rfl⟩ := hmode hread
    exact .misused (.call hread)
  refine accounts_bind (accounts_authorize (.inl (by simpa using hread)) hasks) fun _ => ?_
  refine accounts_bind (accounts_getInterface f) fun interface => ?_
  refine accounts_kwargs hasks fun kwargs => ?_
  refine accounts_bind (Q := fun raw => RfcEnded .read f kwargs (.ok raw)) ?_ fun raw => ?_
  · exact accounts_acquire (fun conn => accounts_callOnConnection rfl) fun raw =>
      rfcEnded_enduring _ _ _ _
  · exact (accounts_applyResultLimits rfl).weaken (fun _ h => h) fun value trace h =>
      ⟨f, kwargs, raw, h⟩

end Invoker

section Sources

variable {cfg : AppSettings} {request : Request}

theorem accounts_lines {value : PyValue} {key : String} : Accounts (Blames cfg request)
    (ReadBack cfg value) (Action.ofExcept (sourceLines value key)) fun _ => Anything := by
  refine accounts_ofExcept (fun _ _ _ _ => trivial) fun exc trace hexc hread => ?_
  obtain ⟨f, kwargs, raw, hended, hvalue⟩ := hread
  exact .misread hended hvalue (.lines hexc)

theorem accounts_readInclude {name className : String} (includeName : PyValue) :
    Accounts (Blames cfg (.readSource .class_ name)) Anything
      (readInclude cfg (connectionPool cfg) className includeName) fun _ => Anything := by
  have hread : Accounts (Blames cfg (.readSource .class_ name)) Anything
      (ExecutionInvoker.call cfg (connectionPool cfg) "RPY_PROGRAM_READ"
        [("PROGRAM_NAME", includeName)] "read") (ReadBack cfg) :=
    accounts_invokerCall ⟨rfl, .inr ⟨includeName, rfl⟩⟩ fun hmode => absurd rfl hmode
  refine accounts_bind (Q := fun outcome trace => ∀ value, outcome = .ok value →
    ReadBack cfg value trace) (accounts_tryExcept (C := Blames cfg (.readSource .class_ name))
      ?_ fun exc => ?_) fun outcome => ?_
  · refine accounts_bind hread fun value => accounts_pure fun trace hread => ?_
    rintro _ ⟨⟩
    exact hread
  · refine accounts_ite (fun _ => ?_) fun _ => accounts_raise fun _ h => h
    refine (silent_log _).accounts_bind (blames_enduring exc) fun _ => accounts_pure ?_
    exact fun _ _ => nofun
  · cases outcome with
    | error exc => exact accounts_pure fun _ _ => trivial
    | ok value =>
      refine accounts_bind (accounts_lines.weaken (fun trace h => h value rfl) fun _ _ h => h) ?_
      exact fun source => accounts_pure fun _ _ => trivial

theorem readBack_enduring (value : PyValue) : Enduring (ReadBack cfg value) := by
  rintro did trace ⟨f, kwargs, raw, hended, hvalue⟩
  exact ⟨f, kwargs, raw, rfcEnded_enduring _ _ _ _ did trace hended, hvalue⟩

theorem notRows_of_includeNames {rows : List PyValue} {exc : PyExc}
    (h : includeNames rows = .error exc) : ∃ row ∈ rows, row.asRow = .error exc := by
  induction rows with
  | nil => cases h
  | cons row rows ih =>
    unfold includeNames at h
    cases hrow : row.asRow with
    | error exc' =>
      rw [hrow] at h
      cases h
      exact ⟨row, List.mem_cons_self, hrow⟩
    | ok d =>
      rw [hrow] at h
      cases hrest : includeNames rows with
      | error exc' =>
        rw [hrest] at h
        cases h
        obtain ⟨row', hmem, hrow'⟩ := ih hrest
        exact ⟨row', List.mem_cons_of_mem _ hmem, hrow'⟩
      | ok names =>
        rw [hrest] at h
        cases h

theorem accounts_readClassSource (className : String) :
    Accounts (Blames cfg (.readSource .class_ className)) Anything
      (readClassSource cfg (connectionPool cfg) className) fun _ => Anything := by
  refine accounts_bind (accounts_invokerCall ⟨rfl, .inl rfl⟩ fun hmode => absurd rfl hmode)
    fun value => ?_
  have hmisread : ∀ exc trace, Misread value exc → ReadBack cfg value trace →
      Blames cfg (.readSource .class_ className) exc trace := by
    rintro exc trace hexc ⟨f, kwargs, raw, hended, hvalue⟩
    exact .misread hended hvalue hexc
  refine accounts_bind (Q := fun row trace => value.asRow = .ok row ∧ ReadBack cfg value trace)
    (accounts_ofExcept (fun row trace hrow hread => ⟨hrow, hread⟩)
      fun exc trace hexc hread => hmisread exc trace (.row hexc) hread) fun row => ?_
  have hblames : ∀ exc trace, NotRows row "INCLUDE_TAB" exc →
      value.asRow = .ok row ∧ ReadBack cfg value trace →
        Blames cfg (.readSource .class_ className) exc trace :=
    fun exc trace hexc h => hmisread exc trace (.includes h.1 hexc) h.2
  refine accounts_rows hblames fun rows hrows => ?_
  refine accounts_bind (Q := fun _ => ReadBack cfg value) (accounts_ofExcept
    (fun _ _ _ h => h.2) fun exc trace hexc h => ?_) fun names => ?_
  · obtain ⟨row', hmem, hrow⟩ := notRows_of_includeNames hexc
    exact hblames exc trace (.row hrows hmem hrow) h
  refine accounts_ite (fun _ => accounts_lines) fun _ => ?_
  have hparts : Accounts (Blames cfg (.readSource .class_ className)) (ReadBack cfg value)
      (Action.collect names (readInclude cfg (connectionPool cfg) className)) fun _ => Anything :=
    accounts_collect (readBack_enduring value) fun name _ =>
      (accounts_readInclude name).weaken (fun _ _ => trivial) fun _ _ h => h
  exact accounts_bind hparts fun parts => accounts_pure fun _ _ => trivial

theorem accounts_readViaRfc (objectType : ObjectType) (name : String) :
    Accounts (Blames cfg (.readSource objectType name)) Anything
      (readViaRfc cfg (connectionPool cfg) objectType name) fun _ => Anything := by
  cases objectType with
  | program =>
    exact accounts_bind (accounts_invokerCall ⟨rfl, rfl⟩ fun hmode => absurd rfl hmode)
      fun value => accounts_lines
  | functionModule =>
    exact accounts_bind (accounts_invokerCall ⟨rfl, rfl⟩ fun hmode => absurd rfl hmode)
      fun value => accounts_lines
  | class_ => exact accounts_readClassSource name

end Sources

end RfcMcp
