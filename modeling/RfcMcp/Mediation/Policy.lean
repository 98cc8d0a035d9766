import RfcMcp.Custody.Affinity

namespace RfcMcp

open Framework Framework.System

section Mapper

/-- Every argument that is sent is the last value given under that name in any letter case. -/
theorem mem_buildCallKwargs {T : PyText} {interface : FunctionInterface}
    {parameters kwargs : PyDict} (h : buildCallKwargs T interface parameters = .ok kwargs)
    {k : String} {v : PyValue} (hkv : (k, v) ∈ kwargs) :
    ∃ k', lastUpper T parameters (T.upper k) = some (k', v) := by
  unfold buildCallKwargs at h
  dsimp only at h
  split at h
  · cases h
  split at h
  · cases h
  cases h
  refine List.foldlRecOn (motive := fun d => ∀ k v, (k, v) ∈ d →
    ∃ k', lastUpper T parameters (T.upper k) = some (k', v)) interface.parameters _
    (fun _ _ hmem => absurd hmem List.not_mem_nil) (fun d hd p _ k v hkv => ?_) k v hkv
  cases hp : lastUpper T parameters (T.upper p.name) with
  | none =>
    simp only [hp] at hkv
    exact hd k v hkv
  | some e =>
    simp only [hp] at hkv
    cases mem_set hkv with
    | inl heq =>
      cases heq
      exact ⟨e.1, hp⟩
    | inr hold => exact hd k v hold

end Mapper

section Authorize

variable {T : PyText} {settings : PolicySettings} {f mode : String} {parameters : PyDict}

open ExecutionPolicy

theorem authorizeUnlogged_target {target : Option String}
    (h : authorizeUnlogged T settings f mode target = .ok ()) :
    isTargetDenied T settings target = false := by
  unfold authorizeUnlogged at h
  split at h
  · cases h
  · rename_i hdenied
    exact Bool.eq_false_of_not_eq_true hdenied

theorem authorizeUnlogged_write {target : Option String}
    (h : authorizeUnlogged T settings f "write" target = .ok ()) :
    settings.mode = .readWrite ∧ settings.isWriteAllowed T f = true := by
  unfold authorizeUnlogged at h
  split at h
  · cases h
  · rw [if_neg (by decide), if_pos rfl] at h
    split at h
    · cases h
    · rename_i hmode
      split at h
      · cases h
      · rename_i hallowed
        exact ⟨not_not.mp hmode, by simpa using hallowed⟩

/-- The table that is sent is the table that was checked. -/
theorem sent_table_allowed {interface : FunctionInterface} {kwargs : PyDict}
    (hauthorized : authorizeUnlogged T settings f mode
      (genericTableReaderTarget T settings f parameters) = .ok ())
    (hkwargs : buildCallKwargs T interface parameters = .ok kwargs)
    (hreader : settings.isGenericTableReader T f = true) {k : String} {v : PyValue}
    (hkv : (k, v) ∈ kwargs) (hk : T.upper k = genericTableReaderParam) (hv : v.truthy = true) :
    settings.isTableDenied T (T.str v) = false := by
  obtain ⟨k', hlast⟩ := mem_buildCallKwargs hkwargs hkv
  have htarget : genericTableReaderTarget T settings f parameters = some (T.str v) := by
    unfold genericTableReaderTarget
    rw [hreader, ← hk, hlast]
    simp [hv]
  have hdenied := authorizeUnlogged_target hauthorized
  rw [htarget] at hdenied
  exact hdenied

end Authorize

section Mediation

variable {cfg : AppSettings} {c : Run cfg} {t : ℕ} {e : Entry}

/-- An RFC with arguments built from parameters that were authorized earlier in the same request;
and if it reads a table of the caller's choice, the table that is sent is not denied. -/
structure AuthorizedCall (cfg : AppSettings) (t : ℕ) (earlier : History Request)
    (f mode : String) (kwargs : PyDict) : Prop where
  built : ∃ parameters interface, buildCallKwargs cfg.text interface parameters = .ok kwargs ∧
    ExecutionPolicy.authorizeUnlogged cfg.text cfg.policy f mode
      (ExecutionPolicy.genericTableReaderTarget cfg.text cfg.policy f parameters) = .ok () ∧
    .did t (.log (ExecutionPolicy.allowedRecord f mode
      (ExecutionPolicy.genericTableReaderTarget cfg.text cfg.policy f parameters))) () ∈ earlier
  table : cfg.policy.isGenericTableReader cfg.text f = true → ∀ k v, (k, v) ∈ kwargs →
    cfg.text.upper k = "QUERY_TABLE" → v.truthy = true →
    cfg.policy.isTableDenied cfg.text (cfg.text.str v) = false

/-- The COMMIT or ROLLBACK of an open transaction, which an authorized write has opened. -/
structure AuthorizedControl (cfg : AppSettings) (earlier : History Request) (conn : Conn)
    (e : Entry) (f : String) : Prop where
  function : f = "BAPI_TRANSACTION_COMMIT" ∨ f = "BAPI_TRANSACTION_ROLLBACK"
  connection : conn = e.2.connection
  existing : e ∈ record Op.registers earlier ∧ e ∉ record Op.releases earlier
  mode : cfg.policy.mode = .readWrite
  opened : ∃ t before f parameters,
    (∃ after, earlier = after ++ .did t (.register e.1 e.2) () :: before) ∧
    ExecutionPolicy.authorizeUnlogged cfg.text cfg.policy f "write"
      (ExecutionPolicy.genericTableReaderTarget cfg.text cfg.policy f parameters) = .ok () ∧
    .did t (.log (ExecutionPolicy.allowedRecord f "write"
      (ExecutionPolicy.genericTableReaderTarget cfg.text cfg.policy f parameters))) () ∈ before

/-- What the policy lets through, in any run. -/
structure CompleteMediation (c : Run cfg) : Prop where
  /-- Apart from the catalog's own lookups, every RFC is an authorized call, or ends a
  transaction. -/
  mediated : ∀ (later earlier : History Request) t conn p f kwargs,
    c.history = later ++ .did t (.rfcBegin conn p f kwargs) () :: earlier →
    match p with
    | .discovery => f ∈ discoveryFunctions
    | .read => AuthorizedCall cfg t earlier f "read" kwargs
    | .write _ => AuthorizedCall cfg t earlier f "write" kwargs
    | .commit e | .rollback e | .expire e | .shutdown e =>
      AuthorizedControl cfg earlier conn e f
  /-- A server that may only read never has a transaction. -/
  read_only : cfg.policy.mode = .readOnly → c.shared.table = []

theorem authorizedCall_of_cleared {request : Request} {earlier : History Request} {f mode : String}
    {kwargs parameters : PyDict}
    (h : Cleared cfg (clearance cfg request t earlier) f mode kwargs parameters) :
    AuthorizedCall cfg t earlier f mode kwargs := by
  obtain ⟨⟨hallowed, hlogged⟩, interface, hkwargs⟩ := h
  constructor
  · exact ⟨parameters, interface, hkwargs, hallowed, granted_logged hlogged⟩
  · intro hreader k v hkv hk hv
    exact sent_table_allowed hallowed hkwargs hreader hkv hk hv

/-- A transaction that has been registered was opened for an authorized write. -/
theorem opened_authorized (h : Reachable c) (he : e ∈ record Op.registers c.history) :
    cfg.policy.mode = .readWrite ∧
      ∃ t before f parameters,
        (∃ after, c.history = after ++ .did t (.register e.1 e.2) () :: before) ∧
        ExecutionPolicy.authorizeUnlogged cfg.text cfg.policy f "write"
          (ExecutionPolicy.genericTableReaderTarget cfg.text cfg.policy f parameters) = .ok () ∧
        .did t (.log (ExecutionPolicy.allowedRecord f "write"
          (ExecutionPolicy.genericTableReaderTarget cfg.text cfg.policy f parameters))) () ∈
          before := by
  obtain ⟨t, o, v, hmem, hpick⟩ := mem_record.mp he
  cases o with
  | register id a =>
    obtain rfl := List.mem_singleton.mp hpick
    obtain ⟨after, before, hh⟩ := List.append_of_mem hmem
    obtain ⟨request, _, _, f, parameters, _, _, hallowed, hlogged⟩ := registered_authorized h hh
    exact ⟨(authorizeUnlogged_write hallowed).1, t, before, f, parameters, ⟨after, hh⟩, hallowed,
      granted_logged hlogged⟩
  | _ => cases hpick

theorem authorizedControl_of_open {b : Run cfg} (hb : Reachable b) {f : String}
    (hopen : (hands b).Open e)
    (hf : f = "BAPI_TRANSACTION_COMMIT" ∨ f = "BAPI_TRANSACTION_ROLLBACK") :
    AuthorizedControl cfg b.history e.2.connection e f := by
  have hprog := @program_follows cfg
  have hregistered := (mem_registers hprog hb).mpr hopen.seen
  obtain ⟨hmode, hopened⟩ := opened_authorized hb hregistered
  refine ⟨hf, rfl, ⟨hregistered, ?_⟩, hmode, hopened⟩
  have hone := Hands.seen_le_one (hands_reachable hprog hb) e
  rw [← countP_isEntry_pos, releases_all hprog hb]
  unfold Hands.Open at hopen
  unfold Hands.seenCount at hone
  omega

theorem complete_mediation (h : Reachable c) : CompleteMediation c := by
  have hprog := @program_follows cfg
  constructor
  · intro later earlier t conn p f kwargs hh
    obtain ⟨request, _, _, hmay⟩ := issued_mayIssue h hh
    obtain ⟨b, d, hb, hperforms, _, rfl, _⟩ := h.performed hh
    have hbegin := Hands.begin_entry (hands_reachable hprog hb) (hperforms.allowed hprog hb)
    have hcontrol : ∀ e, p.entry = some e →
        f = "BAPI_TRANSACTION_COMMIT" ∨ f = "BAPI_TRANSACTION_ROLLBACK" →
        AuthorizedControl cfg b.history conn e f := by
      intro e he hf
      rcases hbegin with ⟨hnone, _⟩ | ⟨e', he', hopen, rfl⟩
      · rw [hnone] at he
        cases he
      · rw [he] at he'
        cases he'
        exact authorizedControl_of_open hb hopen hf
    cases p with
    | discovery => exact hmay
    | read =>
      obtain ⟨parameters, hcleared⟩ := hmay
      exact authorizedCall_of_cleared hcleared
    | write e =>
      obtain ⟨parameters, _, _, _, hcleared⟩ := hmay
      exact authorizedCall_of_cleared hcleared
    | commit e => exact hcontrol e rfl (.inl hmay.2.1)
    | rollback e => exact hcontrol e rfl (.inr hmay.2.1)
    | expire e => exact hcontrol e rfl (.inr hmay.2)
    | shutdown e => exact hcontrol e rfl (.inr hmay.2)
  · intro hmode
    refine List.eq_nil_iff_forall_not_mem.mpr fun e he => ?_
    have hopen := (Hands.open_iff (hands_reachable hprog h)).mpr (.inl he)
    obtain ⟨hwrite, _⟩ := opened_authorized h ((mem_registers hprog h).mpr hopen.seen)
    rw [hmode] at hwrite
    cases hwrite

theorem complete_mediation_commit :
    ∃ c, execute (server sampleSettings).initial (sampleWrite 0 ++ sampleCommit 1) = some c ∧
      CompleteMediation c := by
  have hrun : (execute (server sampleSettings).initial
      (sampleWrite 0 ++ sampleCommit 1)).isSome = true := by decide +kernel
  obtain ⟨c, hc⟩ := Option.isSome_iff_exists.mp hrun
  exact ⟨c, hc, complete_mediation (execute_reachable hc)⟩

end Mediation

end RfcMcp
