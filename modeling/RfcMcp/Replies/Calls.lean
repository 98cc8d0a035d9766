import RfcMcp.Replies.Attempts

namespace RfcMcp

open Framework Framework.Protocol ExecutionInvoker

/-- `kwargs` is what `build_call_kwargs` makes of the parameters. -/
def Sent (cfg : AppSettings) (parameters kwargs : PyDict) : Prop :=
  ∃ interface, buildCallKwargs cfg.text interface parameters = .ok kwargs

/-- What comes of the result of a business RFC. -/
def limited (cfg : AppSettings) : Except PyExc PyDict → Except PyExc PyValue
  | .error exc => .error (translate cfg exc)
  | .ok raw => cfg.limits.apply (.dict raw)

/-- What comes of the result of a COMMIT or ROLLBACK. -/
def controlled (cfg : AppSettings) : Except PyExc PyDict → Except PyExc PyValue
  | .error exc => .error (translate cfg exc)
  | .ok raw => toJsonSafe (.dict raw)

/-- An RFC has either not been issued, and there is an error, or it has been issued once more than
`before`, and what comes of it is what comes of its result. -/
def Tried {α : Type} (p : Purpose) (function : String) (sends : PyDict → Prop)
    (reads : Except PyExc PyDict → Except PyExc α) (before : List RfcAttempt) (r : Except PyExc α)
    (done : List RfcAttempt) : Prop :=
  (done = before ∧ ∃ exc, r = .error exc) ∨
    ∃ kwargs result, sends kwargs ∧ done = ⟨p, function, kwargs, some result⟩ :: before ∧
      r = reads result

section Tried

variable {α β : Type} {request : Request} {p : Purpose} {f : String} {sends sends' : PyDict → Prop}
  {reads : Except PyExc PyDict → Except PyExc α} {before done : List RfcAttempt}

theorem Tried.mono {r : Except PyExc α} (h : Tried p f sends reads before r done)
    (hsends : ∀ kwargs, sends kwargs → sends' kwargs) : Tried p f sends' reads before r done := by
  rcases h with h | ⟨kwargs, result, hkwargs, h⟩
  · exact .inl h
  · exact .inr ⟨kwargs, result, hsends kwargs hkwargs, h⟩

/-- What is made of the outcome afterwards. -/
theorem yields_tried_bind {x : Act α} {next : α → Act β} {k : α → Except PyExc β}
    (hx : Yields request x (Tried p f sends reads before) done)
    (hnext : ∀ a d, Yields request (next a) (fun r d' => r = k a ∧ d' = d) d) :
    Yields request (x >>= next)
      (Tried p f sends (fun result => reads result >>= k) before) done := by
  refine yields_bind hx (fun a d hd => (hnext a d).mono fun r d' hr => ?_) fun exc d hd => ?_
  · obtain ⟨rfl, rfl⟩ := hr
    rcases hd with ⟨_, exc, hexc⟩ | ⟨kwargs, result, hkwargs, rfl, hresult⟩
    · cases hexc
    · refine .inr ⟨kwargs, result, hkwargs, rfl, ?_⟩
      dsimp only
      rw [← hresult]
      rfl
  · rcases hd with ⟨rfl, _⟩ | ⟨kwargs, result, hkwargs, rfl, hresult⟩
    · exact .inl ⟨rfl, exc, rfl⟩
    · refine .inr ⟨kwargs, result, hkwargs, rfl, ?_⟩
      dsimp only
      rw [← hresult]
      rfl

theorem yields_tried_map {x : Act α} {k : α → β}
    (hx : Yields request x (Tried p f sends reads before) done) :
    Yields request (x >>= fun a => pure (k a) : Act β)
      (Tried p f sends (fun result => (reads result).map k) before) done :=
  yields_tried_bind hx fun _ _ => yields_pure ⟨rfl, rfl⟩

end Tried

section Rules

variable {α β : Type} {cfg : AppSettings} {request : Request} {done : List RfcAttempt} {conn : Conn}
  {p : Purpose} {f : String} {kwargs : PyDict} {Q : Except PyExc α → List RfcAttempt → Prop}

theorem yields_step {o : Op} {next : o.Res → Act α} (ho : o.isRfc = false)
    (hnext : ∀ v, Yields request (next v) Q done) : Yields request (perform o >>= next) Q done := by
  intro attempts hdone
  rw [meets_bind]
  exact once_step ho fun v => hnext v attempts hdone

theorem yields_log {record : LogRecord} {next : Unit → Act α}
    (hnext : Yields request (next ()) Q done) : Yields request (log record >>= next) Q done :=
  yields_step rfl fun _ => hnext

theorem yields_section {l : LockId} {o : Op} {next : o.Res → Act α} (ho : o.isRfc = false)
    (hnext : ∀ v, Yields request (next v) Q done) :
    Yields request (withLock l (perform o) >>= next) Q done := by
  have hsection : Yields request (withLock l (perform o))
      (fun r d => (∃ v, r = .ok v) ∧ d = done) done := by
    refine yields_withLock fun attempts hdone => once_step ho fun v => ?_
    exact ⟨⟨v, rfl⟩, hdone⟩
  refine yields_bind hsection (fun v d hd => ?_) fun exc d hd => ?_
  · rw [hd.2]
    exact hnext v
  · obtain ⟨v, hv⟩ := hd.1
    cases hv

/-- Connections are given back without an exception. -/
theorem yields_release {reusable : Bool} {luw : Option Entry} {next : Unit → Act α}
    (hnext : Yields request (next ()) Q done) :
    Yields request (ConnectionPool.release conn reusable luw >>= next) Q done := by
  have hrelease : Yields request (ConnectionPool.release conn reusable luw)
      (fun r d => r = .ok () ∧ d = done) done := by
    refine yields_step rfl fun _ => ?_
    intro attempts hdone
    have hlast : (once request).Meets (perform .semRelease)
        (fun a g => (.ok a : Except PyExc Unit) = .ok () ∧ asked g = done)
        (fun exc g => (.error exc : Except PyExc Unit) = .ok () ∧ asked g = done) attempts :=
      once_step rfl fun _ => ⟨rfl, hdone⟩
    rw [meets_tryFinally]
    by_cases hreusable : reusable = true
    · rw [if_pos hreusable]
      unfold withLock
      rw [meets_bind]
      refine once_step rfl fun _ => ?_
      rw [meets_tryFinally]
      exact once_step rfl fun _ => once_step rfl fun _ => hlast
    · rw [if_neg hreusable]
      exact once_step rfl fun _ => hlast
  refine yields_bind hrelease (fun v d hd => ?_) fun exc d hd => ?_
  · rw [hd.2]
    exact hnext
  · cases hd.1

/-- An RFC that the client has asked for. -/
theorem yields_call (hp : p.isAsked = true) (hmay : done = [] ∨ request.readsClass = true) :
    Yields request (conn.call p f kwargs) (fun r d => d = ⟨p, f, kwargs, some r⟩ :: done) done := by
  rintro attempts rfl
  have hasked : ∀ r, asked (⟨p, f, kwargs, r⟩ :: attempts) =
      ⟨p, f, kwargs, r⟩ :: asked attempts := fun r => List.filter_cons_of_pos hp
  unfold Conn.call
  rw [meets_bind]
  refine once_perform (fun _ => hmay) fun _ => ?_
  rw [meets_bind]
  refine once_perform trivial fun r => ?_
  rw [meets_ofExcept]
  refine ⟨fun raw hraw => ?_, fun exc hexc => ?_⟩
  · subst hraw
    exact hasked _
  · subst hexc
    exact hasked _

/-- An operation that neither is an RFC the client has asked for nor ends one. -/
def Op.isUnasked : Op → Bool
  | .rfcBegin _ p _ _ => !p.isAsked
  | .rfcEnd _ _ _ => false
  | _ => true

theorem once_unasked {o : Op} (ho : o.isUnasked = true) :
    (once request).Keeps (HasAsked done) (perform o) := by
  cases o with
  | rfcBegin conn p f kwargs =>
    have hp : p.isAsked = false := by simpa [Op.isUnasked] using ho
    refine keeps_perform fun attempts hdone => ⟨fun h => ?_, fun _ => ?_⟩
    · rw [hp] at h
      cases h
    · exact (List.filter_cons_of_neg (by simp [hp])).trans hdone
  | rfcEnd conn f kwargs => cases ho
  | _ => exact once_op rfl

/-- An RFC that nobody has asked for. -/
theorem once_call (hp : p.isAsked = false) :
    (once request).Keeps (HasAsked done) (conn.call p f kwargs) := by
  constructor
  rintro attempts rfl
  have hasked : ∀ r, asked (⟨p, f, kwargs, r⟩ :: attempts) = asked attempts :=
    fun r => List.filter_cons_of_neg (by simp [hp])
  unfold Conn.call
  rw [meets_bind]
  refine once_perform (fun h => ?_) fun _ => ?_
  · rw [hp] at h
    cases h
  · rw [meets_bind]
    refine once_perform trivial fun r => ?_
    rw [meets_ofExcept]
    exact ⟨fun _ _ => hasked _, fun _ _ => hasked _⟩

theorem isUnasked_of_area {o : Op} (ho : o.area ≠ .rfc) : o.isUnasked = true := by
  cases o with
  | rfcBegin conn p f kwargs =>
    cases p with
    | expire e => rfl
    | _ => exact absurd rfl ho
  | rfcEnd conn f kwargs => exact absurd rfl ho
  | _ => rfl

theorem once_lookups : Lookups cfg (once request) (HasAsked done) := by
  refine lookups_of_areas (fun o ho => once_unasked (isUnasked_of_area fun h => ?_))
    (fun _ _ => once_op rfl) fun _ _ _ => once_call rfl
  simp [h] at ho

theorem once_expireTransactions : (once request).Keeps (HasAsked done)
    (ExecutionInvoker.expireTransactions cfg (connectionPool cfg)) := by
  refine keeps_expireTransactions_of (fun o ho => once_unasked (isUnasked_of_area fun h => ?_))
    (fun _ _ => once_op rfl) fun e => once_call rfl
  simp [h] at ho

/-- `body` is run with a borrowed connection. -/
theorem yields_acquire {body : Conn → Act α}
    (hbody : ∀ conn, Yields request (body conn) Q done) (herr : ∀ exc, Q (.error exc) done) :
    Yields request (ConnectionPool.acquire cfg body) Q done := by
  have hcheckout : (once request).Keeps (HasAsked done) (ConnectionPool.checkout cfg) := by
    refine keeps_checkout_of fun o ho => once_op ?_
    cases o <;> first | rfl | cases ho
  refine yields_after hcheckout (fun conn => ?_) herr
  refine yields_bind (yields_tryExcept (hbody conn) (fun _ _ hQ => hQ) fun exc d hQ => ?_)
    (fun result d hQ => ?_) fun exc d hQ => hQ
  · exact yields_release (yields_raise hQ)
  · exact yields_release (yields_pure hQ)

end Rules

section Invoker

variable {cfg : AppSettings} {request : Request} {done : List RfcAttempt} {conn : Conn}
  {p : Purpose} {f : String} {kwargs : PyDict}

theorem yields_callOnConnection {mode : String} {id : Option TxId} (hp : p.isAsked = true)
    (hmay : done = [] ∨ request.readsClass = true) :
    Yields request (callOnConnection cfg conn p f kwargs mode id)
      (fun r d => ∃ result, d = ⟨p, f, kwargs, some result⟩ :: done ∧
        r = result.mapError (translate cfg)) done := by
  have hcall : Yields request
      ((conn.call p f kwargs).tryExcept fun exc => do
        log (warning "CALL FAILED function=%s mode=%s transaction_id=%s error=%s: %s"
          [f, mode, id.getD "None", (translate cfg exc).typeName,
            (translate cfg exc).text cfg.text])
        Action.raise (translate cfg exc))
      (fun r d => ∃ result, d = ⟨p, f, kwargs, some result⟩ :: done ∧
        r = result.mapError (translate cfg)) done := by
    refine yields_tryExcept (yields_call hp hmay) (fun raw d hd => ?_) fun exc d hd => ?_
    · exact ⟨.ok raw, hd, rfl⟩
    · exact yields_log (yields_raise ⟨.error exc, hd, rfl⟩)
  exact yields_bind hcall (fun raw d hd => yields_log (yields_pure hd)) fun exc d hd => hd

theorem yields_applyResultLimits {mode : String} {raw : PyDict} :
    Yields request (applyResultLimits cfg f mode raw)
      (fun r d => r = cfg.limits.apply (.dict raw) ∧ d = done) done := by
  unfold applyResultLimits
  generalize cfg.limits.apply (.dict raw) = outcome
  cases outcome with
  | ok value => exact yields_pure ⟨rfl, rfl⟩
  | error exc =>
    cases exc with
    | resultLimitExceeded message => exact yields_log (yields_raise ⟨rfl, rfl⟩)
    | _ => exact yields_raise ⟨rfl, rfl⟩

theorem limited_eq (result : Except PyExc PyDict) :
    (result.mapError (translate cfg) >>= fun raw => cfg.limits.apply (.dict raw)) =
      limited cfg result := by
  cases result <;> rfl

/-- A read is tried once. -/
theorem yields_invokerCall (f : String) (parameters : PyDict) (mode : String)
    (hmay : done = [] ∨ request.readsClass = true) :
    Yields request (ExecutionInvoker.call cfg (connectionPool cfg) f parameters mode)
      (Tried .read f (Sent cfg parameters) (limited cfg) done) done := by
  refine yields_ite (fun _ => yields_raise (.inl ⟨rfl, _, rfl⟩)) fun _ => ?_
  have hlookups : Lookups cfg (once request) (HasAsked done) := once_lookups
  refine yields_after (hlookups.authorize _ _ _ _ _) (fun _ => ?_) fun exc => .inl ⟨rfl, _, rfl⟩
  refine yields_after (hlookups.getInterface f) (fun interface => ?_) fun exc => .inl ⟨rfl, _, rfl⟩
  refine yields_ofExcept_bind (fun kwargs hbuilt => ?_) fun exc _ => .inl ⟨rfl, exc, rfl⟩
  have hread : Yields request (ConnectionPool.acquire cfg fun conn =>
      callOnConnection cfg conn .read f kwargs mode none)
      (Tried .read f (Sent cfg parameters) (fun result => result.mapError (translate cfg)) done)
      done := by
    refine yields_acquire (fun conn => ?_) fun exc => .inl ⟨rfl, _, rfl⟩
    refine (yields_callOnConnection rfl hmay).mono fun r d hd => ?_
    obtain ⟨result, hd, hr⟩ := hd
    exact .inr ⟨kwargs, result, ⟨interface, hbuilt⟩, hd, hr⟩
  refine (yields_tried_bind hread fun _ _ => yields_applyResultLimits).mono fun r d hd => ?_
  simp only [limited_eq] at hd
  exact hd

end Invoker

end RfcMcp
